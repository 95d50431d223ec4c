import Simulboot.Galois
import Simulboot.Session.NormalForm

/-!
# Adjointness of the two maps

Forgetting the coefficients against embedding at the top. The order compares
timings of one arity only, so the law holds just for what has the arity of the top.
-/

set_option autoImplicit false

namespace Simulboot

open Library Library.Xml

theorem forM_eq_ok {α ε : Type} {check : α → Except ε Unit} {items : List α} :
    items.forM check = .ok () ↔ ∀ item ∈ items, check item = .ok () := by
  induction items with
  | nil => simp [pure, Except.pure]
  | cons item rest ih =>
      rw [List.forall_mem_cons, ← ih]
      change (check item >>= fun _ => rest.forM check) = .ok () ↔ _
      cases check item with
      | error e => simp [bind, Except.bind]
      | ok done => simp [bind, Except.bind]

variable {F D : Type}

namespace SessionImageV1

/-! ## Valid images -/

theorem validateSurface_eq_ok {img : SessionImageV1 F D} {surf : SurfaceEntry} :
    img.validateSurface surf = .ok () ↔
      (img.coefficients.map SurfaceCoefficient.surfaceRef).count surf.id = 1 := by
  have counted : (img.coefficients.map SurfaceCoefficient.surfaceRef).count surf.id =
      img.coefficients.countP fun c => c.surfaceRef = surf.id := by
    rw [List.count, List.countP_map]
    rfl
  rw [counted]
  unfold validateSurface
  by_cases once : (img.coefficients.countP fun c => c.surfaceRef = surf.id) = 1
  · simp only [once, ne_eq, not_true_eq_false, ↓reduceIte]
  · simp only [once, ne_eq, not_false_eq_true, ↓reduceIte, reduceCtorEq]

theorem validate_eq_ok {img : SessionImageV1 F D} :
    img.validate = .ok () ↔
      img.coefficients.length = img.base.surfaces.length ∧
        ∀ surf ∈ img.base.surfaces,
          (img.coefficients.map SurfaceCoefficient.surfaceRef).count surf.id = 1 := by
  unfold validate
  by_cases sameLength : img.coefficients.length = img.base.surfaces.length
  · rw [if_neg (not_not_intro sameLength), forM_eq_ok]
    simp [sameLength, validateSurface_eq_ok]
  · simp [sameLength]

/-- In a valid image of distinct surfaces the coefficients name the surfaces,
each once. -/
theorem surfaceRefs_perm {img : SessionImageV1 F D} (valid : img.validate = .ok ())
    (distinct : (img.base.surfaces.map SurfaceEntry.id).Nodup) :
    (img.coefficients.map SurfaceCoefficient.surfaceRef).Perm
      (img.base.surfaces.map SurfaceEntry.id) := by
  obtain ⟨sameLength, once⟩ := validate_eq_ok.mp valid
  have covered : img.base.surfaces.map SurfaceEntry.id ⊆
      img.coefficients.map SurfaceCoefficient.surfaceRef := by
    intro id member
    obtain ⟨surf, inside, rfl⟩ := List.mem_map.mp member
    exact List.count_pos_iff.mp (by rw [once surf inside]; exact Nat.one_pos)
  exact ((List.subperm_of_subset distinct covered).perm_of_length_le (by simp [sameLength])).symm

/-- Every coefficient has one delay path, as the top has. -/
def SinglePath (img : SessionImageV1 F D) : Prop :=
  ∀ sc ∈ img.coefficients, sc.coefficient.timing.length = 1

end SessionImageV1

/-! ## The order against the top -/

theorem coefficientFor_gamma (base : SessionImage F) {id : SurfaceId}
    (named : id ∈ base.surfaces.map SurfaceEntry.id) :
    (gamma (D := D) base).coefficientFor id = some .top := by
  have found : (base.surfaces.find? fun surf => surf.id = id).isSome = true := by
    rw [List.find?_isSome]
    obtain ⟨surf, inside, same⟩ := List.mem_map.mp named
    exact ⟨surf, inside, decide_eq_true same⟩
  obtain ⟨surf, found⟩ := Option.isSome_iff_exists.mp found
  have mapped : (gamma (D := D) base).coefficients.find? (fun c => c.surfaceRef = id) =
      some { surfaceRef := surf.id, coefficient := .top } := by
    unfold gamma
    rw [List.find?_map]
    have composed : (fun surf : SurfaceEntry => decide (surf.id = id)) =
        (fun c : SurfaceCoefficient D => decide (c.surfaceRef = id)) ∘
          fun surf => { surfaceRef := surf.id, coefficient := .top } := rfl
    rw [← composed, found]
    rfl
  unfold SessionImageV1.coefficientFor
  rw [mapped]
  rfl

variable [Zero F] [RustFloat F] [Zero D] [RustFloat D]

section

variable (laws : RustFloat.Documented F) (delayLaws : RustFloat.Documented D)
variable {x : SessionImageV1 F D} (valid : x.validate = .ok ())
  (distinct : (x.base.surfaces.map SurfaceEntry.id).Nodup)

include laws delayLaws valid distinct

theorem leq_gamma_iff (y : SessionImage F) :
    x.leq (gamma y) = true ↔ x.base.canonicalBytes = y.canonicalBytes ∧ x.SinglePath := by
  have bases : x.baseEq (gamma y) = true ↔ x.base.canonicalBytes = y.canonicalBytes :=
    decide_eq_true_iff
  by_cases same : x.base.canonicalBytes = y.canonicalBytes
  · have surfaces : x.base.surfaces = y.surfaces :=
      ((canonicalBytes_eq_iff_content laws).mp same).2.2.1
    have size : x.coefficients.length = (gamma (D := D) y).coefficients.length := by
      rw [gamma, List.length_map, ← surfaces]
      exact (SessionImageV1.validate_eq_ok.mp valid).1
    have met : ∀ sc ∈ x.coefficients,
        ((gamma (D := D) y).coefficientFor sc.surfaceRef).any (fun o => sc.coefficient.leq o) =
          sc.coefficient.leq .top := by
      intro sc member
      have named := (SessionImageV1.surfaceRefs_perm valid distinct).mem_iff.mp
        (List.mem_map_of_mem member)
      rw [surfaces] at named
      rw [coefficientFor_gamma y named, Option.any_some]
    unfold SessionImageV1.leq
    rw [bases.mpr same, size]
    simp only [Bool.not_true, Bool.false_eq_true, ↓reduceIte, beq_self_eq_true, Bool.and_true,
      List.all_eq_true, same, true_and]
    refine forall₂_congr fun sc member => ?_
    rw [met sc member, Coefficient.leq_top_iff delayLaws]
  · have apart : x.baseEq (gamma y) = false :=
      Bool.eq_false_iff.mpr fun equal => same (bases.mp equal)
    unfold SessionImageV1.leq
    rw [apart]
    simp [same]

/-- The adjointness law holds for the images whose coefficients all have one
delay path; for any other it fails at every image of the same base content. -/
theorem adjoint_iff :
    (∀ y : SessionImage F,
      ((alpha x).canonicalBytes = y.canonicalBytes ↔ x.leq (gamma y) = true) ↔
        ((alpha x).canonicalBytes ≠ y.canonicalBytes ∨ x.SinglePath)) ∧
      ((∀ y : SessionImage F,
        (alpha x).canonicalBytes = y.canonicalBytes ↔ x.leq (gamma y) = true) ↔
          x.SinglePath) ∧
      (x.leq (gamma (alpha x)) = true ↔ x.SinglePath) := by
  have below := leq_gamma_iff laws delayLaws valid distinct
  have forget : alpha x = x.base := rfl
  have pointwise : ∀ y : SessionImage F,
      ((alpha x).canonicalBytes = y.canonicalBytes ↔ x.leq (gamma y) = true) ↔
        ((alpha x).canonicalBytes ≠ y.canonicalBytes ∨ x.SinglePath) := by
    intro y
    rw [below y, forget]
    by_cases same : x.base.canonicalBytes = y.canonicalBytes
    · simp only [same, true_and, true_iff, ne_eq, not_true_eq_false, false_or]
    · simp only [same, false_and, ne_eq, not_false_eq_true, true_or]
  have unit : x.leq (gamma (alpha x)) = true ↔ x.SinglePath := by
    rw [below (alpha x), forget]
    exact and_iff_right rfl
  refine ⟨pointwise, ⟨fun law => ?_, fun single y => (pointwise y).mpr (.inr single)⟩, unit⟩
  exact unit.mp ((law (alpha x)).mp rfl)

end

/-! ## An image of two delay paths -/

/-- A session of one surface whose timing is unbounded along each delay path. -/
def unboundedPaths (paths : Nat) : SessionImageV1 ℚ ℚ :=
  { base := tidySession
    coefficients :=
      [{ surfaceRef := surfaceIdFromSeed sha256Digest "mac:window:Safari".toList
         coefficient := { Coefficient.top (D := ℚ) with timing := List.replicate paths .unbounded } }] }

private theorem unboundedPaths_valid (paths : Nat) :
    (unboundedPaths paths).validate = .ok () ∧
      ((unboundedPaths paths).base.surfaces.map SurfaceEntry.id).Nodup := by
  refine ⟨SessionImageV1.validate_eq_ok.mpr ⟨rfl, ?_⟩, List.nodup_singleton _⟩
  intro surf member
  obtain rfl := List.mem_singleton.mp member
  exact List.count_singleton_self

theorem unboundedPaths_one_adjoint :
    (unboundedPaths 1).leq (gamma (alpha (unboundedPaths 1))) = true ∧
      ∀ y : SessionImage ℚ, (alpha (unboundedPaths 1)).canonicalBytes = y.canonicalBytes ↔
        (unboundedPaths 1).leq (gamma y) = true := by
  have single : (unboundedPaths 1).SinglePath := by
    intro sc member
    obtain rfl := List.mem_singleton.mp member
    rfl
  obtain ⟨_, law, unit⟩ := adjoint_iff ExactFloat.documented ExactFloat.documented
    (unboundedPaths_valid 1).1 (unboundedPaths_valid 1).2
  exact ⟨unit.mpr single, law.mpr single⟩

theorem unboundedPaths_two_not_adjoint :
    (unboundedPaths 2).validate = .ok () ∧
      ((unboundedPaths 2).base.surfaces.map SurfaceEntry.id).Nodup ∧
      (∀ sc ∈ (unboundedPaths 2).coefficients, sc.coefficient.timing ≠ [] ∧
        ∀ iv ∈ sc.coefficient.timing, iv.IsNumber) ∧
      ¬ ((alpha (unboundedPaths 2)).canonicalBytes = tidySession.canonicalBytes ↔
        (unboundedPaths 2).leq (gamma tidySession) = true) ∧
      ¬ (unboundedPaths 2).leq (gamma (alpha (unboundedPaths 2))) = true := by
  have valid := unboundedPaths_valid 2
  have notBelow : ¬ (unboundedPaths 2).leq (gamma tidySession) = true := by
    intro below
    have single := ((leq_gamma_iff ExactFloat.documented ExactFloat.documented valid.1 valid.2
      tidySession).mp below).2
    exact absurd (single _ (List.mem_singleton_self _)) (by decide)
  refine ⟨valid.1, valid.2, ?_, fun law => notBelow (law.mp rfl), notBelow⟩
  intro sc member
  obtain rfl := List.mem_singleton.mp member
  refine ⟨by simp [List.replicate_succ], fun iv inside => ?_⟩
  obtain rfl := List.eq_of_mem_replicate inside
  exact ⟨trivial, trivial⟩

end Simulboot
