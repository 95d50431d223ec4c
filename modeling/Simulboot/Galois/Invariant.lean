import Mathlib.Data.List.Dedup
import Simulboot.Galois.RoundTrip

/-!
# The invariant behind `validate`

`validate` compares two lengths and counts the coefficients of each surface. That
every coefficient belongs to a surface is left to the arithmetic, which holds for
distinct surfaces and can fail for repeated ones.
-/

set_option autoImplicit false

namespace Simulboot

variable {F D : Type}

/-! ## References that are counted once -/

section

variable {τ : Type} [DecidableEq τ] {names refs : List τ}

private theorem once_perm_dedup (once : ∀ name ∈ names, refs.count name = 1) :
    (refs.filter fun ref => ref ∈ names).Perm names.dedup := by
  have single : (refs.filter fun ref => ref ∈ names).Nodup := by
    rw [List.nodup_iff_count_le_one]
    intro ref
    by_cases named : ref ∈ names
    · rw [List.count_filter (by simpa using named), once ref named]
    · have absent : ref ∉ refs.filter fun ref => ref ∈ names := by simp [named]
      rw [List.count_eq_zero_of_not_mem absent]
      exact Nat.zero_le 1
  rw [List.perm_ext_iff_of_nodup single (List.nodup_dedup names)]
  intro ref
  simp only [List.mem_filter, decide_eq_true_eq, List.mem_dedup, and_iff_right_iff_imp]
  intro named
  exact List.count_pos_iff.mp (by rw [once ref named]; exact Nat.one_pos)

private theorem length_of_once (once : ∀ name ∈ names, refs.count name = 1) :
    refs.length = names.dedup.length + refs.countP fun ref => ref ∉ names := by
  have named := (once_perm_dedup once).length_eq
  rw [← List.countP_eq_length_filter] at named
  rw [← named, List.length_eq_countP_add_countP fun ref => ref ∈ names]
  simp

private theorem length_dedup_eq_iff : names.dedup.length = names.length ↔ names.Nodup := by
  constructor
  · intro same
    rw [← (List.dedup_sublist names).eq_of_length same]
    exact List.nodup_dedup names
  · intro distinct
    rw [distinct.dedup]

end

/-! ## What `validate` decides -/

namespace SessionImageV1

variable (img : SessionImageV1 F D)

def surfaceIds : List SurfaceId :=
  img.base.surfaces.map SurfaceEntry.id

def surfaceRefs : List SurfaceId :=
  img.coefficients.map SurfaceCoefficient.surfaceRef

/-- One coefficient per surface, every reference resolving to a surface of the base. -/
def Invariant : Prop :=
  (∀ surf ∈ img.base.surfaces, img.surfaceRefs.count surf.id = 1) ∧
    ∀ sc ∈ img.coefficients, ∃ surf ∈ img.base.surfaces, surf.id = sc.surfaceRef

/-- `validate` accepts just the images of the invariant, and no image that holds a
coefficient the writer leaves out: what it writes are the relisted ones. -/
def DecidesInvariant : Prop :=
  (img.validate = .ok () ↔ img.Invariant) ∧
    (img.validate = .ok () → ∀ sc ∈ img.coefficients, sc ∈ img.relisted)

/-- Coefficients of no surface. -/
def strayRefs : Nat :=
  img.surfaceRefs.countP fun ref => ref ∉ img.surfaceIds

/-- Surfaces whose id another surface has already. -/
def repeatedIds : Nat :=
  img.surfaceIds.length - img.surfaceIds.dedup.length

variable {img}

private theorem strayRefs_eq_zero :
    img.strayRefs = 0 ↔ ∀ sc ∈ img.coefficients, ∃ surf ∈ img.base.surfaces,
      surf.id = sc.surfaceRef := by
  unfold strayRefs surfaceRefs surfaceIds
  rw [List.countP_eq_zero]
  simp

private theorem repeatedIds_eq_zero : img.repeatedIds = 0 ↔ img.surfaceIds.Nodup := by
  have bound := (List.dedup_sublist img.surfaceIds).length_le
  rw [← length_dedup_eq_iff]
  unfold repeatedIds
  omega

private theorem surfaceIds_once (once : ∀ surf ∈ img.base.surfaces, img.surfaceRefs.count surf.id = 1) :
    ∀ id ∈ img.surfaceIds, img.surfaceRefs.count id = 1 := by
  intro id member
  obtain ⟨surf, inside, rfl⟩ := List.mem_map.mp member
  exact once surf inside

/-- Where every surface is counted once, the lengths agree just when the strays
make up for the repeated ids. -/
theorem validate_iff_strayRefs
    (once : ∀ surf ∈ img.base.surfaces, img.surfaceRefs.count surf.id = 1) :
    img.validate = .ok () ↔ img.strayRefs = img.repeatedIds := by
  have counted := length_of_once (surfaceIds_once once)
  have bound := (List.dedup_sublist img.surfaceIds).length_le
  have refs : img.surfaceRefs.length = img.coefficients.length := List.length_map ..
  have ids : img.surfaceIds.length = img.base.surfaces.length := List.length_map ..
  rw [validate_eq_ok, and_iff_left (by exact once)]
  unfold strayRefs repeatedIds
  omega

private theorem mem_relisted_of_once {sc : SurfaceCoefficient D} (member : sc ∈ img.coefficients)
    {surf : SurfaceEntry} (inside : surf ∈ img.base.surfaces) (named : surf.id = sc.surfaceRef)
    (once : img.surfaceRefs.count surf.id = 1) : sc ∈ img.relisted := by
  have present : (img.coefficients.find? fun c => c.surfaceRef = surf.id).isSome = true := by
    rw [List.find?_isSome]
    exact ⟨sc, member, decide_eq_true named.symm⟩
  obtain ⟨first, found⟩ := Option.isSome_iff_exists.mp present
  have firstNamed : first.surfaceRef = surf.id := by simpa using List.find?_some found
  have single : (img.coefficients.filter fun c => c.surfaceRef = surf.id).length = 1 := by
    rw [← once]
    unfold surfaceRefs
    rw [List.count, List.countP_map, List.countP_eq_length_filter]
    rfl
  obtain ⟨only, alone⟩ := List.length_eq_one_iff.mp single
  have here : sc = only := by
    rw [← List.mem_singleton, ← alone]
    exact List.mem_filter.mpr ⟨member, decide_eq_true named.symm⟩
  have there : first = only := by
    rw [← List.mem_singleton, ← alone]
    exact List.mem_filter.mpr ⟨List.mem_of_find?_eq_some found, decide_eq_true firstNamed⟩
  refine List.mem_flatMap.mpr ⟨surf, inside, ?_⟩
  rw [found, here, there]
  exact List.mem_singleton_self only

/-- Repeated ids are what `validate` cannot see through: with them it refuses an
image of the invariant, or accepts one with as many strays. -/
theorem decidesInvariant_iff (img : SessionImageV1 F D) :
    img.DecidesInvariant ↔
      img.surfaceIds.Nodup ∨
        (∃ surf ∈ img.base.surfaces, img.surfaceRefs.count surf.id ≠ 1) ∨
        (img.strayRefs ≠ 0 ∧ img.strayRefs ≠ img.repeatedIds) := by
  by_cases once : ∀ surf ∈ img.base.surfaces, img.surfaceRefs.count surf.id = 1
  · have never : ¬ ∃ surf ∈ img.base.surfaces, img.surfaceRefs.count surf.id ≠ 1 := by
      simpa using once
    have invariant : img.Invariant ↔ img.strayRefs = 0 := by
      rw [strayRefs_eq_zero]
      exact and_iff_right once
    have kept : img.strayRefs = 0 → ∀ sc ∈ img.coefficients, sc ∈ img.relisted := by
      intro resolved sc member
      obtain ⟨surf, inside, named⟩ := strayRefs_eq_zero.mp resolved sc member
      exact mem_relisted_of_once member inside named (once surf inside)
    unfold DecidesInvariant
    rw [or_iff_right never, invariant, validate_iff_strayRefs once, ← repeatedIds_eq_zero]
    constructor
    · intro ⟨decides, _⟩
      omega
    · intro condition
      exact ⟨by omega, fun accepted => kept (by omega)⟩
  · have some : ∃ surf ∈ img.base.surfaces, img.surfaceRefs.count surf.id ≠ 1 := by
      simpa using once
    have refused : img.validate ≠ .ok () := fun accepted => once (validate_eq_ok.mp accepted).2
    have violated : ¬ img.Invariant := fun invariant => once invariant.1
    exact iff_of_true ⟨iff_of_false refused violated, fun accepted => absurd accepted refused⟩
      (.inr (.inl some))

end SessionImageV1

/-! ## Two surfaces of one id -/

/-- A session that lists a surface twice, with one coefficient for it and one for a
surface that the session does not have. -/
def strayCoefficient : SessionImageV1 ℚ ℚ :=
  { base :=
      { tidySession with
        surfaces := [0, 1].flatMap fun order =>
          tidySession.surfaces.map fun surf => { surf with id := numberedId 7, order } }
    coefficients :=
      [{ surfaceRef := numberedId 7, coefficient := .top },
        { surfaceRef := numberedId 8
          coefficient := { Coefficient.top (D := ℚ) with confidentiality := .secret } }] }

theorem strayCoefficient_accepted :
    strayCoefficient.validate = .ok () ∧ ¬ strayCoefficient.Invariant ∧
      ∃ sc ∈ strayCoefficient.coefficients, sc ∉ strayCoefficient.relisted := by
  have surfaces : ∀ surf ∈ strayCoefficient.base.surfaces, surf.id = numberedId 7 := by
    intro surf member
    obtain ⟨order, _, copied⟩ := List.mem_flatMap.mp member
    obtain ⟨_, _, rfl⟩ := List.mem_map.mp copied
    rfl
  have absent : numberedId 8 ≠ numberedId 7 := by decide
  have accepted : strayCoefficient.validate = .ok () := by
    refine SessionImageV1.validate_eq_ok.mpr ⟨rfl, fun surf member => ?_⟩
    rw [surfaces surf member]
    decide
  have stray : ¬ ∃ surf ∈ strayCoefficient.base.surfaces, surf.id = numberedId 8 := by
    intro ⟨surf, member, named⟩
    exact absent (named.symm.trans (surfaces surf member))
  refine ⟨accepted, fun invariant => stray (invariant.2 _ (.tail _ (.head _))),
    _, .tail _ (.head _), fun listed => ?_⟩
  have refs := SessionImageV1.relisted_refs accepted
  have named := List.mem_map_of_mem (f := SurfaceCoefficient.surfaceRef) listed
  rw [refs] at named
  exact stray (List.mem_map.mp named)

end Simulboot
