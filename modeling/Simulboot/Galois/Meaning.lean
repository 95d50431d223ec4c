import Simulboot.Coefficients.Meaning
import Simulboot.Galois.Embedding

/-!
# What a v1 image admits

An image stands for the session of its base together with the uses that it admits
of each surface. The order of images is inclusion of what they stand for, and
images that stand for the same are written alike.
-/

set_option autoImplicit false

namespace Simulboot

open Library Library.Xml

variable {F D : Type} [Zero F] [RustFloat F] [Zero D] [RustFloat D]

section

variable (laws : RustFloat.Documented D)

include laws

private theorem Bound.IsNumber.dropZeroSign {b : Bound D} (number : b.IsNumber) :
    b.dropZeroSign.IsNumber := by
  cases b with
  | negInf => trivial
  | posInf => trivial
  | finite v => exact (laws.isNaN_dropZeroSign v).trans number

private theorem Interval.IsNumber.dropZeroSign {iv : Interval D} (number : iv.IsNumber) :
    iv.dropZeroSign.IsNumber :=
  ⟨number.1.dropZeroSign laws, number.2.dropZeroSign laws⟩

private theorem Coefficient.Numbers.dropZeroSign {c : Coefficient D} (numbers : c.Numbers) :
    c.dropZeroSign.Numbers := by
  intro iv inside
  obtain ⟨source, member, rfl⟩ := List.mem_map.mp inside
  exact (numbers source member).dropZeroSign laws

variable (order : RustFloat.Ordered D)

include order

private theorem Coefficient.uses_dropZeroSign {c : Coefficient D} (numbers : c.Numbers) :
    c.dropZeroSign.uses = c.uses := by
  ext use
  refine and_congr_left fun _ => ?_
  change List.Forall₂ _ use.delays (c.timing.map Interval.dropZeroSign) ↔ _
  rw [List.forall₂_map_right_iff]
  refine Pointwise.congr_right numbers fun delay iv number => ?_
  rw [Interval.delays_dropZeroSign laws order number]

end

namespace SessionImageV1

section

omit [Zero F] [RustFloat F]

def uses (img : SessionImageV1 F D) (id : SurfaceId) : Set (Use D) :=
  {use | ∃ coeff, img.coefficientFor id = some coeff ∧ use ∈ coeff.uses}

def Proper (img : SessionImageV1 F D) : Prop :=
  ∀ sc ∈ img.coefficients, sc.coefficient.Proper

namespace WellFormed

variable {img : SessionImageV1 F D} (wellFormed : img.WellFormed)

include wellFormed

private theorem mem_uses {id : SurfaceId} {use : Use D} :
    use ∈ img.uses id ↔ ∃ sc ∈ img.coefficients, sc.surfaceRef = id ∧ use ∈ sc.coefficient.uses := by
  constructor
  · intro ⟨coeff, found, admitted⟩
    obtain ⟨sc, member, named, rfl⟩ := wellFormed.coefficientFor_eq_some.mp found
    exact ⟨sc, wellFormed.mem_relisted.mp member, named, admitted⟩
  · intro ⟨sc, member, named, admitted⟩
    have listed := wellFormed.mem_relisted.mpr member
    exact ⟨_, wellFormed.coefficientFor_eq_some.mpr ⟨sc, listed, named, rfl⟩, admitted⟩

private theorem uses_eq {sc : SurfaceCoefficient D} (member : sc ∈ img.relisted) :
    img.uses sc.surfaceRef = sc.coefficient.uses := by
  have found := wellFormed.coefficientFor_eq_some.mpr ⟨sc, member, rfl, rfl⟩
  ext use
  constructor
  · intro ⟨coeff, other, admitted⟩
    obtain rfl := Option.some.inj (found.symm.trans other)
    exact admitted
  · intro admitted
    exact ⟨_, found, admitted⟩

end WellFormed

end

section

variable (laws : RustFloat.Documented F) (delayLaws : RustFloat.Documented D)
  (order : RustFloat.Ordered D)

include laws delayLaws order

private theorem uses_subset {x y : SessionImageV1 F D} (left : x.WellFormed) (right : y.WellFormed)
    (below : x.leq y = true) (id : SurfaceId) : x.uses id ⊆ y.uses id := by
  obtain ⟨bases, related⟩ := (leq_iff laws left right).mp below
  have keys := relisted_keys laws left right bases
  intro use admitted
  obtain ⟨sc, inside, rfl, allowed⟩ := left.mem_uses.mp admitted
  obtain ⟨other, listed, same, leq⟩ := (Pointwise.forall_exists_iff keys left.relisted_nodup).mpr
    related sc (left.mem_relisted.mpr inside)
  rw [← same, right.uses_eq listed]
  exact Coefficient.uses_subset delayLaws order leq allowed

private theorem leq_of_uses_subset {x y : SessionImageV1 F D} (left : x.WellFormed) (right : y.WellFormed)
    (proper : x.Proper) (bases : x.base.canonicalBytes = y.base.canonicalBytes)
    (inside : ∀ id, x.uses id ⊆ y.uses id) : x.leq y = true := by
  have keys := relisted_keys laws left right bases
  refine (leq_iff laws left right).mpr ⟨bases, ?_⟩
  rw [← Pointwise.forall_exists_iff keys left.relisted_nodup]
  intro sc member
  have present : sc.surfaceRef ∈ y.relisted.map SurfaceCoefficient.surfaceRef := by
    rw [← keys]
    exact List.mem_map_of_mem member
  obtain ⟨other, listed, same⟩ := List.mem_map.mp present
  refine ⟨other, listed, same, ?_⟩
  rw [← Coefficient.uses_subset_iff delayLaws order (proper sc (mem_of_mem_relisted member)),
    ← left.uses_eq member, ← right.uses_eq listed, same]
  exact inside _

/-- The order is inclusion of what images admit, and the canonical form is fully
abstract: it shows the base and what is admitted, and nothing else. -/
theorem meaning_decided {x y : SessionImageV1 F D} (left : x.WellFormed) (right : y.WellFormed) :
    (x.leq y = true →
        x.base.canonicalBytes = y.base.canonicalBytes ∧ ∀ id, x.uses id ⊆ y.uses id) ∧
      (x.Proper → x.base.canonicalBytes = y.base.canonicalBytes →
        (∀ id, x.uses id ⊆ y.uses id) → x.leq y = true) ∧
      (x.Proper → y.Proper →
        (x.canonicalBytes = y.canonicalBytes ↔
          x.base.canonicalBytes = y.base.canonicalBytes ∧ x.uses = y.uses)) := by
  refine ⟨fun below => ⟨((leq_iff laws left right).mp below).1,
    uses_subset laws delayLaws order left right below⟩,
    leq_of_uses_subset laws delayLaws order left right, fun leftProper rightProper => ?_⟩
  rw [← leq_antisymm_iff laws delayLaws order left right]
  constructor
  · intro ⟨below, above⟩
    refine ⟨((leq_iff laws left right).mp below).1, funext fun id => ?_⟩
    exact (uses_subset laws delayLaws order left right below id).antisymm
      (uses_subset laws delayLaws order right left above id)
  · intro ⟨bases, same⟩
    exact ⟨leq_of_uses_subset laws delayLaws order left right leftProper bases fun id => by rw [same],
      leq_of_uses_subset laws delayLaws order right left rightProper bases.symm fun id => by rw [same]⟩

end

end SessionImageV1

/-! ## Writing and reading -/

section

omit [Zero F] [RustFloat F]

private theorem mem_uses_gamma (laws : RustFloat.Documented D) {base : SessionImage F} {id : SurfaceId}
    {use : Use D} :
    use ∈ (gamma (D := D) base).uses id ↔ id ∈ base.surfaces.map SurfaceEntry.id ∧
      ∃ delay : Bound D, use.delays = [delay] ∧ delay.IsNumber := by
  constructor
  · intro ⟨coeff, found, admitted⟩
    obtain ⟨sc, first, rfl⟩ := Option.map_eq_some_iff.mp found
    obtain ⟨surf, inside, rfl⟩ := List.mem_map.mp (List.mem_of_find?_eq_some first)
    obtain rfl : surf.id = id := by simpa using List.find?_some first
    exact ⟨List.mem_map_of_mem inside, (Coefficient.mem_uses_top laws).mp admitted⟩
  · intro ⟨named, single⟩
    exact ⟨.top, coefficientFor_gamma base named, (Coefficient.mem_uses_top laws).mpr single⟩

end

section

variable {xml : QuickXml} (documented : Documented xml) (laws : RustFloat.Documented F)
  (readsNaN : RustFloat.ReadsNaN F) (delayLaws : RustFloat.Documented D)

include documented laws readsNaN delayLaws

/-- Both parsers accept a written image, whatever its scroll position is read as. -/
theorem SessionImageV1.exists_read_back (sha256 : Sha256) {x : SessionImageV1 F D}
    (wellFormed : x.WellFormed) (paths : ∀ sc ∈ x.coefficients, sc.coefficient.timing ≠ []) :
    ∃ back : SessionImageV1 F D,
      fromXml xml (x.toXml sha256) = .ok back ∧
        SessionImage.fromXml xml (x.toXml sha256) = .ok back.base ∧
        back.base.id = some (x.sessionId sha256) ∧
        (back.base.surfaces.map SurfaceEntry.id).Perm (x.base.surfaces.map SurfaceEntry.id) ∧
        back.validate = .ok () ∧
        back.coefficients = x.relisted.map SurfaceCoefficient.dropZeroSign := by
  have timed : x.Timed := fun sc member => ⟨paths sc member, wellFormed.numbers sc member⟩
  obtain ⟨pos, reads, _⟩ := laws.parse_displayUnsignedZero_total readsNaN x.base.layout.scrollPos
  obtain ⟨first, second⟩ := read_v1_at documented delayLaws laws sha256 timed reads
  let back : SessionImageV1 F D :=
    { base := { x.base.normalForm (some (x.sessionId sha256)) with
                layout := { x.base.layout with scrollPos := pos } }
      coefficients := x.relisted.map SurfaceCoefficient.dropZeroSign }
  have refs : back.coefficients.map SurfaceCoefficient.surfaceRef =
      x.base.surfaces.map SurfaceEntry.id := by
    rw [← relisted_refs wellFormed.valid, List.map_map]
    rfl
  have sorted : (back.base.surfaces.map SurfaceEntry.id).Perm (x.base.surfaces.map SurfaceEntry.id) :=
    x.base.normalForm_ids_perm none
  have valid : back.validate = .ok () := by
    rw [validate_eq_ok, refs]
    refine ⟨?_, fun surf inside => List.count_eq_one_of_mem wellFormed.distinct
      (sorted.mem_iff.mp (List.mem_map_of_mem inside))⟩
    have sizes := sorted.length_eq
    rw [← refs, List.length_map, List.length_map] at sizes
    exact sizes.symm
  refine ⟨back, ?_, first, rfl, sorted, valid, rfl⟩
  unfold fromXml
  rw [first]
  simp only [bind, Except.bind, second]
  exact (congrArg (fun result => result.bind fun _ => Except.ok back) valid)

variable (order : RustFloat.Ordered D) (sha256 : Sha256)

include order

/-- A v1 reader finds every surface with the uses it was written with. A v0 reader
finds the same session, and what it hands on admits every use with one delay. -/
theorem meaning_carried {x : SessionImageV1 F D} (wellFormed : x.WellFormed)
    (paths : ∀ sc ∈ x.coefficients, sc.coefficient.timing ≠ []) :
    ∃ back : SessionImageV1 F D,
      SessionImageV1.fromXml xml (x.toXml sha256) = .ok back ∧
        SessionImage.fromXml xml (x.toXml sha256) = .ok back.base ∧
        back.base.id = some (x.sessionId sha256) ∧ back.uses = x.uses ∧
        ∀ id use, use ∈ (gamma (D := D) back.base).uses id ↔
          id ∈ x.base.surfaces.map SurfaceEntry.id ∧
            ∃ delay : Bound D, use.delays = [delay] ∧ delay.IsNumber := by
  obtain ⟨back, read, base, id, sorted, valid, listed⟩ := SessionImageV1.exists_read_back documented
    laws readsNaN delayLaws sha256 wellFormed paths
  have numbers : ∀ sc ∈ x.relisted, sc.coefficient.Numbers := fun sc member =>
    wellFormed.numbers sc (SessionImageV1.mem_of_mem_relisted member)
  have wellRead : back.WellFormed := by
    refine ⟨valid, sorted.nodup_iff.mpr wellFormed.distinct, fun sc member => ?_⟩
    rw [listed] at member
    obtain ⟨written, inside, rfl⟩ := List.mem_map.mp member
    exact (numbers written inside).dropZeroSign delayLaws
  have same : ∀ sc ∈ x.relisted, sc.dropZeroSign.coefficient.uses = sc.coefficient.uses :=
    fun sc member => Coefficient.uses_dropZeroSign delayLaws order (numbers sc member)
  have kept : back.uses = x.uses := by
    ext id use
    rw [wellRead.mem_uses, wellFormed.mem_uses, listed]
    constructor
    · intro ⟨sc, member, named, admitted⟩
      obtain ⟨written, inside, rfl⟩ := List.mem_map.mp member
      rw [same written inside] at admitted
      exact ⟨written, wellFormed.mem_relisted.mp inside, named, admitted⟩
    · intro ⟨sc, member, named, admitted⟩
      have inside := wellFormed.mem_relisted.mpr member
      rw [← same sc inside] at admitted
      exact ⟨_, List.mem_map_of_mem inside, named, admitted⟩
  refine ⟨back, read, base, id, kept, fun id use => ?_⟩
  rw [mem_uses_gamma delayLaws, sorted.mem_iff]

end

/-! ## A secret session of two paths -/

private theorem labelledPaths_proper (paths : Nat) (confidentiality : Confidentiality) :
    (labelledPaths paths confidentiality).Proper := by
  intro sc member iv inside
  obtain rfl := List.mem_singleton.mp member
  obtain rfl := List.eq_of_mem_replicate inside
  exact ⟨⟨trivial, trivial⟩, rfl⟩

theorem labelledPaths_meaning :
    (∀ id, (labelledPaths 2 .secret).uses id ⊆ (labelledPaths 2 .public).uses id) ∧
      (labelledPaths 2 .secret).leq (labelledPaths 2 .public) = true ∧
      ((labelledPaths 2 .secret).canonicalBytes = (labelledPaths 2 .public).canonicalBytes ↔
        (labelledPaths 2 .secret).base.canonicalBytes =
            (labelledPaths 2 .public).base.canonicalBytes ∧
          (labelledPaths 2 .secret).uses = (labelledPaths 2 .public).uses) := by
  obtain ⟨sound, complete, abstracts⟩ := SessionImageV1.meaning_decided ExactFloat.documented
    ExactFloat.documented ExactFloat.ordered (labelledPaths_wellFormed 2 .secret)
    (labelledPaths_wellFormed 2 .public)
  have proper := labelledPaths_proper 2
  obtain ⟨bases, inside⟩ := sound (labelledPaths_leq 2 (by decide))
  exact ⟨inside, complete (proper .secret) bases inside, abstracts (proper .secret) (proper .public)⟩

theorem labelledPaths_meaning_carried :
    ∃ back : SessionImageV1 ℚ ℚ,
      SessionImageV1.fromXml Scanner.quickXml ((labelledPaths 2 .secret).toXml sha256Digest) =
          .ok back ∧
        SessionImage.fromXml Scanner.quickXml ((labelledPaths 2 .secret).toXml sha256Digest) =
          .ok back.base ∧
        back.base.id = some ((labelledPaths 2 .secret).sessionId sha256Digest) ∧
        back.uses = (labelledPaths 2 .secret).uses ∧
        ∀ id use, use ∈ (gamma (D := ℚ) back.base).uses id ↔
          id ∈ (labelledPaths 2 .secret).base.surfaces.map SurfaceEntry.id ∧
            ∃ delay : Bound ℚ, use.delays = [delay] ∧ delay.IsNumber := by
  refine meaning_carried Scanner.documented ExactFloat.documented ExactFloat.readsNaN
    ExactFloat.documented ExactFloat.ordered sha256Digest (labelledPaths_wellFormed 2 .secret) ?_
  intro sc member
  obtain rfl := List.mem_singleton.mp member
  exact List.cons_ne_nil _ _

end Simulboot
