import Simulboot.Galois.Order

/-!
# Carrying v0 sessions to v1

`gamma` puts one coefficient beside each surface, and `validate` counts the
coefficients of each id. The parser of v0 lets several surfaces share an id.
-/

set_option autoImplicit false

namespace Simulboot

open Library Library.Xml

variable {F D : Type} [Zero F] [RustFloat F] [Zero D] [RustFloat D]

omit [Zero D] [RustFloat D] in
/-- Sorting keeps the surfaces' ids, as often as they occur. -/
theorem SessionImage.normalForm_ids_perm (img : SessionImage F) (id : Option Str) :
    ((img.normalForm id).surfaces.map SurfaceEntry.id).Perm (img.surfaces.map SurfaceEntry.id) := by
  have sorted := (List.perm_insertionSort (fun a b : SurfaceEntry => a.order ≤ b.order)
    (img.surfaces.map SurfaceEntry.trimmed)).map SurfaceEntry.id
  rw [List.map_map] at sorted
  exact sorted

/-- The document is accepted as a v1 session, every coefficient at the top. -/
def AcceptedAtTop (xml : QuickXml) (sha256 : Sha256) (img : SessionImageV1 F D) : Prop :=
  ∃ back : SessionImageV1 F D,
    SessionImageV1.fromXml xml (img.toXml sha256) = .ok back ∧ back.coeffIsTop = true

section

variable {xml : QuickXml} (documented : Documented xml) (laws : RustFloat.Documented F)
  (readsNaN : RustFloat.ReadsNaN F) (delayLaws : RustFloat.Documented D) (sha256 : Sha256)

include documented laws readsNaN delayLaws

theorem acceptedAtTop_gamma {base : SessionImage F}
    (distinct : (base.surfaces.map SurfaceEntry.id).Nodup) :
    AcceptedAtTop xml sha256 (gamma (D := D) base) := by
  have wellFormed : (gamma (D := D) base).WellFormed := gamma_wellFormed distinct
  have timed : (gamma (D := D) base).Timed := by
    intro sc member
    refine ⟨?_, wellFormed.numbers sc member⟩
    obtain ⟨surf, _, rfl⟩ := List.mem_map.mp member
    exact List.cons_ne_nil _ _
  obtain ⟨pos, reads, _⟩ := laws.parse_displayUnsignedZero_total readsNaN base.layout.scrollPos
  obtain ⟨first, second⟩ := read_v1_at documented delayLaws laws sha256 timed reads
  let back : SessionImageV1 F D :=
    { base := { base.normalForm (some ((gamma (D := D) base).sessionId sha256)) with
                layout := { base.layout with scrollPos := pos } }
      coefficients := (gamma (D := D) base).relisted.map SurfaceCoefficient.dropZeroSign }
  have refs : back.coefficients.map SurfaceCoefficient.surfaceRef =
      base.surfaces.map SurfaceEntry.id := by
    have kept := SessionImageV1.relisted_refs wellFormed.valid
    rw [List.map_map]
    exact kept
  have sorted : (back.base.surfaces.map SurfaceEntry.id).Perm
      (base.surfaces.map SurfaceEntry.id) := base.normalForm_ids_perm none
  have valid : back.validate = .ok () := by
    have sizes := sorted.length_eq
    have listed := congrArg List.length refs
    simp only [List.length_map] at sizes listed
    rw [SessionImageV1.validate_eq_ok, refs]
    refine ⟨by rw [listed, sizes], fun surf inside => ?_⟩
    exact List.count_eq_one_of_mem distinct
      (sorted.mem_iff.mp (List.mem_map_of_mem inside))
  refine ⟨back, ?_, List.all_eq_true.mpr fun sc member => ?_⟩
  · unfold SessionImageV1.fromXml
    rw [first]
    simp only [bind, Except.bind, second]
    exact (congrArg (fun result => result.bind fun _ => Except.ok back) valid)
  · obtain ⟨written, listed, rfl⟩ := List.mem_map.mp member
    change written.coefficient.dropZeroSign.isTop = true
    rw [relisted_gamma listed]
    rfl

/-- A v0 session is carried to v1 exactly where no two of its surfaces share an id. -/
theorem carried_iff {text : Str} {img : SessionImage F}
    (_ : SessionImage.fromXml xml text = .ok img) :
    (gamma (D := D) img).validate = .ok () ∧ AcceptedAtTop xml sha256 (gamma (D := D) img) ↔
      (img.surfaces.map SurfaceEntry.id).Nodup := by
  rw [validate_gamma_iff]
  constructor
  · exact And.left
  · intro distinct
    exact ⟨distinct, acceptedAtTop_gamma documented laws readsNaN delayLaws sha256 distinct⟩

end

/-! ## A surface listed twice -/

theorem tidySession_carried :
    ∃ img : SessionImage ℚ,
      SessionImage.fromXml Scanner.quickXml (tidySession.toXml sha256Digest) = .ok img ∧
        ((gamma (D := ℚ) img).validate = .ok () ∧
            AcceptedAtTop Scanner.quickXml sha256Digest (gamma (D := ℚ) img) ↔
          (img.surfaces.map SurfaceEntry.id).Nodup) := by
  have read := fromXml_toXml Scanner.documented ExactFloat.documented sha256Digest tidySession rfl
  exact ⟨_, read, carried_iff Scanner.documented ExactFloat.documented ExactFloat.readsNaN
    ExactFloat.documented sha256Digest read⟩

def twinSession : SessionImage ℚ :=
  { tidySession with
    surfaces := tidySession.surfaces ++ tidySession.surfaces.map fun surf => { surf with order := 1 } }

theorem twinSession_not_carried :
    ∃ img : SessionImage ℚ,
      SessionImage.fromXml Scanner.quickXml (twinSession.toXml sha256Digest) = .ok img ∧
        (gamma (D := ℚ) img).validate ≠ .ok () := by
  refine ⟨_, fromXml_toXml Scanner.documented ExactFloat.documented sha256Digest twinSession rfl,
    fun valid => ?_⟩
  have distinct := (twinSession.normalForm_ids_perm _).nodup_iff.mp (validate_gamma_iff.mp valid)
  exact (List.nodup_cons.mp distinct).1 (List.mem_singleton_self _)

end Simulboot
