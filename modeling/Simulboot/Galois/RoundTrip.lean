import Simulboot.Galois.Connection
import Simulboot.Galois.Document

/-!
# Parsing a v1 document

Two passes read it. The first is not disturbed by the coefficient block, the
second not by the base, and together they give back what was written.
-/

set_option autoImplicit false

namespace Simulboot

open Library Library.Xml

variable {F D : Type} [Zero F] [RustFloat F] [Zero D] [RustFloat D]

/-! ## What comes back -/

omit [Zero F] [RustFloat F] in
/-- The coefficient as it is read back, its endpoints without the sign of a zero. -/
def Coefficient.dropZeroSign (coeff : Coefficient D) : Coefficient D :=
  { coeff with timing := coeff.timing.map Interval.dropZeroSign }

/-- Every coefficient can be written and read: some delay path, and no NaN. -/
def SessionImageV1.Timed (img : SessionImageV1 F D) : Prop :=
  ∀ sc ∈ img.coefficients, sc.coefficient.timing ≠ [] ∧
    ∀ iv ∈ sc.coefficient.timing, iv.IsNumber

namespace CoeffState

variable {xml : QuickXml}

/-- The state inside the block, between two surfaces. -/
def between (out : List (SurfaceCoefficient D)) : CoeffState D :=
  { out, inCoeffs := true, cur := none }

/-! ## The base is passed over -/

/-- A name that the second pass does not react to. -/
def UnknownName (name : Str) : Prop :=
  CoeffElement.ofName (localName name) = .unknown

private theorem step_unknown (state : CoeffState D) {event : Event} (unknown : event.Named UnknownName) :
    step xml state event = .ok state := by
  cases event with
  | start e | empty e =>
      simp only [Event.Named, UnknownName] at unknown
      simp only [step, openElement, unknown]
  | close name =>
      simp only [Event.Named, UnknownName] at unknown
      simp only [step, closeElement, unknown]
  | text raw | other => rfl

private theorem run_unknown (state : CoeffState D) {events : List Event}
    (unknown : AllNamed UnknownName events) : events.foldlM (step xml) state = .ok state :=
  Run.fixed fun event member => step_unknown state (unknown event member)

private theorem baseNames_unknown : ∀ name ∈ baseNames, UnknownName name := by
  unfold UnknownName
  decide

/-! ## The block is read -/

section

variable (documented : Documented xml)

include documented

private theorem attr_plain {name value : Str} (key : Str) {attributes : List (Str × Str)}
    (found : attributes.find? (fun pair => localName pair.1 = key) = some (key, value))
    (plain : '&' ∉ value) : attr xml (plainStart name attributes) key = .ok value :=
  (attrStr_plain found).trans (unescape_plain documented plain)

private theorem step_delayPath (delayLaws : RustFloat.Documented D) {iv : Interval D}
    (number : iv.IsNumber) (out : List (SurfaceCoefficient D)) (b : CoeffBuilder D) :
    step xml { between out with cur := some b } (delayPathEvent iv) =
      .ok { between out with cur := some { b with timing := b.timing ++ [iv.dropZeroSign] } } := by
  have bound : ∀ {key : Str} {endpoint : Bound D}, endpoint.IsNumber →
      attr xml (plainStart (coeffName "delay-path".toList)
        [("hi".toList, iv.hi.toStr), ("lo".toList, iv.lo.toStr)]) key = .ok endpoint.toStr →
      attrBound xml (plainStart (coeffName "delay-path".toList)
        [("hi".toList, iv.hi.toStr), ("lo".toList, iv.lo.toStr)]) key =
          .ok endpoint.dropZeroSign := by
    intro key endpoint isNumber read
    unfold attrBound
    simp only [read, Bound.parse_toStr delayLaws isNumber, bind, Except.bind]
  have lo := bound number.1 (attr_plain documented "lo".toList rfl
    (Bound.toStr_delimiters delayLaws iv.lo).2.2)
  have hi := bound number.2 (attr_plain documented "hi".toList rfl
    (Bound.toStr_delimiters delayLaws iv.hi).2.2)
  have element : ∀ attributes, CoeffElement.ofName
      (localName (plainStart (coeffName "delay-path".toList) attributes).name) = .delayPath :=
    fun _ => rfl
  simp only [delayPathEvent, step, openElement, element, between, current, lo, hi, bind,
    Except.bind, pure, Except.pure, Interval.dropZeroSign]

private theorem run_timing (delayLaws : RustFloat.Documented D) {timing : List (Interval D)}
    (numbers : ∀ iv ∈ timing, iv.IsNumber) (out : List (SurfaceCoefficient D))
    (b : CoeffBuilder D) (empty : b.timing = []) :
    (timingEvents timing).foldlM (step xml) { between out with cur := some b } =
      .ok { between out with
        cur := some { b with timing := timing.map Interval.dropZeroSign } } := by
  have unknown : UnknownName (coeffName "timing".toList) := by
    unfold UnknownName
    decide
  have paths : ∀ (added : List (Interval D)), (∀ iv ∈ added, iv.IsNumber) →
      ∀ b : CoeffBuilder D, (added.flatMap fun iv => [delayPathEvent iv]).foldlM (step xml)
        { between out with cur := some b } =
      .ok { between out with
        cur := some { b with timing := b.timing ++ added.map Interval.dropZeroSign } } := by
    intro added
    induction added with
    | nil =>
        intro _ b
        rw [List.map_nil, List.append_nil]
        rfl
    | cons iv rest ih =>
        intro numbers b
        have later := ih (fun other member => numbers other (by simp [member]))
          { b with timing := b.timing ++ [iv.dropZeroSign] }
        rw [List.append_assoc] at later
        exact Run.cons (step_delayPath documented delayLaws (numbers iv (by simp)) out b) later
  have read := paths timing numbers b
  rw [empty, List.nil_append] at read
  exact Run.append (Run.cons (step_unknown _ unknown) read) (Run.single (step_unknown _ unknown))

private theorem run_surfaceCoefficient (delayLaws : RustFloat.Documented D) (id : SurfaceId)
    {coeff : Coefficient D} (timed : coeff.timing ≠ []) (numbers : ∀ iv ∈ coeff.timing, iv.IsNumber)
    (out : List (SurfaceCoefficient D)) :
    (surfaceCoefficientEvents id coeff).foldlM (step xml) (between out) =
      .ok (between (out ++ [{ surfaceRef := id, coefficient := coeff.dropZeroSign }])) := by
  let named : CoeffBuilder D := .new id
  let onTiming := { named with timing := coeff.timing.map Interval.dropZeroSign }
  let secured := { onTiming with
    confidentiality := some coeff.confidentiality, integrity := some coeff.integrity }
  let counted := { secured with linearity := some coeff.linearity }
  have opened : step xml (between out) (.start (surfaceCoefficientStart id)) =
      .ok { between out with cur := some named } := by
    have ref : attr xml (surfaceCoefficientStart id) "surface-ref".toList =
        .ok (surfaceIdToStr id) :=
      attr_plain documented _ rfl (surfaceIdToStr_delimiters id).2.2
    have element : CoeffElement.ofName (localName (surfaceCoefficientStart id).name) =
        .surfaceCoefficient := rfl
    simp only [step, openElement, element, between, ref, parseSurfaceId_surfaceIdToStr, bind,
      Except.bind, pure, Except.pure, named]
  have timing := run_timing documented delayLaws numbers out named rfl
  have security : step xml { between out with cur := some onTiming } (securityEvent coeff) =
      .ok { between out with cur := some secured } := by
    have confidentiality : attr xml (plainStart (coeffName "security".toList)
        [("confidentiality".toList, coeff.confidentiality.toStr),
          ("integrity".toList, coeff.integrity.toStr)]) "confidentiality".toList =
        .ok coeff.confidentiality.toStr :=
      attr_plain documented _ rfl (Confidentiality.toStr_delimiters _).2.2
    have integrity : attr xml (plainStart (coeffName "security".toList)
        [("confidentiality".toList, coeff.confidentiality.toStr),
          ("integrity".toList, coeff.integrity.toStr)]) "integrity".toList =
        .ok coeff.integrity.toStr :=
      attr_plain documented _ rfl (Integrity.toStr_delimiters _).2.2
    have element : ∀ attributes, CoeffElement.ofName
        (localName (plainStart (coeffName "security".toList) attributes).name) = .security :=
      fun _ => rfl
    simp only [securityEvent, step, openElement, element, between, current, attrEnum,
      confidentiality, integrity, Confidentiality.parse_toStr, Integrity.parse_toStr, bind,
      Except.bind, pure, Except.pure, secured]
  have linearity : step xml { between out with cur := some secured } (linearityEvent coeff) =
      .ok { between out with cur := some counted } := by
    have count : attr xml (plainStart (coeffName "linearity".toList)
        [("count".toList, coeff.linearity.toStr)]) "count".toList = .ok coeff.linearity.toStr :=
      attr_plain documented _ rfl (Linearity.toStr_delimiters _).2.2
    have element : ∀ attributes, CoeffElement.ofName
        (localName (plainStart (coeffName "linearity".toList) attributes).name) = .linearity :=
      fun _ => rfl
    simp only [linearityEvent, step, openElement, element, between, current, attrCount, count,
      Linearity.parse_toStr, bind, Except.bind, pure, Except.pure, counted]
  have closed : step xml { between out with cur := some counted }
      (.close (coeffName "surface-coefficient".toList)) =
        .ok (between (out ++ [{ surfaceRef := id, coefficient := coeff.dropZeroSign }])) := by
    have element : CoeffElement.ofName (localName (coeffName "surface-coefficient".toList)) =
        .surfaceCoefficient := rfl
    have built : counted.build =
        .ok { surfaceRef := id, coefficient := coeff.dropZeroSign } := by
      unfold CoeffBuilder.build
      rw [if_neg (by simpa [counted, secured, onTiming] using timed)]
      rfl
    simp only [step, closeElement, element, built, bind, Except.bind, pure, Except.pure]
    rfl
  exact Run.append (Run.cons opened (Run.append (Run.append timing (Run.single security))
    (Run.single linearity))) (Run.single closed)

end

end CoeffState

/-! ## Coefficients in surface order -/

section

omit [Zero F] [RustFloat F]

def SurfaceCoefficient.dropZeroSign (sc : SurfaceCoefficient D) : SurfaceCoefficient D :=
  { sc with coefficient := sc.coefficient.dropZeroSign }

namespace SessionImageV1

omit [Zero D] [RustFloat D] in
/-- The coefficients in the order of the surfaces they belong to. -/
def relisted (img : SessionImageV1 F D) : List (SurfaceCoefficient D) :=
  img.base.surfaces.flatMap fun surf =>
    (img.coefficients.find? fun c => c.surfaceRef = surf.id).toList

omit [Zero D] [RustFloat D] in
theorem mem_of_mem_relisted {img : SessionImageV1 F D} {sc : SurfaceCoefficient D}
    (member : sc ∈ img.relisted) : sc ∈ img.coefficients := by
  obtain ⟨surf, _, found⟩ := List.mem_flatMap.mp member
  exact List.mem_of_find?_eq_some (Option.mem_toList.mp found)

omit [Zero D] [RustFloat D] in
theorem relisted_refs {img : SessionImageV1 F D} (valid : img.validate = .ok ()) :
    img.relisted.map SurfaceCoefficient.surfaceRef = img.base.surfaces.map SurfaceEntry.id := by
  have found : ∀ surf ∈ img.base.surfaces,
      (img.coefficients.find? fun c => c.surfaceRef = surf.id).toList.map
        SurfaceCoefficient.surfaceRef = [surf.id] := by
    intro surf inside
    have counted := (validate_eq_ok.mp valid).2 surf inside
    obtain ⟨sc, member, same⟩ := List.mem_map.mp
      (List.count_pos_iff.mp (by rw [counted]; exact Nat.one_pos))
    cases first : img.coefficients.find? fun c => c.surfaceRef = surf.id with
    | none => exact absurd same (by simpa using List.find?_eq_none.mp first sc member)
    | some named => simpa using List.find?_some first
  unfold relisted
  rw [List.map_flatMap, List.flatMap_congr found, ← List.map_eq_flatMap]

omit [Zero D] [RustFloat D] in
theorem relisted_perm {img : SessionImageV1 F D} (valid : img.validate = .ok ())
    (distinct : (img.base.surfaces.map SurfaceEntry.id).Nodup) :
    img.relisted.Perm img.coefficients := by
  have refs := relisted_refs valid
  have size := congrArg List.length refs
  simp only [List.length_map] at size
  have once : img.relisted.Nodup := .of_map _ (refs ▸ distinct)
  exact (List.subperm_of_subset once fun _ => mem_of_mem_relisted).perm_of_length_le
    (by rw [size, (validate_eq_ok.mp valid).1])

/-- The writer goes through the relisted coefficients and leaves out the others. -/
theorem written_relisted (img : SessionImageV1 F D) (pretty : Bool) :
    img.base.surfaces.flatMap (fun surf =>
        (img.coefficientFor surf.id).elim [] (writeSurfaceCoefficient pretty surf.id)) =
      img.relisted.flatMap fun sc =>
        writeSurfaceCoefficient pretty sc.surfaceRef sc.coefficient := by
  have entries : ∀ surf : SurfaceEntry,
      (img.coefficientFor surf.id).elim [] (writeSurfaceCoefficient pretty surf.id) =
        (img.coefficients.find? fun c => c.surfaceRef = surf.id).toList.flatMap fun sc =>
          writeSurfaceCoefficient pretty sc.surfaceRef sc.coefficient := by
    intro surf
    unfold coefficientFor
    cases found : img.coefficients.find? fun c => c.surfaceRef = surf.id with
    | none => rfl
    | some sc =>
        have named : sc.surfaceRef = surf.id := by simpa using List.find?_some found
        simp [named]
  unfold relisted
  rw [List.flatMap_assoc, List.flatMap_congr fun surf _ => entries surf]

end SessionImageV1

end

/-! ## The two passes -/

section

variable {xml : QuickXml} (documented : Documented xml) (delayLaws : RustFloat.Documented D)

include documented delayLaws

namespace CoeffState

omit [Zero F] [RustFloat F] in
theorem run_coefficients {img : SessionImageV1 F D} (timed : img.Timed) :
    (coefficientsEvents img).foldlM (step xml) init =
      .ok { out := img.relisted.map SurfaceCoefficient.dropZeroSign, inCoeffs := false
            cur := none } := by
  let entry (surf : SurfaceEntry) : List (SurfaceCoefficient D) :=
    (img.coefficients.find? fun c => c.surfaceRef = surf.id).toList.map
      SurfaceCoefficient.dropZeroSign
  have each : ∀ (done : List SurfaceEntry) (next : SurfaceEntry),
      ((img.coefficientFor next.id).elim [] (surfaceCoefficientEvents next.id)).foldlM (step xml)
          (between (done.flatMap entry)) =
        .ok (between ((done ++ [next]).flatMap entry)) := by
    intro done next
    rw [List.flatMap_append, List.flatMap_singleton]
    unfold SessionImageV1.coefficientFor
    cases found : img.coefficients.find? fun c => c.surfaceRef = next.id with
    | none =>
        simp only [entry, found, Option.map_none, Option.elim_none, Option.toList_none,
          List.map_nil, List.append_nil]
        rfl
    | some sc =>
        obtain ⟨paths, numbers⟩ := timed sc (List.mem_of_find?_eq_some found)
        have same : sc.surfaceRef = next.id := by simpa using List.find?_some found
        have run := run_surfaceCoefficient documented delayLaws next.id paths numbers
          (done.flatMap entry)
        have dropped : sc.dropZeroSign =
            { surfaceRef := next.id, coefficient := sc.coefficient.dropZeroSign } := by
          rw [← same]
          rfl
        simpa only [entry, dropped, found, Option.map_some, Option.elim_some, Option.toList_some,
          List.map_cons, List.map_nil] using run
  have opened : step xml (init (D := D)) (.start (plainStart (coeffName "coefficients".toList)
      [("xmlns:".toList ++ coeffPrefix, coefficientsNamespace)])) = .ok (between []) := rfl
  have closed : ∀ out : List (SurfaceCoefficient D),
      step xml (between out) (.close (coeffName "coefficients".toList)) =
        .ok { out, inCoeffs := false, cur := none } := fun _ => rfl
  have entries := Run.flatMap (fun done => between (done.flatMap entry)) each []
    img.base.surfaces
  have all : img.relisted.map SurfaceCoefficient.dropZeroSign =
      img.base.surfaces.flatMap entry := by
    unfold SessionImageV1.relisted
    rw [List.map_flatMap]
  rw [all]
  exact Run.append (Run.cons opened entries) (Run.single (closed _))

/-- The second pass passes over the base. -/
theorem run_document (id : Option Str) {img : SessionImageV1 F D} (timed : img.Timed) :
    (documentEvents img.base id (coefficientsEvents img)).foldlM (step xml) init =
      .ok { out := img.relisted.map SurfaceCoefficient.dropZeroSign, inCoeffs := false
            cur := none } := by
  have session : UnknownName "session".toList := baseNames_unknown _ (by simp [baseNames])
  have surfaces : AllNamed UnknownName (.start (plainStart "surfaces".toList []) ::
      img.base.surfaces.flatMap surfaceEvents ++ [.close "surfaces".toList]) :=
    .element (baseNames_unknown _ (by simp [baseNames]))
      (.flatMap (surfaceEvents_named fun name member =>
        baseNames_unknown name (surfaceNames_subset member)) _)
  exact Run.append (Run.append (Run.cons (step_unknown _ session) (Run.append
    (run_unknown _ surfaces) (run_unknown _ (layoutEvents_named baseNames_unknown _))))
    (run_coefficients documented delayLaws timed)) (Run.single (step_unknown _ session))

end CoeffState

variable (laws : RustFloat.Documented F)

include laws

/-- What the two passes over a written v1 image return, whatever its scroll
position is read as. -/
theorem read_v1_at (sha256 : Sha256) {img : SessionImageV1 F D} (timed : img.Timed) {pos : F}
    (reads : RustFloat.parse (fmtF32 img.base.layout.scrollPos) = some pos) :
    SessionImage.fromXml xml (img.toXml sha256) =
        .ok { img.base.normalForm (some (img.sessionId sha256)) with
              layout := { img.base.layout with scrollPos := pos } } ∧
      parseCoefficients xml (img.toXml sha256) =
        .ok (img.relisted.map SurfaceCoefficient.dropZeroSign) := by
  have head : (img.toXml sha256).head? ≠ some '\uFEFF' := by
    have first : (img.toXml sha256).head? = some '<' := rfl
    rw [first]
    decide
  have delivered : Delivers (img.toXml sha256) (.other ::
      documentEvents img.base (some (img.sessionId sha256)) (coefficientsEvents img)) := by
    unfold SessionImageV1.toXml
    exact delivers_xmlDeclaration.append (delivers_document laws img.base true _ _
      (delivers_coefficients delayLaws true img))
  have reading := delivered.read documented head
  constructor
  · unfold SessionImage.fromXml
    rw [reading]
    refine ParseState.parse_document_at documented laws img.base _ _ reads
      fun attrs surfaces layout => ?_
    exact ParseState.Quiet.run_unknown ⟨rfl, rfl⟩
      (coefficientsEvents_named coeffNames_unknown img)
  · unfold parseCoefficients
    rw [reading]
    have run : (Event.other ::
        documentEvents img.base (some (img.sessionId sha256)) (coefficientsEvents img)).foldlM
          (CoeffState.step xml) .init = _ :=
      Run.cons rfl (CoeffState.run_document documented delayLaws _ timed)
    simp only [run, bind, Except.bind]

theorem read_v1 (sha256 : Sha256) {img : SessionImageV1 F D} (timed : img.Timed)
    (number : RustFloat.isNaN img.base.layout.scrollPos = false) :
    SessionImage.fromXml xml (img.toXml sha256) =
        .ok (img.base.normalForm (some (img.sessionId sha256))) ∧
      parseCoefficients xml (img.toXml sha256) =
        .ok (img.relisted.map SurfaceCoefficient.dropZeroSign) :=
  read_v1_at documented delayLaws laws sha256 timed (laws.parse_displayUnsignedZero number)

omit documented laws in
private theorem Coefficient.dropZeroSign_eq {coeff : Coefficient D}
    (numbers : ∀ iv ∈ coeff.timing, iv.IsNumber) : coeff.dropZeroSign.eq coeff = true := by
  have paths : ∀ timing : List (Interval D), (∀ iv ∈ timing, iv.IsNumber) →
      ((timing.map Interval.dropZeroSign).zip timing).all (fun pair => pair.1.eq pair.2) = true := by
    intro timing
    induction timing with
    | nil => intro _; rfl
    | cons iv rest ih =>
        intro numbers
        rw [List.map_cons, List.zip_cons_cons, List.all_cons, Bool.and_eq_true]
        exact ⟨Interval.dropZeroSign_eq delayLaws (numbers iv (by simp)),
          ih fun other member => numbers other (by simp [member])⟩
  unfold eq dropZeroSign
  simp only [List.length_map, beq_self_eq_true, Bool.true_and, decide_true, Bool.and_true]
  exact paths coeff.timing numbers

/-- A valid v1 image comes back from its XML with the id declared, the base
unchanged, and every coefficient equal, in the order of the surfaces. -/
theorem v1_carrier_faithful (sha256 : Sha256) {x : SessionImageV1 F D}
    (valid : x.validate = .ok ()) (distinct : (x.base.surfaces.map SurfaceEntry.id).Nodup)
    (ordered : x.base.Ordered)
    (unpadded : ∀ surf ∈ x.base.surfaces, Unpadded surf.host.address ∧
      Unpadded surf.host.machine ∧ Unpadded surf.host.capture)
    (timed : x.Timed) (number : RustFloat.isNaN x.base.layout.scrollPos = false) :
    ∃ (y : SessionImageV1 F D) (relisted : List (SurfaceCoefficient D)),
      SessionImageV1.fromXml xml (x.toXml sha256) = .ok y ∧
        y.base.id = some (x.sessionId sha256) ∧ SameContent y.base x.base ∧
        relisted.Perm x.coefficients ∧
        relisted.map SurfaceCoefficient.surfaceRef = x.base.surfaces.map SurfaceEntry.id ∧
        y.coefficients.Forall₂ (fun read written => read.surfaceRef = written.surfaceRef ∧
          read.coefficient.eq written.coefficient = true) relisted := by
  have trimmed : x.base.Trimmed := fun surf member =>
    SurfaceEntry.trimmed_eq_self_iff.mpr (unpadded surf member)
  obtain ⟨first, second⟩ := read_v1 documented delayLaws laws sha256 timed number
  have same := (SessionImage.normalForm_sameContent_iff laws (some (x.sessionId sha256))
    number).mpr ⟨trimmed, ordered⟩
  have refs := SessionImageV1.relisted_refs valid
  have kept : (x.relisted.map SurfaceCoefficient.dropZeroSign).map SurfaceCoefficient.surfaceRef =
      x.base.surfaces.map SurfaceEntry.id := by
    rw [List.map_map, ← refs]
    rfl
  have accepted : SessionImageV1.validate
      { base := x.base.normalForm (some (x.sessionId sha256))
        coefficients := x.relisted.map SurfaceCoefficient.dropZeroSign } = .ok () := by
    have size := congrArg List.length kept
    simp only [List.length_map] at size
    rw [SessionImageV1.validate_eq_ok, same.surfaces, kept]
    refine ⟨by rw [List.length_map, size], fun surf member => ?_⟩
    exact List.count_eq_one_of_mem distinct (List.mem_map_of_mem member)
  refine ⟨{ base := x.base.normalForm (some (x.sessionId sha256))
            coefficients := x.relisted.map SurfaceCoefficient.dropZeroSign }, x.relisted, ?_, rfl,
    same, SessionImageV1.relisted_perm valid distinct, refs, ?_⟩
  · unfold SessionImageV1.fromXml
    simp only [first, second, accepted, bind, Except.bind, pure, Except.pure]
  · rw [List.forall₂_map_left_iff, List.forall₂_same]
    intro sc member
    exact ⟨rfl, Coefficient.dropZeroSign_eq delayLaws
      (timed sc (SessionImageV1.mem_of_mem_relisted member)).2⟩

end

def sideEntry (byte : UInt8) (order : UInt32) : SurfaceEntry :=
  { id := numberedId byte, name := "Safari <1>".toList, order
    codec := .h265, width := 1280, height := 800
    host :=
      { address := "100.0.0.1:7001".toList, os := .macOS, machine := "mac".toList
        capture := "window:Safari & co".toList } }

/-- Two surfaces, whose coefficients are listed the other way round: one with two delay
paths, the other with one. -/
def sideBySide : SessionImageV1 ℚ ℚ :=
  { base := .new "2026-06-28T19:44:09Z".toList [sideEntry 7 0, sideEntry 8 1]
      { scrollPos := 12, focus := some (sideEntry 8 1).id }
    coefficients :=
      [{ surfaceRef := (sideEntry 8 1).id
         coefficient :=
          { timing := [⟨.finite (-1 / 2), .finite 3⟩, ⟨.negInf, .finite 0⟩], confidentiality := .secret
            integrity := .trusted, linearity := .finite 2 } },
       { surfaceRef := (sideEntry 7 0).id
         coefficient := { Coefficient.top (D := ℚ) with timing := [⟨.finite 2, .finite 5⟩] } }] }

theorem sideBySide_carried :
    ∃ (y : SessionImageV1 ℚ ℚ) (relisted : List (SurfaceCoefficient ℚ)),
      SessionImageV1.fromXml Scanner.quickXml (sideBySide.toXml sha256Digest) = .ok y ∧
        y.base.id = some (sideBySide.sessionId sha256Digest) ∧
        SameContent y.base sideBySide.base ∧
        relisted.Perm sideBySide.coefficients ∧
        relisted.map SurfaceCoefficient.surfaceRef = sideBySide.base.surfaces.map SurfaceEntry.id ∧
        y.coefficients.Forall₂ (fun read written => read.surfaceRef = written.surfaceRef ∧
          read.coefficient.eq written.coefficient = true) relisted := by
  have valid : sideBySide.validate = .ok () := by decide +kernel
  have distinct : (sideBySide.base.surfaces.map SurfaceEntry.id).Nodup := by decide
  have ordered : sideBySide.base.Ordered := by
    unfold SessionImage.Ordered
    decide
  have texts : trim "100.0.0.1:7001".toList = "100.0.0.1:7001".toList ∧
      trim "mac".toList = "mac".toList ∧
      trim "window:Safari & co".toList = "window:Safari & co".toList := by decide
  have unpadded : ∀ surf ∈ sideBySide.base.surfaces, Unpadded surf.host.address ∧
      Unpadded surf.host.machine ∧ Unpadded surf.host.capture := by
    have host := And.intro (trim_eq_self_iff.mp texts.1)
      (And.intro (trim_eq_self_iff.mp texts.2.1) (trim_eq_self_iff.mp texts.2.2))
    intro surf member
    have listed : surf = sideEntry 7 0 ∨ surf = sideEntry 8 1 := by
      simpa [sideBySide, SessionImage.new] using member
    rcases listed with rfl | rfl <;> exact host
  have number : ∀ x : ℚ, RustFloat.isNaN x = false := fun _ => rfl
  have timed : sideBySide.Timed := by
    intro sc member
    simp only [sideBySide, List.mem_cons, List.not_mem_nil, or_false] at member
    rcases member with rfl | rfl <;> simp [Interval.IsNumber, Bound.IsNumber, number]
  exact v1_carrier_faithful Scanner.documented ExactFloat.documented ExactFloat.documented
    sha256Digest valid distinct ordered unpadded timed rfl

end Simulboot
