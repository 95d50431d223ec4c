import Simulboot.Galois.Order
import Simulboot.Session.Conformance

/-!
# v1 documents under both schemas

A v1 document is a document of the base schema into whose wildcard one element of
the coefficient schema is spliced. Taking the element out leaves the document of
the base image, to the letter.
-/

set_option autoImplicit false

namespace Simulboot

open Library Library.Xml

/-! ## The coefficient schema -/

def IsConfidentiality (value : Str) : Prop :=
  value ∈ ["public".toList, "restricted".toList, "secret".toList]

def IsIntegrity (value : Str) : Prop :=
  value ∈ ["untrusted".toList, "endorsed".toList, "trusted".toList]

private theorem Confidentiality.isConfidentiality_toStr (label : Confidentiality) :
    IsConfidentiality label.toStr := by
  unfold IsConfidentiality
  cases label <;> decide

private theorem Integrity.isIntegrity_toStr (label : Integrity) : IsIntegrity label.toStr := by
  unfold IsIntegrity
  cases label <;> decide

section

variable (xml : QuickXml)

/-- The attributes of a tag have values of the types given to them. -/
def HasTypes (types : List (Str × (Str → Prop))) (tag : Tag) : Prop :=
  ∀ entry ∈ types, ∀ source ∈ tag.attributes, source.key = entry.1 →
    ∃ value, xml.unescape source.value = .ok value ∧ entry.2 value

/-- An element of the coefficients namespace, with its attributes and their types. -/
def CoefficientElement (name : Str) (types : List (Str × (Str → Prop)))
    (content : Scope → List Token → Prop) (scope : Scope) (tokens : List Token) : Prop :=
  ElementOf xml scope
    (fun scope tag =>
      NamedTag coefficientsNamespace name (types.map Prod.fst) scope tag ∧ HasTypes xml types tag)
    content tokens

def DelayPathElement (scope : Scope) (tokens : List Token) : Prop :=
  CoefficientElement xml "delay-path".toList
    [("lo".toList, fun _ => True), ("hi".toList, fun _ => True)] EmptyContent scope tokens

def TimingContent (scope : Scope) (tokens : List Token) : Prop :=
  ∃ more, InSequence (DelayPathElement xml scope :: List.replicate more (DelayPathElement xml scope))
    tokens

def SecurityElement (scope : Scope) (tokens : List Token) : Prop :=
  CoefficientElement xml "security".toList
    [("confidentiality".toList, IsConfidentiality), ("integrity".toList, IsIntegrity)] EmptyContent
    scope tokens

def SurfaceCoefficientContent (scope : Scope) (tokens : List Token) : Prop :=
  InSequence
    [CoefficientElement xml "timing".toList [] (TimingContent xml) scope, SecurityElement xml scope,
      CoefficientElement xml "linearity".toList [("count".toList, fun _ => True)] EmptyContent scope]
    tokens

def SurfaceCoefficientElement (scope : Scope) (tokens : List Token) : Prop :=
  CoefficientElement xml "surface-coefficient".toList [("surface-ref".toList, fun _ => True)]
    (SurfaceCoefficientContent xml) scope tokens

def CoefficientsContent (scope : Scope) (tokens : List Token) : Prop :=
  ∃ more, InSequence
    (SurfaceCoefficientElement xml scope ::
      List.replicate more (SurfaceCoefficientElement xml scope)) tokens

def CoefficientsElement (scope : Scope) (tokens : List Token) : Prop :=
  CoefficientElement xml "coefficients".toList [] (CoefficientsContent xml) scope tokens

end

/-! ## Writing the block -/

section

variable {xml : QuickXml} {scope : Scope} (documented : Documented xml)
  (bound : scope coeffPrefix = some coefficientsNamespace)

include bound

private theorem qualified_underPrefix {name : Str} (plain : ':' ∉ name) :
    Qualified scope (coeffName name) coefficientsNamespace name :=
  .qualified (by decide) plain bound

section

variable (xml) {name : Str} {attributes : List (Str × Str)} {types : List (Str × (Str → Prop))}
  (plain : ':' ∉ name) (exactly : Exactly attributes (types.map Prod.fst))
  (typed : ∀ entry ∈ types, ∀ pair ∈ attributes, pair.1 = entry.1 →
    ∃ value, xml.unescape pair.2 = .ok value ∧ entry.2 value)

include plain exactly typed

private theorem coefficientTag : NamedTag coefficientsNamespace name (types.map Prod.fst)
      (scope.declare xml (Tag.plain (coeffName name) attributes))
      (Tag.plain (coeffName name) attributes) ∧
    HasTypes xml types (Tag.plain (coeffName name) attributes) := by
  refine ⟨.declare (qualified_underPrefix bound plain) xml exactly, ?_⟩
  intro entry listed source member key
  obtain ⟨pair, inside, rfl⟩ := List.mem_map.mp member
  exact typed entry listed pair inside key

private theorem spells_coefficient (content : Scope → List Token → Prop) {inner : Str}
    (opening closing : Str) (wellFormed : (Tag.plain (coeffName name) attributes).WellFormed)
    (opens : opening = '<' :: (Tag.plain (coeffName name) attributes).render ++ ">".toList)
    (closes : closing = "</".toList ++ coeffName name ++ ">".toList)
    (inside : Spells (content scope) inner) :
    Spells (CoefficientElement xml name types content scope) (opening ++ inner ++ closing) := by
  refine Spells.enclosed opening closing wellFormed opens closes
    (coefficientTag xml bound plain exactly typed) ?_
  rw [exactly.declare]
  exact inside

private theorem spells_coefficientEmpty {text : Str}
    (wellFormed : (Tag.plain (coeffName name) attributes).WellFormed)
    (written : text = '<' :: (Tag.plain (coeffName name) attributes).render ++ "/>".toList) :
    Spells (CoefficientElement xml name types EmptyContent scope) text :=
  Spells.plainEmpty wellFormed written (coefficientTag xml bound plain exactly typed) .nil

end

include documented

omit bound in
private theorem unescape_unmarked {value : Str} (plain : '&' ∉ value) : xml.unescape value = .ok value :=
  unescape_eq_ok.mp (unescape_plain documented plain)

section

variable {D : Type} [Zero D] [RustFloat D] (delayLaws : RustFloat.Documented D)

include delayLaws

private theorem spells_delayPath (pretty : Bool) (iv : Interval D) :
    Spells (Padded (DelayPathElement xml scope)) (writeDelayPath pretty iv) := by
  have plain := Bound.toStr_delimiters delayLaws
  have wellFormed : (Tag.plain (coeffName "delay-path".toList)
      [("hi".toList, iv.hi.toStr), ("lo".toList, iv.lo.toStr)]).WellFormed := by
    refine literalTag_wellFormed ["hi".toList, "lo".toList] rfl (by decide) (by decide) ?_
    exact List.forall_mem_cons.mpr ⟨⟨(plain iv.hi).1, (plain iv.hi).2.1⟩,
      List.forall_mem_singleton.mpr ⟨(plain iv.lo).1, (plain iv.lo).2.1⟩⟩
  have typed : ∀ entry ∈ [("lo".toList, fun _ : Str => True), ("hi".toList, fun _ => True)],
      ∀ pair ∈ [("hi".toList, iv.hi.toStr), ("lo".toList, iv.lo.toStr)], pair.1 = entry.1 →
        ∃ value, xml.unescape pair.2 = .ok value ∧ entry.2 value := by
    have lo := unescape_unmarked documented (plain iv.lo).2.2
    have hi := unescape_unmarked documented (plain iv.hi).2.2
    simp [lo, hi]
  refine .padded (blank_indent pretty 4) (spells_coefficientEmpty xml bound (by decide)
    (.of_keys ["hi".toList, "lo".toList] rfl (by decide)) typed wellFormed ?_) (blank_newline pretty)
  simp [Tag.plain, Tag.render, AttributeSource.plain, AttributeSource.render, Quote.char]

omit delayLaws [Zero D] [RustFloat D] in
private theorem spells_security (pretty : Bool) (coeff : Coefficient D) :
    Spells (Padded (SecurityElement xml scope))
      (indent pretty 3 ++
        ("<".toList ++ coeffName "security".toList ++ " confidentiality=\"".toList ++
          coeff.confidentiality.toStr ++ "\" integrity=\"".toList ++ coeff.integrity.toStr ++
          "\"/>".toList) ++ newline pretty) := by
  have label := coeff.confidentiality.toStr_delimiters
  have trust := coeff.integrity.toStr_delimiters
  have wellFormed : (Tag.plain (coeffName "security".toList)
      [("confidentiality".toList, coeff.confidentiality.toStr),
        ("integrity".toList, coeff.integrity.toStr)]).WellFormed := by
    refine literalTag_wellFormed ["confidentiality".toList, "integrity".toList] rfl (by decide)
      (by decide) ?_
    exact List.forall_mem_cons.mpr ⟨⟨label.1, label.2.1⟩,
      List.forall_mem_singleton.mpr ⟨trust.1, trust.2.1⟩⟩
  have readLabel := unescape_unmarked documented label.2.2
  have readTrust := unescape_unmarked documented trust.2.2
  refine .padded (blank_indent pretty 3) (spells_coefficientEmpty xml bound (by decide)
    (.of_keys ["confidentiality".toList, "integrity".toList] rfl (by decide)) ?_ wellFormed ?_)
    (blank_newline pretty)
  · simp [readLabel, readTrust, coeff.confidentiality.isConfidentiality_toStr,
      coeff.integrity.isIntegrity_toStr]
  · simp [Tag.plain, Tag.render, AttributeSource.plain, AttributeSource.render, Quote.char]

omit delayLaws [Zero D] [RustFloat D] in
private theorem spells_linearity (pretty : Bool) (coeff : Coefficient D) :
    Spells (Padded (CoefficientElement xml "linearity".toList [("count".toList, fun _ => True)]
        EmptyContent scope))
      (indent pretty 3 ++
        ("<".toList ++ coeffName "linearity".toList ++ " count=\"".toList ++ coeff.linearity.toStr ++
          "\"/>".toList) ++ newline pretty) := by
  have count := coeff.linearity.toStr_delimiters
  have wellFormed : (Tag.plain (coeffName "linearity".toList)
      [("count".toList, coeff.linearity.toStr)]).WellFormed := by
    refine literalTag_wellFormed ["count".toList] rfl (by decide) (by decide) ?_
    exact List.forall_mem_singleton.mpr ⟨count.1, count.2.1⟩
  have read := unescape_unmarked documented count.2.2
  refine .padded (blank_indent pretty 3) (spells_coefficientEmpty xml bound (by decide)
    (.of_keys ["count".toList] rfl (by decide)) ?_ wellFormed ?_) (blank_newline pretty)
  · simp [read]
  · simp [Tag.plain, Tag.render, AttributeSource.plain, AttributeSource.render, Quote.char]

private theorem spells_timing (pretty : Bool) {timing : List (Interval D)} (timed : timing ≠ []) :
    Spells (Padded (CoefficientElement xml "timing".toList [] (TimingContent xml) scope))
      (indent pretty 3 ++ ("<".toList ++ coeffName "timing".toList ++ ">".toList) ++ newline pretty ++
        timing.flatMap (writeDelayPath pretty) ++
        (indent pretty 3 ++ ("</".toList ++ coeffName "timing".toList ++ ">".toList) ++
          newline pretty)) := by
  have children : Spells (TimingContent xml scope)
      (newline pretty ++ timing.flatMap (writeDelayPath pretty) ++ indent pretty 3) := by
    obtain ⟨tokens, rendered, sequence⟩ := Spells.inSequence (blank_newline pretty)
      (Spells.flatMap timing fun iv _ => spells_delayPath documented bound delayLaws pretty iv)
      (blank_indent pretty 3)
    obtain ⟨more, size⟩ := Nat.exists_eq_succ_of_ne_zero (List.length_pos_iff.mpr timed).ne'
    rw [size, List.replicate_succ] at sequence
    exact ⟨tokens, rendered, more, sequence⟩
  have exactly : Exactly [] (([] : List (Str × (Str → Prop))).map Prod.fst) := .none
  have element := spells_coefficient xml bound (by decide) exactly (List.forall_mem_nil _)
    (TimingContent xml)
    ("<".toList ++ coeffName "timing".toList ++ ">".toList)
    ("</".toList ++ coeffName "timing".toList ++ ">".toList)
    (bareTag_wellFormed _ (coeffName_isName (by decide))) (by simp [Tag.render, Tag.plain]) rfl
    children
  have whole := element.padded (blank_indent pretty 3) (blank_newline pretty)
  simpa only [List.append_assoc] using whole

private theorem spells_surfaceCoefficient (pretty : Bool) (id : SurfaceId) {coeff : Coefficient D}
    (timed : coeff.timing ≠ []) :
    Spells (Padded (SurfaceCoefficientElement xml scope))
      (writeSurfaceCoefficient pretty id coeff) := by
  have ref := surfaceIdToStr_delimiters id
  have wellFormed : (Tag.plain (coeffName "surface-coefficient".toList)
      [("surface-ref".toList, surfaceIdToStr id)]).WellFormed := by
    refine literalTag_wellFormed ["surface-ref".toList] rfl (by decide) (by decide) ?_
    exact List.forall_mem_singleton.mpr ⟨ref.1, ref.2.1⟩
  have read := unescape_unmarked documented ref.2.2
  have typed : ∀ entry ∈ [("surface-ref".toList, fun _ : Str => True)],
      ∀ pair ∈ [("surface-ref".toList, surfaceIdToStr id)], pair.1 = entry.1 →
        ∃ value, xml.unescape pair.2 = .ok value ∧ entry.2 value := by
    simp [read]
  have children : Spells (SurfaceCoefficientContent xml scope) _ :=
    .cons (spells_timing documented bound delayLaws pretty timed)
      (.cons (spells_security documented bound pretty coeff)
        (.single (spells_linearity documented bound pretty coeff)))
  have element : Spells (SurfaceCoefficientElement xml scope) _ := spells_coefficient xml bound
    (by decide) (.of_keys ["surface-ref".toList] rfl (by decide)) typed
    (SurfaceCoefficientContent xml)
    ("<".toList ++ coeffName "surface-coefficient".toList ++ " surface-ref=\"".toList ++
      surfaceIdToStr id ++ "\">".toList)
    ("</".toList ++ coeffName "surface-coefficient".toList ++ ">".toList) wellFormed
    (by simp [Tag.plain, Tag.render, AttributeSource.plain, AttributeSource.render, Quote.char]) rfl
    (.inSequence (blank_newline pretty) children (blank_indent pretty 2))
  have whole := element.padded (blank_indent pretty 2) (blank_newline pretty)
  simpa only [writeSurfaceCoefficient, List.append_assoc] using whole

end

end

section

variable {F D : Type} [Zero D] [RustFloat D]

/-- The coefficients element without the blank text around it. -/
def coefficientsText (img : SessionImageV1 F D) (pretty : Bool) : Str :=
  "<".toList ++ coeffName "coefficients".toList ++ " xmlns:".toList ++ coeffPrefix ++ "=\"".toList ++
      coefficientsNamespace ++ "\">".toList ++
    (newline pretty ++
      img.relisted.flatMap (fun sc =>
        writeSurfaceCoefficient pretty sc.surfaceRef sc.coefficient) ++ indent pretty 1) ++
    ("</".toList ++ coeffName "coefficients".toList ++ ">".toList)

private theorem writeCoefficients_eq (img : SessionImageV1 F D) (pretty : Bool) :
    img.writeCoefficients pretty =
      indent pretty 1 ++ coefficientsText img pretty ++ newline pretty := by
  unfold SessionImageV1.writeCoefficients coefficientsText
  rw [SessionImageV1.written_relisted]
  simp only [List.append_assoc]

omit [Zero D] [RustFloat D] in
private theorem relisted_ne_nil {img : SessionImageV1 F D} (valid : img.validate = .ok ())
    (surfaces : img.base.surfaces ≠ []) : img.relisted ≠ [] := by
  intro none
  have refs := SessionImageV1.relisted_refs valid
  rw [none] at refs
  exact surfaces (List.map_eq_nil_iff.mp refs.symm)

private theorem spells_coefficients {xml : QuickXml} (scope : Scope) (documented : Documented xml)
    (delayLaws : RustFloat.Documented D) (pretty : Bool) {img : SessionImageV1 F D}
    (valid : img.validate = .ok ()) (surfaces : img.base.surfaces ≠ [])
    (timed : ∀ sc ∈ img.coefficients, sc.coefficient.timing ≠ []) :
    Spells (CoefficientsElement xml scope) (coefficientsText img pretty) := by
  let root := Tag.plain (coeffName "coefficients".toList)
    [("xmlns:".toList ++ coeffPrefix, coefficientsNamespace)]
  have bound : scope.declare xml root coeffPrefix = some coefficientsNamespace := by
    have plain : '&' ∉ coefficientsNamespace := by decide
    have first : root.attributes.find? (fun source => declaredPart source.key = some coeffPrefix) =
        some (.plain ("xmlns:".toList ++ coeffPrefix) coefficientsNamespace) := rfl
    unfold Scope.declare
    rw [first]
    exact congrArg Except.toOption (unescape_unmarked documented plain)
  have wellFormed : root.WellFormed := by
    refine literalTag_wellFormed ["xmlns:".toList ++ coeffPrefix] rfl (by decide) (by decide) ?_
    exact List.forall_mem_singleton.mpr ⟨by decide, by decide⟩
  have tagged : NamedTag coefficientsNamespace "coefficients".toList [] (scope.declare xml root) root ∧
      HasTypes xml [] root :=
    ⟨.plain (qualified_underPrefix bound (by decide)) (List.forall_mem_nil _)
      (List.forall_mem_singleton.mpr (.inr (by decide))), List.forall_mem_nil _⟩
  have children : Spells (CoefficientsContent xml (scope.declare xml root))
      (newline pretty ++
        img.relisted.flatMap (fun sc =>
          writeSurfaceCoefficient pretty sc.surfaceRef sc.coefficient) ++ indent pretty 1) := by
    obtain ⟨tokens, rendered, sequence⟩ := Spells.inSequence (blank_newline pretty)
      (Spells.flatMap img.relisted fun sc listed =>
        spells_surfaceCoefficient documented bound delayLaws pretty sc.surfaceRef
          (timed sc (SessionImageV1.mem_of_mem_relisted listed)))
      (blank_indent pretty 1)
    obtain ⟨more, size⟩ := Nat.exists_eq_succ_of_ne_zero
      (List.length_pos_iff.mpr (relisted_ne_nil valid surfaces)).ne'
    rw [size, List.replicate_succ] at sequence
    exact ⟨tokens, rendered, more, sequence⟩
  refine Spells.enclosed _ _ wellFormed ?_ rfl tagged children
  generalize coefficientsNamespace = uri
  simp [Tag.plain, Tag.render, AttributeSource.plain, AttributeSource.render, Quote.char]

end

/-! ## Taking the coefficients out -/

/-- A document of both schemas, from which taking the coefficients out leaves a
given document. Nothing else stands behind the layout. -/
def SplitsOff (xml : QuickXml) (text base : Str) : Prop :=
  ∃ scope head block tail, BaseSession xml scope head tail ∧
    (∀ event ∈ events [] head, Typed xml event) ∧ Padded (CoefficientsElement xml scope) block ∧
    (∀ event ∈ events [] tail, ¬ event.Opens fun _ => True) ∧
    render (head ++ block ++ tail) = text ∧ render (head ++ tail) = base

theorem toXml_splitsOff_iff {F D : Type} [Zero F] [RustFloat F] [Zero D] [RustFloat D]
    {xml : QuickXml} (documented : Documented xml) (laws : RustFloat.Documented F)
    (delayLaws : RustFloat.Documented D) (sha256 : Sha256) {img : SessionImageV1 F D}
    (valid : img.validate = .ok ()) (timed : ∀ sc ∈ img.coefficients, sc.coefficient.timing ≠ []) :
    SplitsOff xml (img.toXml sha256) (((alpha img).withComputedId sha256).toXml sha256) ↔
      Conforms xml (((alpha img).withComputedId sha256).toXml sha256) := by
  constructor
  · rintro ⟨scope, head, block, tail, document, typed, _, _, _, rendered⟩
    exact ⟨scope, head, tail, document, typed, rendered⟩
  · intro conforms
    obtain ⟨surfaces, focused, values⟩ := (toXml_conforms_iff documented laws sha256).mp conforms
    obtain ⟨focus, focused⟩ := Option.isSome_iff_exists.mp focused
    obtain ⟨head, headRendered, close⟩ := exists_baseSession documented laws img.base
      (img.sessionId sha256) true surfaces focused
    obtain ⟨tail, tailRendered, document⟩ := @close 0 _ (.blank (blank_newline true))
    obtain ⟨block, blockRendered, padded⟩ := (spells_coefficients
      (writtenScope xml img.base (some (img.sessionId sha256))) documented delayLaws true valid
      surfaces timed).padded ((blank_newline true).append (blank_indent true 1)) blank_nil
    have rendered : render (head ++ tail) = ((alpha img).withComputedId sha256).toXml sha256 := by
      rw [render_append, headRendered, tailRendered, SessionImage.toXml, writeDocWithId_eq_headText]
      simp only [Option.getD_none, List.append_nil, List.append_assoc]
      rfl
    have spliced : render (head ++ block ++ tail) = img.toXml sha256 := by
      rw [render_append, render_append, headRendered, blockRendered, tailRendered,
        SessionImageV1.toXml, writeDocWithId_eq_headText, Option.getD_some, writeCoefficients_eq]
      simp only [List.append_assoc, List.nil_append]
    obtain ⟨cut, rest⟩ := document.events_of_toXml documented laws sha256 rendered
    refine ⟨_, head, block, tail, document, ?_, padded, ?_, spliced, rendered⟩
    · rw [cut]
      exact List.forall_mem_cons.mpr ⟨trivial, (typed_headEvents documented laws).mpr values⟩
    · rw [rest]
      exact List.forall_mem_singleton.mpr id

theorem tidySession_splitsOff :
    SplitsOff Scanner.quickXml ((gamma (D := ℚ) tidySession).toXml sha256Digest)
      (((alpha (gamma (D := ℚ) tidySession)).withComputedId sha256Digest).toXml sha256Digest) := by
  have valid : (gamma (D := ℚ) tidySession).validate = .ok () :=
    validate_gamma_iff.mpr (List.nodup_singleton _)
  refine (toXml_splitsOff_iff Scanner.documented ExactFloat.documented ExactFloat.documented
    sha256Digest valid fun sc member => ?_).mpr ?_
  · obtain rfl := List.mem_singleton.mp member
    exact List.cons_ne_nil _ _
  · refine (toXml_conforms_iff Scanner.documented ExactFloat.documented sha256Digest).mpr
      ⟨List.cons_ne_nil _ _, rfl, ⟨?_, by decide⟩, ?_, ?_⟩
    · have form := @DateTimeForm.mk [] "2026".toList "06".toList "28".toList "19".toList "44".toList
        "09".toList [] ['Z'] 2026 6 28 19 44 9 List.mem_cons_self
        ⟨by decide, by decide, by decide, by decide⟩ ⟨by decide, by decide⟩ ⟨by decide, by decide⟩
        ⟨by decide, by decide⟩ ⟨by decide, by decide⟩ ⟨by decide, by decide⟩ ⟨by decide, by decide⟩
        .none (.inl ⟨by decide, by decide, by decide⟩) .utc
      exact form
    · exact List.forall_mem_singleton.mpr ⟨by decide, by decide⟩
    · exact @DecimalForm.whole [] "12".toList List.mem_cons_self (by decide) (by decide)

end Simulboot
