import Simulboot.Galois
import Simulboot.Session.Document
import Simulboot.Session.Foreign

/-!
# The written v1 document

The events that the coefficient block delivers, and the element names on either
side of the namespace split.
-/

set_option autoImplicit false

namespace Simulboot

open Library Library.Xml

variable {F D : Type} [Zero D] [RustFloat D]

/-! ## Events of the block -/

def delayPathEvent (iv : Interval D) : Event :=
  .empty (plainStart (coeffName "delay-path".toList)
    [("hi".toList, iv.hi.toStr), ("lo".toList, iv.lo.toStr)])

omit [Zero D] [RustFloat D] in
def securityEvent (coeff : Coefficient D) : Event :=
  .empty (plainStart (coeffName "security".toList)
    [("confidentiality".toList, coeff.confidentiality.toStr),
      ("integrity".toList, coeff.integrity.toStr)])

omit [Zero D] [RustFloat D] in
def linearityEvent (coeff : Coefficient D) : Event :=
  .empty (plainStart (coeffName "linearity".toList) [("count".toList, coeff.linearity.toStr)])

def timingEvents (timing : List (Interval D)) : List Event :=
  .start (plainStart (coeffName "timing".toList) []) ::
    (timing.flatMap fun iv => [delayPathEvent iv]) ++ [.close (coeffName "timing".toList)]

def surfaceCoefficientStart (id : SurfaceId) : BytesStart :=
  plainStart (coeffName "surface-coefficient".toList)
    [("surface-ref".toList, surfaceIdToStr id)]

def surfaceCoefficientEvents (id : SurfaceId) (coeff : Coefficient D) : List Event :=
  .start (surfaceCoefficientStart id) ::
    (timingEvents coeff.timing ++ [securityEvent coeff] ++ [linearityEvent coeff]) ++
    [.close (coeffName "surface-coefficient".toList)]

def coefficientsEvents (img : SessionImageV1 F D) : List Event :=
  .start (plainStart (coeffName "coefficients".toList)
      [("xmlns:".toList ++ coeffPrefix, coefficientsNamespace)]) ::
    (img.base.surfaces.flatMap fun surf =>
      (img.coefficientFor surf.id).elim [] (surfaceCoefficientEvents surf.id)) ++
    [.close (coeffName "coefficients".toList)]

/-! ## What is written delivers them -/

theorem coeffName_isName {name : Str} (letters : name.all isNameChar = true) :
    IsName (coeffName name) := by
  have mark : ∀ c ∈ coeffPrefix ++ [':'], isNameChar c = true := by decide
  refine ⟨List.cons_ne_nil _ _, fun c member => ?_⟩
  have split : coeffName name = coeffPrefix ++ [':'] ++ name := rfl
  rw [split] at member
  rcases List.mem_append.mp member with front | inName
  · exact mark c front
  · exact List.all_eq_true.mp letters c inName

theorem surfaceIdToStr_delimiters (id : SurfaceId) :
    '"' ∉ surfaceIdToStr id ∧ '<' ∉ surfaceIdToStr id ∧ '&' ∉ surfaceIdToStr id := by
  have absent : ∀ c, c ∉ "sha256:".toList → c ∉ hexAlphabet → c ∉ surfaceIdToStr id := by
    intro c notMark notDigit member
    rcases List.mem_append.mp member with mark | digit
    · exact notMark mark
    · exact notDigit (mem_hexEncode digit)
  exact ⟨absent _ (by decide) (by decide), absent _ (by decide) (by decide),
    absent _ (by decide) (by decide)⟩

theorem Confidentiality.toStr_delimiters (c : Confidentiality) :
    '"' ∉ c.toStr ∧ '<' ∉ c.toStr ∧ '&' ∉ c.toStr := by
  cases c <;> decide

theorem Integrity.toStr_delimiters (i : Integrity) :
    '"' ∉ i.toStr ∧ '<' ∉ i.toStr ∧ '&' ∉ i.toStr := by
  cases i <;> decide

theorem Linearity.toStr_delimiters (l : Linearity) :
    '"' ∉ l.toStr ∧ '<' ∉ l.toStr ∧ '&' ∉ l.toStr := by
  cases l with
  | omega => decide
  | finite n =>
      exact ⟨not_mem_displayNat _ (by decide), not_mem_displayNat _ (by decide),
        not_mem_displayNat _ (by decide)⟩

section

variable (delayLaws : RustFloat.Documented D)

include delayLaws

theorem Bound.toStr_delimiters (b : Bound D) :
    '"' ∉ b.toStr ∧ '<' ∉ b.toStr ∧ '&' ∉ b.toStr := by
  cases b with
  | negInf =>
      change '"' ∉ "-INF".toList ∧ '<' ∉ "-INF".toList ∧ '&' ∉ "-INF".toList
      decide
  | posInf =>
      change '"' ∉ "+INF".toList ∧ '<' ∉ "+INF".toList ∧ '&' ∉ "+INF".toList
      decide
  | finite v =>
      have absent : ∀ c, c ∉ RustFloat.alphabet → c ∉ fmtF64 v := fun c other member =>
        other (delayLaws.displayUnsignedZero_alphabet v c member)
      exact ⟨absent _ (by decide), absent _ (by decide), absent _ (by decide)⟩

theorem delivers_delayPath (pretty : Bool) (iv : Interval D) :
    Delivers (writeDelayPath pretty iv) [delayPathEvent iv] := by
  refine .padded (blank_indent pretty 4) (.plainEmpty (literalTag_wellFormed
    ["hi".toList, "lo".toList] rfl (by decide) (by decide) ?_) ?_) (blank_newline pretty)
  · intro pair member
    simp only [List.mem_cons, List.not_mem_nil, or_false] at member
    rcases member with rfl | rfl
    · exact ⟨(Bound.toStr_delimiters delayLaws _).1, (Bound.toStr_delimiters delayLaws _).2.1⟩
    · exact ⟨(Bound.toStr_delimiters delayLaws _).1, (Bound.toStr_delimiters delayLaws _).2.1⟩
  · simp [Tag.plain, Tag.render, AttributeSource.plain, AttributeSource.render, Quote.char]

omit delayLaws [Zero D] [RustFloat D] in
theorem delivers_security (coeff : Coefficient D) :
    Delivers ("<".toList ++ coeffName "security".toList ++ " confidentiality=\"".toList ++
      coeff.confidentiality.toStr ++ "\" integrity=\"".toList ++ coeff.integrity.toStr ++
      "\"/>".toList) [securityEvent coeff] := by
  refine .plainEmpty (literalTag_wellFormed ["confidentiality".toList, "integrity".toList] rfl
    (by decide) (by decide) ?_) ?_
  · intro pair member
    simp only [List.mem_cons, List.not_mem_nil, or_false] at member
    rcases member with rfl | rfl
    · exact ⟨(Confidentiality.toStr_delimiters _).1, (Confidentiality.toStr_delimiters _).2.1⟩
    · exact ⟨(Integrity.toStr_delimiters _).1, (Integrity.toStr_delimiters _).2.1⟩
  · simp [Tag.plain, Tag.render, AttributeSource.plain, AttributeSource.render, Quote.char]

omit delayLaws [Zero D] [RustFloat D] in
theorem delivers_linearity (coeff : Coefficient D) :
    Delivers ("<".toList ++ coeffName "linearity".toList ++ " count=\"".toList ++
      coeff.linearity.toStr ++ "\"/>".toList) [linearityEvent coeff] := by
  refine .plainEmpty (literalTag_wellFormed ["count".toList] rfl (by decide) (by decide) ?_) ?_
  · intro pair member
    obtain rfl := List.mem_singleton.mp member
    exact ⟨(Linearity.toStr_delimiters _).1, (Linearity.toStr_delimiters _).2.1⟩
  · simp [Tag.plain, Tag.render, AttributeSource.plain, AttributeSource.render, Quote.char]

theorem delivers_surfaceCoefficient (pretty : Bool) (id : SurfaceId) (coeff : Coefficient D) :
    Delivers (writeSurfaceCoefficient pretty id coeff) (surfaceCoefficientEvents id coeff) := by
  have paths := Delivers.flatMap (delivers_delayPath delayLaws pretty) coeff.timing
  have timing := (Delivers.enclosed
    ("<".toList ++ coeffName "timing".toList ++ ">".toList)
    ("</".toList ++ coeffName "timing".toList ++ ">".toList)
    (bareTag_wellFormed _ (coeffName_isName (by decide))) (by simp [Tag.render, Tag.plain]) rfl
    (paths.padded (blank_newline pretty) (blank_indent pretty 3))).padded
    (blank_indent pretty 3) (blank_newline pretty)
  have security := (delivers_security coeff).padded (blank_indent pretty 3) (blank_newline pretty)
  have linearity := (delivers_linearity coeff).padded (blank_indent pretty 3)
    (blank_newline pretty)
  have inner := ((timing.append security).append linearity).padded (blank_newline pretty)
    (blank_indent pretty 2)
  have tag : (Tag.plain (coeffName "surface-coefficient".toList)
      [("surface-ref".toList, surfaceIdToStr id)]).WellFormed := by
    refine literalTag_wellFormed ["surface-ref".toList] rfl (by decide) (by decide) ?_
    intro pair member
    obtain rfl := List.mem_singleton.mp member
    exact ⟨(surfaceIdToStr_delimiters id).1, (surfaceIdToStr_delimiters id).2.1⟩
  have element := Delivers.enclosed
    ("<".toList ++ coeffName "surface-coefficient".toList ++
      " surface-ref=\"".toList ++ surfaceIdToStr id ++ "\">".toList)
    ("</".toList ++ coeffName "surface-coefficient".toList ++ ">".toList) tag
    (by simp [Tag.plain, Tag.render, AttributeSource.plain, AttributeSource.render, Quote.char])
    rfl inner
  have whole := element.padded (blank_indent pretty 2) (blank_newline pretty)
  simpa only [writeSurfaceCoefficient, surfaceCoefficientEvents, surfaceCoefficientStart,
    timingEvents, List.append_assoc] using whole

theorem delivers_coefficients (pretty : Bool) (img : SessionImageV1 F D) :
    Delivers (img.writeCoefficients pretty) (coefficientsEvents img) := by
  have block : ∀ surf : SurfaceEntry,
      Delivers ((img.coefficientFor surf.id).elim [] (writeSurfaceCoefficient pretty surf.id))
        ((img.coefficientFor surf.id).elim [] (surfaceCoefficientEvents surf.id)) := by
    intro surf
    cases img.coefficientFor surf.id with
    | none => exact .nil
    | some coeff => exact delivers_surfaceCoefficient delayLaws pretty surf.id coeff
  have inner := (Delivers.flatMap block img.base.surfaces).padded (blank_newline pretty)
    (blank_indent pretty 1)
  have tag : (Tag.plain (coeffName "coefficients".toList)
      [("xmlns:".toList ++ coeffPrefix, coefficientsNamespace)]).WellFormed := by
    refine literalTag_wellFormed ["xmlns:".toList ++ coeffPrefix] rfl (by decide) (by decide) ?_
    intro pair member
    obtain rfl := List.mem_singleton.mp member
    exact ⟨by decide, by decide⟩
  have element := Delivers.enclosed
    ("<".toList ++ coeffName "coefficients".toList ++ " xmlns:".toList ++
      coeffPrefix ++ "=\"".toList ++ coefficientsNamespace ++ "\">".toList)
    ("</".toList ++ coeffName "coefficients".toList ++ ">".toList) tag
    (by
      generalize coefficientsNamespace = uri
      simp [Tag.plain, Tag.render, AttributeSource.plain, AttributeSource.render, Quote.char])
    rfl inner
  have whole := element.padded (blank_indent pretty 1) (blank_newline pretty)
  simpa only [SessionImageV1.writeCoefficients, coefficientsEvents, List.append_assoc] using whole

end

/-! ## Element names -/

def coeffLocalNames : List Str :=
  ["coefficients".toList, "surface-coefficient".toList, "timing".toList, "delay-path".toList,
    "security".toList, "linearity".toList]

def coeffNames : List Str :=
  coeffLocalNames.map coeffName

theorem coefficientsEvents_named {kind : Str → Prop} (named : ∀ name ∈ coeffNames, kind name)
    (img : SessionImageV1 F D) : AllNamed kind (coefficientsEvents img) := by
  have member : ∀ name ∈ coeffLocalNames, kind (coeffName name) :=
    fun name inside => named _ (List.mem_map_of_mem inside)
  refine .element (member _ (by simp [coeffLocalNames])) (.flatMap (fun surf => ?_) _)
  cases img.coefficientFor surf.id with
  | none => exact .nil
  | some coeff =>
      have timing : AllNamed kind (timingEvents coeff.timing) :=
        .element (member _ (by simp [coeffLocalNames])) (.flatMap (fun _ => .emptyTag (member _ (by simp [coeffLocalNames]))) _)
      exact .element (member _ (by simp [coeffLocalNames])) (.append (.append timing
        (.emptyTag (member _ (by simp [coeffLocalNames])))) (.emptyTag (member _ (by simp [coeffLocalNames]))))

theorem coeffNames_unknown : ∀ name ∈ coeffNames, ParseState.UnknownName name := by
  unfold ParseState.UnknownName
  decide

def baseNames : List Str :=
  ["session".toList, "surfaces".toList, "surface".toList, "host".toList, "address".toList,
    "os".toList, "machine".toList, "capture".toList, "codec".toList, "dimensions".toList,
    "layout".toList, "strip".toList, "focus".toList]

theorem surfaceNames_subset : surfaceNames ⊆ baseNames := by decide

section

omit [Zero D] [RustFloat D]

variable {kind : Str → Prop} (named : ∀ name ∈ baseNames, kind name)

include named

theorem layoutEvents_named [Zero F] [RustFloat F] (layout : Layout F) :
    AllNamed kind (layoutEvents layout) := by
  refine .element (named _ (by simp [baseNames]))
    (.append (.emptyTag (named _ (by simp [baseNames]))) ?_)
  cases layout.focus with
  | none => exact .nil
  | some focus => exact .emptyTag (named _ (by simp [baseNames]))

end

end Simulboot
