import Simulboot.Library.UniqueReading
import Simulboot.Session

/-!
# Escaping

Escaped text and escaped attribute values as sequences of literal characters and
entity references: they hold no delimiter and stand for the text they came from.
-/

set_option autoImplicit false

namespace Simulboot

open Library Library.Xml

def textUnit (c : Char) : TextUnit :=
  if c = '&' then .reference .amp
  else if c = '<' then .reference .lt
  else if c = '>' then .reference .gt
  else .literal c

def attrUnit (c : Char) : TextUnit :=
  if c = '"' then .reference .quot else textUnit c

private theorem replaceChar_flatMap (pattern : Char) (replacement : Str) (f : Char → Str) (s : Str) :
    replaceChar pattern replacement (s.flatMap f) =
      s.flatMap fun c => replaceChar pattern replacement (f c) := by
  induction s with
  | nil => rfl
  | cons c rest ih => simp [ih]

theorem escapeText_eq (s : Str) : escapeText s = (s.map textUnit).flatMap TextUnit.written := by
  have start : replaceChar '&' "&amp;".toList s =
      s.flatMap fun c => if c = '&' then "&amp;".toList else [c] := rfl
  unfold escapeText
  rw [start, replaceChar_flatMap, replaceChar_flatMap, List.flatMap_map]
  congr 1
  funext c
  by_cases amp : c = '&'
  · subst amp; rfl
  · by_cases lt : c = '<'
    · subst lt; rfl
    · by_cases gt : c = '>'
      · subst gt; rfl
      · simp [textUnit, TextUnit.written, replaceChar, amp, lt, gt]

private theorem quote_not_mem_textUnit {c : Char} (other : c ≠ '"') : '"' ∉ (textUnit c).written := by
  unfold textUnit
  split_ifs with amp lt gt
  · decide
  · decide
  · decide
  · simp [TextUnit.written, Ne.symm other]

private theorem escapeAttr_eq (s : Str) : escapeAttr s = (s.map attrUnit).flatMap TextUnit.written := by
  have outer : escapeAttr s = replaceChar '"' "&quot;".toList (escapeText s) := rfl
  rw [outer, escapeText_eq, List.flatMap_map, List.flatMap_map, replaceChar_flatMap]
  congr 1
  funext c
  by_cases quot : c = '"'
  · subst quot; rfl
  · unfold attrUnit
    rw [if_neg quot, replaceChar_of_not_mem (quote_not_mem_textUnit quot)]

@[simp] theorem textUnit_value (c : Char) : (textUnit c).value = c := by
  unfold textUnit
  split_ifs with amp lt gt <;> simp_all [TextUnit.value, Entity.value]

@[simp] theorem attrUnit_value (c : Char) : (attrUnit c).value = c := by
  unfold attrUnit
  split_ifs with quot
  · simp [TextUnit.value, Entity.value, quot]
  · exact textUnit_value c

private theorem textUnit_wellFormed (c : Char) : (textUnit c).WellFormed := by
  unfold textUnit
  split_ifs with amp lt gt <;> simp_all [TextUnit.WellFormed]

private theorem attrUnit_wellFormed (c : Char) : (attrUnit c).WellFormed := by
  unfold attrUnit
  split_ifs with quot
  · trivial
  · exact textUnit_wellFormed c

private theorem textUnit_written_delimiters (c : Char) :
    '<' ∉ (textUnit c).written ∧ '>' ∉ (textUnit c).written := by
  unfold textUnit
  split_ifs with amp lt gt
  · decide
  · decide
  · decide
  · simp [TextUnit.written, Ne.symm lt, Ne.symm gt]

private theorem attrUnit_written_delimiters (c : Char) :
    '<' ∉ (attrUnit c).written ∧ '"' ∉ (attrUnit c).written := by
  unfold attrUnit
  split_ifs with quot
  · decide
  · exact ⟨(textUnit_written_delimiters c).1, quote_not_mem_textUnit quot⟩

theorem lt_not_mem_escapeText (s : Str) : '<' ∉ escapeText s := by
  rw [escapeText_eq]
  simp [textUnit_written_delimiters]

theorem gt_not_mem_escapeText (s : Str) : '>' ∉ escapeText s := by
  rw [escapeText_eq]
  simp [textUnit_written_delimiters]

theorem lt_not_mem_escapeAttr (s : Str) : '<' ∉ escapeAttr s := by
  rw [escapeAttr_eq]
  simp [attrUnit_written_delimiters]

theorem quote_not_mem_escapeAttr (s : Str) : '"' ∉ escapeAttr s := by
  rw [escapeAttr_eq]
  simp [attrUnit_written_delimiters]

/-- A unit per character that stands for it makes the written text injective. -/
private theorem written_injective {unit : Char → TextUnit} (value : ∀ c, (unit c).value = c)
    (wellFormed : ∀ c, (unit c).WellFormed) :
    Function.Injective fun s : Str => (s.map unit).flatMap TextUnit.written := by
  have readable : UniquelyReadable fun c => (unit c).written := by
    intro left right afterLeft afterRight same
    obtain ⟨units, rests⟩ :=
      TextUnit.written_reads (wellFormed left) (wellFormed right) same
    exact ⟨by rw [← value left, units, value], rests⟩
  have nonempty : ∀ c, (unit c).written ≠ [] := by
    intro c
    cases unit c <;> simp [TextUnit.written]
  intro left right same
  simp only [List.flatMap_map] at same
  exact readable.flatMap_injective nonempty same

theorem escapeText_injective : Function.Injective escapeText := by
  intro left right same
  rw [escapeText_eq, escapeText_eq] at same
  exact written_injective textUnit_value textUnit_wellFormed same

theorem escapeAttr_injective : Function.Injective escapeAttr := by
  intro left right same
  rw [escapeAttr_eq, escapeAttr_eq] at same
  exact written_injective attrUnit_value attrUnit_wellFormed same

/-- White space is written as it is, so trimming commutes with escaping. -/
theorem trim_escapeText (s : Str) : trim (escapeText s) = escapeText (trim s) := by
  have written : ∀ c, (textUnit c).written ≠ [] := by
    intro c
    cases textUnit c <;> simp [TextUnit.written]
  rw [escapeText_eq, escapeText_eq, List.flatMap_map, List.flatMap_map]
  unfold trim
  refine trimMatches_flatMap ?_ written ?_ ?_ s
  · intro c space
    have literal : c ≠ '&' ∧ c ≠ '<' ∧ c ≠ '>' := by
      refine ⟨?_, ?_, ?_⟩ <;> rintro rfl <;> exact absurd space (by decide)
    simp [textUnit, literal, TextUnit.written]
  · intro c mark d head
    cases unit : textUnit c with
    | literal other =>
        have value := textUnit_value c
        rw [unit] at value head
        obtain rfl : other = d := by simpa [TextUnit.written] using head
        exact (show other = c from value) ▸ mark
    | reference entity =>
        rw [unit] at head
        obtain rfl : '&' = d := by simpa [TextUnit.written] using head
        decide
  · intro c mark d final
    cases unit : textUnit c with
    | literal other =>
        have value := textUnit_value c
        rw [unit] at value final
        obtain rfl : other = d := by simpa [TextUnit.written] using final
        exact (show other = c from value) ▸ mark
    | reference entity =>
        rw [unit, TextUnit.written, List.getLast?_concat] at final
        obtain rfl : ';' = d := by simpa using final
        decide

theorem escapeText_eq_nil_iff (s : Str) : escapeText s = [] ↔ s = [] := by
  have same := escapeText_injective.eq_iff (a := s) (b := [])
  exact same

theorem fmtF32_delimiters {F : Type} [Zero F] [RustFloat F] (laws : RustFloat.Documented F)
    (v : F) : '"' ∉ fmtF32 v ∧ '<' ∉ fmtF32 v := by
  have absent : ∀ c, c ∉ RustFloat.alphabet → c ∉ fmtF32 v := fun c other member =>
    other (laws.displayUnsignedZero_alphabet v c member)
  exact ⟨absent '"' (by decide), absent '<' (by decide)⟩

/-! ## Reading escaped text back -/

theorem unescape_eq_ok {xml : QuickXml} {raw value : Str} :
    unescape xml raw = .ok value ↔ xml.unescape raw = .ok value := by
  unfold unescape
  cases xml.unescape raw <;> simp [Except.mapError]

section

variable {xml : QuickXml} (documented : Documented xml)

include documented

theorem unescape_escapeText (s : Str) : unescape xml (escapeText s) = .ok s := by
  have written := documented.unescape_written (s.map textUnit) (by simp [textUnit_wellFormed])
  rw [unescape, escapeText_eq, written]
  simp [Except.mapError, Function.comp_def]

/-- Text without an ampersand stands for itself. -/
theorem unescape_plain {raw : Str} (plain : '&' ∉ raw) : unescape xml raw = .ok raw := by
  have wellFormed : ∀ unit ∈ raw.map TextUnit.literal, unit.WellFormed := by
    intro unit member
    obtain ⟨c, inside, rfl⟩ := List.mem_map.mp member
    rintro rfl
    exact plain inside
  have written := documented.unescape_written (raw.map .literal) wellFormed
  have same : (raw.map TextUnit.literal).flatMap TextUnit.written = raw := by
    simp [List.flatMap_map, TextUnit.written]
  rw [same] at written
  rw [unescape, written]
  simp [Except.mapError, Function.comp_def, TextUnit.value]

theorem unescape_displayU32 (n : UInt32) : unescape xml (displayU32 n) = .ok (displayU32 n) :=
  unescape_plain documented (not_mem_displayNat n.toNat (by decide))

theorem unescape_fmtF32 {F : Type} [Zero F] [RustFloat F] (laws : RustFloat.Documented F) (v : F) :
    unescape xml (fmtF32 v) = .ok (fmtF32 v) :=
  unescape_plain documented fun member =>
    absurd (laws.displayUnsignedZero_alphabet v _ member) (by decide)

theorem unescape_escapeAttr (s : Str) : unescape xml (escapeAttr s) = .ok s := by
  have written := documented.unescape_written (s.map attrUnit) (by simp [attrUnit_wellFormed])
  rw [unescape, escapeAttr_eq, written]
  simp [Except.mapError, Function.comp_def]

end

end Simulboot
