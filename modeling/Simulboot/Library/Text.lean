import Mathlib.Algebra.Group.Nat.Defs
import Mathlib.Data.List.DropRight

/-!
# Text

Strings as sequences of Unicode scalar values, byte buffers, and the string and
byte operations of the Rust standard library that programs over them call.
-/

set_option autoImplicit false

namespace Library

/-- A `String` or `&str`: its characters in order. -/
abbrev Str := List Char

/-- A `Vec<u8>` or `&[u8]`. -/
abbrev Bytes := List UInt8

/-- What is decided of all characters of a text is decided along the text, and
not by running through all characters there are. -/
instance decidableForallMem (p : Char → Prop) [DecidablePred p] (text : Str) :
    Decidable (∀ c ∈ text, p c) :=
  List.decidableBAll p text

/-! ## Characters and replacement -/

/-- `str::replace` with a one-character pattern. -/
def replaceChar (pattern : Char) (replacement : Str) (text : Str) : Str :=
  text.flatMap fun c => if c = pattern then replacement else [c]

/-- `str::strip_prefix`. -/
def stripPrefix (pattern text : Str) : Option Str :=
  if pattern.isPrefixOf text then some (text.drop pattern.length) else none

/-- `str::rsplit_once` with a one-character pattern: the text before and after
the last occurrence. -/
def rsplitOnce (pattern : Char) : Str → Option (Str × Str)
  | [] => none
  | c :: rest =>
      match rsplitOnce pattern rest with
      | some (before, after) => some (c :: before, after)
      | none => if c = pattern then some ([], rest) else none

@[simp] theorem replaceChar_append (pattern : Char) (replacement left right : Str) :
    replaceChar pattern replacement (left ++ right) =
      replaceChar pattern replacement left ++ replaceChar pattern replacement right := by
  simp [replaceChar]

theorem replaceChar_of_not_mem {pattern : Char} {text : Str} (absent : pattern ∉ text)
    (replacement : Str) : replaceChar pattern replacement text = text := by
  induction text with
  | nil => rfl
  | cons c rest ih =>
      rw [List.mem_cons, not_or] at absent
      obtain ⟨other, absentBehind⟩ := absent
      have kept : (if c = pattern then replacement else [c]) = [c] := if_neg (Ne.symm other)
      have split : replaceChar pattern replacement (c :: rest) =
          (if c = pattern then replacement else [c]) ++ replaceChar pattern replacement rest := rfl
      rw [split, kept, ih absentBehind]
      rfl

theorem stripPrefix_append (pattern rest : Str) :
    stripPrefix pattern (pattern ++ rest) = some rest := by
  have present : pattern.isPrefixOf (pattern ++ rest) = true := by
    simp [List.isPrefixOf_iff_prefix]
  simp [stripPrefix, present]

theorem stripPrefix_eq_some_iff {pattern text rest : Str} :
    stripPrefix pattern text = some rest ↔ text = pattern ++ rest := by
  constructor
  · intro found
    unfold stripPrefix at found
    split at found
    · rename_i present
      obtain ⟨tail, rfl⟩ := List.isPrefixOf_iff_prefix.mp present
      simpa using found
    · simp at found
  · rintro rfl
    exact stripPrefix_append pattern rest

theorem rsplitOnce_eq_none_iff {pattern : Char} {text : Str} :
    rsplitOnce pattern text = none ↔ pattern ∉ text := by
  induction text with
  | nil => simp [rsplitOnce]
  | cons c rest ih =>
      cases split : rsplitOnce pattern rest with
      | some parts =>
          have present : pattern ∈ rest := by
            by_contra absent
            simp [ih.mpr absent] at split
          simp [rsplitOnce, split, present]
      | none =>
          have absent := ih.mp split
          by_cases same : c = pattern
          · simp [rsplitOnce, split, same]
          · simp [rsplitOnce, split, same, absent, Ne.symm same]

theorem rsplitOnce_append {pattern : Char} {before after : Str} (absent : pattern ∉ after) :
    rsplitOnce pattern (before ++ pattern :: after) = some (before, after) := by
  induction before with
  | nil => simp [rsplitOnce, rsplitOnce_eq_none_iff.mpr absent]
  | cons c rest ih => simp [rsplitOnce, ih]

theorem rsplitOnce_eq_some {pattern : Char} {text before after : Str}
    (found : rsplitOnce pattern text = some (before, after)) :
    text = before ++ pattern :: after ∧ pattern ∉ after := by
  induction text generalizing before with
  | nil => cases found
  | cons c rest ih =>
      unfold rsplitOnce at found
      cases split : rsplitOnce pattern rest with
      | some parts =>
          simp only [split, Option.some.injEq, Prod.mk.injEq] at found
          obtain ⟨rfl, rfl⟩ := found
          obtain ⟨same, absent⟩ := ih split
          exact ⟨congrArg (c :: ·) same, absent⟩
      | none =>
          simp only [split, Option.ite_none_right_eq_some, Option.some.injEq,
            Prod.mk.injEq] at found
          obtain ⟨rfl, rfl, rfl⟩ := found
          exact ⟨rfl, rsplitOnce_eq_none_iff.mp split⟩

/-! ## Trimming -/

/-- `str::trim_matches`: both ends lose the characters that satisfy `blank`. -/
def trimMatches (blank : Char → Bool) (text : Str) : Str :=
  (text.dropWhile blank).rdropWhile blank

theorem trimMatches_eq_nil_iff {blank : Char → Bool} {text : Str} :
    trimMatches blank text = [] ↔ ∀ c ∈ text, blank c = true := by
  unfold trimMatches
  rw [List.rdropWhile_eq_nil_iff]
  constructor
  · intro stripped c member
    rw [← List.takeWhile_append_dropWhile (p := blank) (l := text)] at member
    rcases List.mem_append.mp member with before | after
    · exact List.mem_takeWhile_imp before
    · exact stripped c after
  · intro all c member
    exact all c ((List.dropWhile_suffix blank).subset member)

theorem trimMatches_eq_self_iff {blank : Char → Bool} {text : Str} :
    trimMatches blank text = text ↔
      (∀ c, text.head? = some c → blank c = false) ∧
        ∀ c, text.getLast? = some c → blank c = false := by
  unfold trimMatches
  cases text with
  | nil => simp
  | cons first rest =>
      by_cases leading : blank first = true
      · constructor
        · intro same
          have shorter : ((first :: rest).dropWhile blank).length ≤ rest.length := by
            rw [List.dropWhile_cons_of_pos leading]
            exact (List.dropWhile_suffix blank).length_le
          have bound := (List.rdropWhile_prefix blank
            ((first :: rest).dropWhile blank)).length_le
          rw [same] at bound
          simp only [List.length_cons] at bound
          omega
        · rintro ⟨head, _⟩
          simp [head first rfl] at leading
      · have kept : blank first = false := by simpa using leading
        rw [List.dropWhile_cons_of_neg (by simp [kept]), List.rdropWhile_eq_self_iff]
        constructor
        · intro last
          refine ⟨fun c head => ?_, fun c final => ?_⟩
          · have same : first = c := by simpa using head
            exact same ▸ kept
          · have found := last (by simp)
            rw [List.getLast?_eq_some_getLast (by simp : first :: rest ≠ [])] at final
            have same := Option.some.inj final
            rw [same] at found
            simpa using found
        · rintro ⟨_, last⟩ nonempty
          have found := last _ (List.getLast?_eq_some_getLast nonempty)
          simp [found]

theorem trimMatches_idem (blank : Char → Bool) (text : Str) :
    trimMatches blank (trimMatches blank text) = trimMatches blank text := by
  rw [trimMatches_eq_self_iff]
  constructor
  · intro c head
    obtain ⟨tail, split⟩ := List.rdropWhile_prefix blank (text.dropWhile blank)
    have front : (text.dropWhile blank).head? = some c := by
      rw [← split, List.head?_append]
      simp only [trimMatches] at head
      rw [head]
      rfl
    have same := List.head?_dropWhile_not blank text
    rw [front] at same
    simpa using same
  · intro c final
    unfold trimMatches at final
    have nonempty : (text.dropWhile blank).rdropWhile blank ≠ [] := by
      intro empty
      simp [empty] at final
    have kept := List.rdropWhile_last_not blank _ nonempty
    rw [List.getLast?_eq_some_getLast nonempty] at final
    rw [Option.some.inj final] at kept
    simpa using kept

/-- Blank text on either side of a text does not survive trimming. -/
theorem trimMatches_pad {blank : Char → Bool} {before text after : Str}
    (front : ∀ c ∈ before, blank c = true) (back : ∀ c ∈ after, blank c = true) :
    trimMatches blank (before ++ text ++ after) = trimMatches blank text := by
  unfold trimMatches
  rw [List.append_assoc, List.dropWhile_append_of_pos front]
  have trailing : ∀ (kept : Str),
      (kept ++ after).rdropWhile blank = kept.rdropWhile blank := by
    intro kept
    simp only [List.rdropWhile, List.reverse_append]
    rw [List.dropWhile_append_of_pos (by simpa using back)]
  by_cases allBlank : ∀ c ∈ text, blank c = true
  · have cleared : (text ++ after).dropWhile blank = [] := by
      rw [List.dropWhile_eq_nil_iff]
      intro c member
      rcases List.mem_append.mp member with inText | inAfter
      · exact allBlank c inText
      · exact back c inAfter
    have clearedText : text.dropWhile blank = [] := List.dropWhile_eq_nil_iff.mpr allBlank
    rw [cleared, clearedText]
  · have remains : text.dropWhile blank ≠ [] := by
      intro empty
      exact allBlank (List.dropWhile_eq_nil_iff.mp empty)
    have pushed : (text ++ after).dropWhile blank = text.dropWhile blank ++ after := by
      rw [List.dropWhile_append]
      simp [remains]
    rw [pushed, trailing]

theorem trimMatches_split (blank : Char → Bool) (text : Str) :
    ∃ before after, text = before ++ trimMatches blank text ++ after ∧
      (∀ c ∈ before, blank c = true) ∧ ∀ c ∈ after, blank c = true := by
  obtain ⟨after, split⟩ := List.rdropWhile_prefix blank (text.dropWhile blank)
  refine ⟨text.takeWhile blank, after, ?_, fun c member => List.mem_takeWhile_imp member, ?_⟩
  · unfold trimMatches
    rw [List.append_assoc, split, List.takeWhile_append_dropWhile]
  · intro c member
    have whole : (text.dropWhile blank).rdropWhile blank ++
        (text.dropWhile blank).rtakeWhile blank = text.dropWhile blank := by
      simp only [List.rdropWhile, List.rtakeWhile]
      rw [← List.reverse_append, List.takeWhile_append_dropWhile, List.reverse_reverse]
    have tail : after = (text.dropWhile blank).rtakeWhile blank :=
      List.append_cancel_left (split.trans whole.symm)
    rw [tail] at member
    exact List.mem_rtakeWhile_imp member

/-- What is left of a text that is cut off is where the trimmed text begins. -/
theorem trimMatches_prefix {blank : Char → Bool} {cut text : Str} (ended : cut <+: text) :
    trimMatches blank cut <+: trimMatches blank text := by
  obtain ⟨rest, rfl⟩ := ended
  by_cases allBlank : ∀ c ∈ cut, blank c = true
  · rw [trimMatches_eq_nil_iff.mpr allBlank]
    exact List.nil_prefix
  · have remains : cut.dropWhile blank ≠ [] := by
      intro empty
      exact allBlank (List.dropWhile_eq_nil_iff.mp empty)
    unfold trimMatches
    rw [List.dropWhile_append]
    simp only [List.isEmpty_iff, remains, if_false]
    generalize cut.dropWhile blank = kept
    by_cases trailing : ∀ c ∈ rest, blank c = true
    · have passed : ∀ c ∈ rest.reverse, blank c = true := by simpa using trailing
      simp only [List.rdropWhile, List.reverse_append, List.dropWhile_append_of_pos passed,
        List.prefix_rfl]
    · refine (List.rdropWhile_prefix blank kept).trans ?_
      have stays : (rest.reverse.dropWhile blank) ≠ [] := by
        intro empty
        exact trailing (by simpa using List.dropWhile_eq_nil_iff.mp empty)
      simp only [List.rdropWhile, List.reverse_append]
      rw [List.dropWhile_append]
      simp [stays]

/-- Trimming commutes with a character code that leaves blank characters alone
and begins and ends every other code with characters that are not blank. -/
theorem trimMatches_flatMap {blank : Char → Bool} {code : Char → Str}
    (kept : ∀ c, blank c = true → code c = [c]) (nonempty : ∀ c, code c ≠ [])
    (first : ∀ c, blank c = false → ∀ d, (code c).head? = some d → blank d = false)
    (last : ∀ c, blank c = false → ∀ d, (code c).getLast? = some d → blank d = false)
    (text : Str) :
    trimMatches blank (text.flatMap code) = (trimMatches blank text).flatMap code := by
  have blankText : ∀ pad : Str, (∀ c ∈ pad, blank c = true) → pad.flatMap code = pad := by
    intro pad allBlank
    induction pad with
    | nil => rfl
    | cons c rest ih =>
        rw [List.flatMap_cons, kept c (allBlank c (by simp)),
          ih fun other member => allBlank other (List.mem_cons_of_mem _ member)]
        rfl
  obtain ⟨before, after, split, front, back⟩ := trimMatches_split blank text
  obtain ⟨ends, finish⟩ := trimMatches_eq_self_iff.mp (trimMatches_idem blank text)
  generalize trimMatches blank text = kernel at split ends finish ⊢
  rw [split, List.flatMap_append, List.flatMap_append, blankText before front,
    blankText after back, trimMatches_pad front back, trimMatches_eq_self_iff]
  constructor
  · intro d head
    cases kernel with
    | nil => simp at head
    | cons c rest =>
        have own : (code c).head? = some d := by
          rw [List.flatMap_cons, List.head?_append_of_ne_nil _ (nonempty c)] at head
          exact head
        exact first c (ends c rfl) d own
  · intro d final
    cases kernel using List.reverseRecOn with
    | nil => simp at final
    | append_singleton rest c _ =>
        have own : (code c).getLast? = some d := by
          rw [List.flatMap_append, List.flatMap_singleton,
            List.getLast?_append_of_ne_nil _ (nonempty c)] at final
          exact final
        exact last c (finish c (by simp)) d own

end Library
