import Simulboot.Library.Text

/-!
# UTF-8

The conversions between strings and bytes, and the searches over byte buffers
and lines of text.
-/

set_option autoImplicit false

namespace Library

/-- `str::as_bytes` and `String::into_bytes`. -/
def utf8 (text : Str) : Bytes :=
  text.flatMap String.utf8EncodeChar

/-- `String::from_utf8`. -/
def fromUtf8 (data : Bytes) : Option Str :=
  data.toByteArray.utf8Decode?.map Array.toList

@[simp] theorem utf8_append (left right : Str) : utf8 (left ++ right) = utf8 left ++ utf8 right := by
  simp [utf8]

@[simp] theorem fromUtf8_utf8 (text : Str) : fromUtf8 (utf8 text) = some text := by
  have decoded := List.utf8Decode?_utf8Encode (l := text)
  rw [List.utf8Encode] at decoded
  simp [fromUtf8, utf8, decoded]

theorem utf8_injective : Function.Injective utf8 := by
  intro left right same
  have decoded := congrArg fromUtf8 same
  simpa using decoded

theorem utf8_ascii {text : Str} (ascii : ∀ c ∈ text, c.toNat < 128) :
    utf8 text = text.map Char.toUInt8 := by
  induction text with
  | nil => rfl
  | cons c rest ih =>
      have small : c.utf8Size = 1 := by
        have bound := ascii c (by simp)
        rw [Char.utf8Size_eq_one_iff, UInt32.le_iff_toNat_le]
        change c.toNat ≤ 127
        omega
      have tail := ih fun other member => ascii other (by simp [member])
      simp only [utf8, List.flatMap_cons, List.map_cons] at tail ⊢
      rw [String.utf8EncodeChar_eq_singleton small, tail]
      rfl

theorem fromUtf8_append (text : Str) (rest : Bytes) :
    fromUtf8 (utf8 text ++ rest) = (fromUtf8 rest).map (text ++ ·) := by
  induction text with
  | nil => simp [utf8]
  | cons c others ih =>
      have first := ByteArray.utf8Decode?_utf8Encode_singleton_append
        (l := (utf8 others ++ rest).toByteArray) (c := c)
      have bytes : [c].utf8Encode ++ (utf8 others ++ rest).toByteArray =
          (utf8 (c :: others) ++ rest).toByteArray := by
        simp [List.utf8Encode, utf8]
      rw [bytes] at first
      unfold fromUtf8 at ih ⊢
      rw [first]
      cases decoded : (utf8 others ++ rest).toByteArray.utf8Decode? with
      | none => cases tail : rest.toByteArray.utf8Decode? <;> simp_all
      | some chars => cases tail : rest.toByteArray.utf8Decode? <;> simp_all

theorem utf8_eq_nil_iff {text : Str} : utf8 text = [] ↔ text = [] := by
  constructor
  · intro empty
    have decoded := fromUtf8_utf8 text
    rw [empty] at decoded
    simpa [fromUtf8] using decoded.symm
  · rintro rfl
    rfl

theorem eq_utf8_of_fromUtf8 {data : Bytes} {text : Str} (decoded : fromUtf8 data = some text) :
    data = utf8 text := by
  have valid : data.toByteArray.utf8Decode?.isSome = true := by
    unfold fromUtf8 at decoded
    cases result : data.toByteArray.utf8Decode? with
    | none => simp [result] at decoded
    | some _ => rfl
  obtain ⟨chars, same⟩ := ByteArray.isSome_utf8Decode?_iff.mp valid
  have encoded : data = utf8 chars := by
    have bytes := congrArg ByteArray.data same
    simpa [utf8, List.utf8Encode] using bytes
  rw [encoded, fromUtf8_utf8] at decoded
  rw [encoded, Option.some.inj decoded]

theorem eq_of_utf8_append {c d : Char} {rest : Bytes} (same : utf8 [c] = utf8 [d] ++ rest) :
    c = d ∧ rest = [] := by
  have decoded := congrArg fromUtf8 same
  rw [fromUtf8_utf8, fromUtf8_append] at decoded
  obtain ⟨later, found, joined⟩ := Option.map_eq_some_iff.mp decoded.symm
  obtain ⟨rfl, rfl⟩ : d = c ∧ later = [] := by simpa using joined
  refine ⟨rfl, ?_⟩
  rw [eq_utf8_of_fromUtf8 found]
  rfl

/-- All bytes of a longer encoding lie beyond ASCII. -/
theorem utf8EncodeChar_high {c : Char} (wide : 127 < c.val.toNat) {byte : UInt8}
    (member : byte ∈ String.utf8EncodeChar c) : 128 ≤ byte.toNat := by
  have high : ∀ n, 128 ≤ n % 256 → 128 ≤ (UInt8.ofNat n).toNat := by
    intro n bound
    rwa [UInt8.toNat_ofNat']
  simp only [String.utf8EncodeChar] at member
  rw [if_neg (by omega)] at member
  split at member
  · simp only [List.mem_cons, List.not_mem_nil, or_false] at member
    obtain rfl | rfl := member <;> exact high _ (by omega)
  · split at member
    · simp only [List.mem_cons, List.not_mem_nil, or_false] at member
      obtain rfl | rfl | rfl := member <;> exact high _ (by omega)
    · simp only [List.mem_cons, List.not_mem_nil, or_false] at member
      obtain rfl | rfl | rfl | rfl := member <;> exact high _ (by omega)

theorem mem_utf8_return {text : Str} (member : (13 : UInt8) ∈ utf8 text) : '\r' ∈ text := by
  obtain ⟨c, inside, byte⟩ := List.mem_flatMap.mp member
  have same : c = '\r' := by
    by_cases ascii : c.val.toNat ≤ 127
    · rw [String.utf8EncodeChar, if_pos ascii, List.mem_singleton] at byte
      have value := congrArg UInt8.toNat byte
      rw [UInt8.toNat_ofNat', Nat.mod_eq_of_lt (by omega)] at value
      rw [← Char.ofNat_toNat c]
      exact congrArg Char.ofNat value.symm
    · have high := utf8EncodeChar_high (by omega) byte
      exact absurd high (by decide)
  exact same ▸ inside

/-- How many continuation bytes a first byte asks for, and the range of the
first of them. -/
def continuationRange (first : UInt8) : Option (Nat × UInt8 × UInt8) :=
  if 0xC2 ≤ first ∧ first ≤ 0xDF then some (1, 0x80, 0xBF)
  else if first = 0xE0 then some (2, 0xA0, 0xBF)
  else if first = 0xED then some (2, 0x80, 0x9F)
  else if 0xE1 ≤ first ∧ first ≤ 0xEF then some (2, 0x80, 0xBF)
  else if first = 0xF0 then some (3, 0x90, 0xBF)
  else if 0xF1 ≤ first ∧ first ≤ 0xF3 then some (3, 0x80, 0xBF)
  else if first = 0xF4 then some (3, 0x80, 0x8F)
  else none

/-- The length of the ill-formed sequence at the front of a buffer that one
replacement character stands for. -/
def maximalSubpart : Bytes → Nat
  | [] => 0
  | first :: rest =>
      match continuationRange first, rest with
      | some (needed, low, high), second :: later =>
          if low ≤ second ∧ second ≤ high then
            2 + ((later.take (needed - 1)).takeWhile fun byte => 0x80 ≤ byte ∧ byte ≤ 0xBF).length
          else 1
      | _, _ => 1

/-- The character at the front of a buffer, with the bytes it takes. -/
def frontChar (data : Bytes) : Option (Char × Nat) :=
  [1, 2, 3, 4].findSome? fun size =>
    match fromUtf8 (data.take size) with
    | some [c] => some (c, size)
    | _ => none

/-- Decoding with U+FFFD in place of every ill-formed sequence. -/
def replaceIllFormed : Nat → Bytes → Str
  | 0, _ => []
  | _, [] => []
  | fuel + 1, data =>
      match frontChar data with
      | some (c, size) => c :: replaceIllFormed fuel (data.drop size)
      | none => '\uFFFD' :: replaceIllFormed fuel (data.drop (maximalSubpart data))

/-- `String::from_utf8_lossy`. -/
def fromUtf8Lossy (data : Bytes) : Str :=
  match fromUtf8 data with
  | some text => text
  | none => replaceIllFormed data.length data

@[simp] theorem fromUtf8Lossy_utf8 (text : Str) : fromUtf8Lossy (utf8 text) = text := by
  simp [fromUtf8Lossy]

private theorem findSome?_least {β : Type} {f : Nat → Option β} {b : β} {n : Nat} {sizes : List Nat}
    (ordered : sizes.Pairwise (· < ·)) (among : n ∈ sizes) (found : f n = some b)
    (before : ∀ m < n, f m = none) : sizes.findSome? f = some b := by
  induction ordered with
  | nil => cases among
  | @cons size rest less _ ih =>
      obtain rfl | later := List.mem_cons.mp among
      · rw [List.findSome?_cons, found]
      · rw [List.findSome?_cons, before size (less n later)]
        exact ih later

theorem frontChar_utf8 (c : Char) (rest : Bytes) :
    frontChar (utf8 [c] ++ rest) = some (c, (utf8 [c]).length) := by
  have size : (utf8 [c]).length = c.utf8Size := by simp [utf8]
  have whole : fromUtf8 ((utf8 [c] ++ rest).take (utf8 [c]).length) = some [c] := by
    rw [List.take_left, fromUtf8_utf8]
  have short : ∀ n < (utf8 [c]).length, ∀ d, fromUtf8 ((utf8 [c] ++ rest).take n) ≠ some [d] := by
    intro n less d decoded
    rw [List.take_append_of_le_length less.le] at decoded
    have split := List.take_append_drop n (utf8 [c])
    rw [eq_utf8_of_fromUtf8 decoded] at split
    have none := (eq_of_utf8_append split.symm).2
    rw [List.drop_eq_nil_iff] at none
    omega
  have among : (utf8 [c]).length ∈ [1, 2, 3, 4] := by
    have positive := c.utf8Size_pos
    have most := c.utf8Size_le_four
    simp only [List.mem_cons, List.not_mem_nil, or_false]
    omega
  unfold frontChar
  refine findSome?_least (by decide) among ?_ fun n less => ?_
  · simp only [whole]
  · split
    · rename_i d decoded
      exact absurd decoded (short n less d)
    · rfl

theorem length_le_utf8 (text : Str) : text.length ≤ (utf8 text).length := by
  induction text with
  | nil => exact Nat.zero_le _
  | cons c rest ih =>
      have size : 1 ≤ (String.utf8EncodeChar c).length := by
        rw [String.length_utf8EncodeChar]
        exact c.utf8Size_pos
      simp only [utf8, List.flatMap_cons, List.length_append, List.length_cons] at ih ⊢
      omega

/-- Text in front of any bytes comes through a lossy conversion. -/
theorem fromUtf8Lossy_append (text : Str) (rest : Bytes) :
    ∃ tail, fromUtf8Lossy (utf8 text ++ rest) = text ++ tail := by
  have replaced : ∀ fuel, replaceIllFormed (fuel + text.length) (utf8 text ++ rest) =
      text ++ replaceIllFormed fuel rest := by
    intro fuel
    induction text with
    | nil => rfl
    | cons c others ih =>
        have bytes : utf8 (c :: others) ++ rest = utf8 [c] ++ (utf8 others ++ rest) := by
          rw [← List.append_assoc, ← utf8_append, List.singleton_append]
        have some : utf8 [c] ++ (utf8 others ++ rest) ≠ [] := by
          intro empty
          exact absurd (utf8_eq_nil_iff.mp (List.append_eq_nil_iff.mp empty).1) (by simp)
        rw [bytes, List.length_cons, ← Nat.add_assoc, replaceIllFormed]
        · simp only [frontChar_utf8, List.drop_left]
          rw [ih, List.cons_append]
        · exact some
  unfold fromUtf8Lossy
  rw [fromUtf8_append]
  cases fromUtf8 rest with
  | some tail => exact ⟨tail, rfl⟩
  | none =>
      obtain ⟨fuel, size⟩ : ∃ fuel, (utf8 text ++ rest).length = fuel + text.length := by
        have enough := length_le_utf8 text
        rw [List.length_append]
        exact Nat.exists_eq_add_of_le' (by omega)
      refine ⟨replaceIllFormed fuel rest, ?_⟩
      rw [Option.map_none, size]
      exact replaced fuel

/-! ## Searching -/

/-- The first position where `pattern` occurs, as `windows(n).position(..)` and
`str::find` compute it. -/
def findWindow {α : Type} [BEq α] (pattern : List α) : List α → Option Nat
  | [] => if pattern.isEmpty then some 0 else none
  | head :: rest =>
      if pattern.isPrefixOf (head :: rest) then some 0
      else (findWindow pattern rest).map (· + 1)

def contains (text pattern : Str) : Bool :=
  (findWindow pattern text).isSome

theorem findWindow_prefix {α : Type} [BEq α] [LawfulBEq α] {first : α} {pattern rest : List α} :
    findWindow (first :: pattern) (first :: pattern ++ rest) = some 0 := by
  have found : (first :: pattern).isPrefixOf (first :: pattern ++ rest) = true := by
    rw [List.isPrefixOf_iff_prefix]
    exact List.prefix_append _ _
  simp only [List.cons_append] at found ⊢
  simp [findWindow, found]

/-- A stretch without the first element of the pattern is passed over. -/
theorem findWindow_skip {α : Type} [BEq α] [LawfulBEq α] {first : α} {pattern skipped rest : List α}
    (absent : first ∉ skipped) :
    findWindow (first :: pattern) (skipped ++ rest) =
      (findWindow (first :: pattern) rest).map (· + skipped.length) := by
  induction skipped with
  | nil => simp
  | cons head tail ih =>
      have different : (first == head) = false := by
        simp only [List.mem_cons, not_or] at absent
        simpa using absent.1
      have later := ih fun member => absent (List.mem_cons_of_mem _ member)
      simp only [List.cons_append, findWindow, List.isPrefixOf, different, Bool.false_and,
        Bool.false_eq_true, ↓reduceIte, later, Option.map_map, List.length_cons]
      congr 1

theorem findWindow_le {α : Type} [BEq α] [LawfulBEq α] {pattern text : List α} {position : Nat}
    (found : findWindow pattern text = some position) :
    position + pattern.length ≤ text.length := by
  induction text generalizing position with
  | nil =>
      simp only [findWindow, List.isEmpty_iff, Option.ite_none_right_eq_some,
        Option.some.injEq] at found
      obtain ⟨rfl, rfl⟩ := found
      simp
  | cons head tail ih =>
      simp only [findWindow] at found
      by_cases here : pattern.isPrefixOf (head :: tail) = true
      · rw [if_pos here] at found
        obtain rfl := Option.some.inj found
        simpa using (List.isPrefixOf_iff_prefix.mp here).length_le
      · rw [if_neg here] at found
        obtain ⟨later, foundLater, rfl⟩ := Option.map_eq_some_iff.mp found
        have bound := ih foundLater
        simp only [List.length_cons]
        omega

/-- An occurrence is found wherever the text goes on. -/
theorem findWindow_append {α : Type} [BEq α] [LawfulBEq α] {pattern text : List α}
    (rest : List α) {position : Nat} (found : findWindow pattern text = some position) :
    findWindow pattern (text ++ rest) = some position := by
  induction text generalizing position with
  | nil =>
      simp only [findWindow, List.isEmpty_iff, Option.ite_none_right_eq_some,
        Option.some.injEq] at found
      obtain ⟨rfl, rfl⟩ := found
      cases rest <;> simp [findWindow]
  | cons head tail ih =>
      rw [List.cons_append]
      simp only [findWindow] at found ⊢
      by_cases here : pattern.isPrefixOf (head :: tail) = true
      · have longer : pattern.isPrefixOf (head :: (tail ++ rest)) = true := by
          rw [List.isPrefixOf_iff_prefix] at here ⊢
          exact here.trans (List.prefix_append (head :: tail) rest)
        rw [if_pos here] at found
        rw [if_pos longer, found]
      · rw [if_neg here] at found
        obtain ⟨later, foundLater, rfl⟩ := Option.map_eq_some_iff.mp found
        have front : ¬ pattern.isPrefixOf (head :: (tail ++ rest)) = true := by
          intro longer
          rw [List.isPrefixOf_iff_prefix] at longer here
          have bound := findWindow_le foundLater
          refine here (List.prefix_of_prefix_length_le longer
            (List.prefix_append (head :: tail) rest) ?_)
          simp only [List.length_cons]
          omega
        rw [if_neg front, ih foundLater]
        rfl

/-- `text.lines().next().unwrap_or("")`. -/
def firstLine (text : Str) : Str :=
  let line := text.takeWhile (· ≠ '\n')
  if '\n' ∈ text ∧ line.getLast? = some '\r' then line.dropLast else line

theorem firstLine_crlf {line rest : Str} (single : '\n' ∉ line) :
    firstLine (line ++ '\r' :: '\n' :: rest) = line := by
  have inside : ∀ c ∈ line ++ ['\r'], (decide (c ≠ '\n')) = true := by
    intro c member
    simp only [decide_eq_true_eq]
    rintro rfl
    rcases List.mem_append.mp member with before | last
    · exact single before
    · exact absurd last (by decide)
  have text : line ++ '\r' :: '\n' :: rest = (line ++ ['\r']) ++ '\n' :: rest := by simp
  have taken : (line ++ '\r' :: '\n' :: rest).takeWhile (· ≠ '\n') = line ++ ['\r'] := by
    rw [text, List.takeWhile_append_of_pos inside, List.takeWhile_cons_of_neg (by simp),
      List.append_nil]
  have ending : '\n' ∈ line ++ '\r' :: '\n' :: rest ∧
      (line ++ ['\r']).getLast? = some '\r' := by simp
  unfold firstLine
  simp only [taken]
  rw [if_pos ending, List.dropLast_concat]

/-- The Unicode `White_Space` characters, as `char::is_whitespace`. -/
def isWhitespace (c : Char) : Bool :=
  let code := c.toNat
  (0x09 ≤ code && code ≤ 0x0D) || code == 0x20 || code == 0x85 || code == 0xA0 ||
    code == 0x1680 || (0x2000 ≤ code && code ≤ 0x200A) || code == 0x2028 || code == 0x2029 ||
    code == 0x202F || code == 0x205F || code == 0x3000

/-- `str::split_whitespace`. -/
def splitWhitespace (text : Str) : List Str :=
  (text.splitOnP isWhitespace).filter (· ≠ [])

/-- A word in front of a blank character is the first part. -/
theorem splitWhitespace_word {word rest : Str} {blank : Char} (nonempty : word ≠ [])
    (solid : ∀ c ∈ word, isWhitespace c = false) (separates : isWhitespace blank = true) :
    splitWhitespace (word ++ blank :: rest) = word :: splitWhitespace rest := by
  unfold splitWhitespace
  rw [List.splitOnP_append_cons_of_forall_mem solid blank separates,
    List.filter_cons_of_pos (by simpa using nonempty)]

theorem splitWhitespace_last {word : Str} (nonempty : word ≠ [])
    (solid : ∀ c ∈ word, isWhitespace c = false) : splitWhitespace word = [word] := by
  unfold splitWhitespace
  rw [List.splitOnP_eq_singleton solid]
  simp [nonempty]

end Library
