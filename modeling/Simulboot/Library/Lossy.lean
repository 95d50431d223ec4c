import Simulboot.Library.Utf8

/-!
# Lines of lossy text

Replacing ill-formed sequences goes on line by line: what stands behind a line feed does
not change how the bytes before it are read.
-/

set_option autoImplicit false

namespace Library

private theorem mem_utf8_feed {c : Char} (member : (10 : UInt8) ∈ utf8 [c]) : c = '\n' := by
  have byte : (10 : UInt8) ∈ String.utf8EncodeChar c := by simpa [utf8] using member
  by_cases ascii : c.val.toNat ≤ 127
  · rw [String.utf8EncodeChar, if_pos ascii, List.mem_singleton] at byte
    have value := congrArg UInt8.toNat byte
    rw [UInt8.toNat_ofNat', Nat.mod_eq_of_lt (by omega)] at value
    rw [← Char.ofNat_toNat c]
    exact congrArg Char.ofNat value.symm
  · have high := utf8EncodeChar_high (by omega) byte
    exact absurd high (by decide)

theorem feed_not_mem_utf8 {text : Str} (single : '\n' ∉ text) : (10 : UInt8) ∉ utf8 text := by
  intro member
  obtain ⟨c, inside, byte⟩ := List.mem_flatMap.mp member
  exact single (mem_utf8_feed (c := c) (by simpa [utf8] using byte) ▸ inside)

/-! ## The front of a buffer -/

private theorem frontChar_eq_some {data : Bytes} {c : Char} {size : Nat}
    (front : frontChar data = some (c, size)) :
    ∃ rest, data = utf8 [c] ++ rest ∧ size = (utf8 [c]).length := by
  obtain ⟨tried, _, found⟩ := List.exists_of_findSome?_eq_some front
  split at found
  · rename_i d decoded
    cases found
    have whole := List.take_append_drop size data
    rw [eq_utf8_of_fromUtf8 decoded] at whole
    rw [← whole, frontChar_utf8] at front
    cases front
    exact ⟨_, whole.symm, rfl⟩
  · cases found

private theorem frontChar_line {line rest : Bytes} (nonempty : line ≠ []) :
    frontChar (line ++ 10 :: rest) = frontChar line := by
  cases front : frontChar (line ++ 10 :: rest) with
  | some found =>
      obtain ⟨c, size⟩ := found
      obtain ⟨behind, split, rfl⟩ := frontChar_eq_some front
      rcases List.append_eq_append_iff.mp split with ⟨tail, whole, after⟩ | ⟨tail, whole, _⟩
      · cases tail with
        | nil =>
            rw [List.append_nil] at whole
            have own := frontChar_utf8 c []
            rw [List.append_nil, whole] at own
            rw [own, whole]
        | cons byte more =>
            obtain ⟨rfl, _⟩ := List.cons.inj after
            have same := mem_utf8_feed (c := c) (by rw [whole]; simp)
            subst same
            have feed : utf8 ['\n'] = [10] := by decide
            rw [feed] at whole
            have size := congrArg List.length whole
            simp only [List.length_append, List.length_cons, List.length_nil] at size
            exact absurd (List.length_eq_zero_iff.mp (by omega)) nonempty
      · rw [whole, frontChar_utf8]
  | none =>
      cases own : frontChar line with
      | none => rfl
      | some found =>
          obtain ⟨c, size⟩ := found
          obtain ⟨behind, split, _⟩ := frontChar_eq_some own
          rw [split, List.append_assoc, frontChar_utf8] at front
          cases front

private theorem continuationRange_high {first low high : UInt8} {needed : Nat}
    (range : continuationRange first = some (needed, low, high)) : 0x80 ≤ low := by
  unfold continuationRange at range
  repeat' split at range
  all_goals cases range
  all_goals decide

private theorem takeWhile_take_line {p : UInt8 → Bool} (stops : p 10 = false) (line rest : Bytes) (count : Nat) :
    ((line ++ 10 :: rest).take count).takeWhile p = (line.take count).takeWhile p := by
  induction line generalizing count with
  | nil => cases count <;> simp [stops]
  | cons byte line ih =>
      cases count with
      | zero => simp
      | succ count =>
          rw [List.cons_append, List.take_succ_cons, List.take_succ_cons, List.takeWhile_cons,
            List.takeWhile_cons, ih]

private theorem maximalSubpart_line {line rest : Bytes} (nonempty : line ≠ []) :
    maximalSubpart (line ++ 10 :: rest) = maximalSubpart line := by
  match line with
  | [] => exact absurd rfl nonempty
  | [first] =>
      simp only [List.cons_append, List.nil_append, maximalSubpart]
      split
      · rename_i needed low high second later range same
        obtain ⟨rfl, _⟩ := List.cons.inj same
        have above := continuationRange_high range
        have outside : ¬ (low ≤ 10 ∧ 10 ≤ high) := fun inside =>
          absurd (UInt8.le_trans above inside.1) (by decide)
        rw [if_neg outside]
        split
        · rename_i contra
          cases contra
        · rfl
      · split
        · rename_i contra
          cases contra
        · rfl
  | first :: second :: later =>
      have stops : (decide ((0x80 : UInt8) ≤ 10 ∧ (10 : UInt8) ≤ 0xBF)) = false := by decide
      simp only [List.cons_append, maximalSubpart]
      cases continuationRange first with
      | none => rfl
      | some range =>
          obtain ⟨needed, low, high⟩ := range
          simp only [takeWhile_take_line (p := fun byte => decide (0x80 ≤ byte ∧ byte ≤ 0xBF)) stops]

private theorem maximalSubpart_pos {data : Bytes} (nonempty : data ≠ []) : 0 < maximalSubpart data := by
  cases data with
  | nil => exact absurd rfl nonempty
  | cons first rest =>
      simp only [maximalSubpart]
      split
      · split <;> omega
      · exact Nat.one_pos

private theorem maximalSubpart_le (data : Bytes) : maximalSubpart data ≤ data.length := by
  cases data with
  | nil => exact le_rfl
  | cons first rest =>
      simp only [maximalSubpart]
      split
      · rename_i needed low high second later range
        have part := ((List.takeWhile_prefix (p := fun byte => decide (0x80 ≤ byte ∧ byte ≤ 0xBF))
          (l := later.take (needed - 1))).length_le).trans (List.length_take_le' _ _)
        simp only [List.length_cons]
        split <;> omega
      · simp

/-! ## Lossy conversion from front to back -/

private theorem utf8_length_pos (c : Char) : 0 < (utf8 [c]).length := by
  refine List.length_pos_iff.mpr fun empty => ?_
  exact absurd (utf8_eq_nil_iff.mp empty) (by simp)

private theorem replaceIllFormed_nil (fuel : Nat) : replaceIllFormed fuel [] = [] := by
  cases fuel <;> rfl

private theorem replaceIllFormed_fuel {fuel more : Nat} {data : Bytes} (enough : data.length ≤ fuel)
    (alsoEnough : data.length ≤ more) : replaceIllFormed fuel data = replaceIllFormed more data := by
  induction fuel generalizing data more with
  | zero =>
      rw [List.length_eq_zero_iff.mp (Nat.le_zero.mp enough), replaceIllFormed_nil,
        replaceIllFormed_nil]
  | succ fuel ih =>
      cases data with
      | nil => rw [replaceIllFormed_nil, replaceIllFormed_nil]
      | cons byte rest =>
          cases more with
          | zero => cases alsoEnough
          | succ more =>
              have shorter : ∀ size, 0 < size →
                  replaceIllFormed fuel ((byte :: rest).drop size) =
                    replaceIllFormed more ((byte :: rest).drop size) := by
                intro size positive
                rw [List.length_cons] at enough alsoEnough
                refine ih ?_ ?_ <;> rw [List.length_drop, List.length_cons] <;> omega
              simp only [replaceIllFormed]
              cases front : frontChar (byte :: rest) with
              | none =>
                  dsimp only
                  rw [shorter _ (maximalSubpart_pos (List.cons_ne_nil byte rest))]
              | some found =>
                  obtain ⟨c, size⟩ := found
                  obtain ⟨_, _, rfl⟩ := frontChar_eq_some front
                  dsimp only
                  rw [shorter _ (utf8_length_pos c)]

theorem replaceIllFormed_utf8 {text : Str} {fuel : Nat} (enough : text.length ≤ fuel) :
    replaceIllFormed fuel (utf8 text) = text := by
  induction text generalizing fuel with
  | nil => exact replaceIllFormed_nil fuel
  | cons c others ih =>
      cases fuel with
      | zero => cases enough
      | succ fuel =>
          have bytes : utf8 (c :: others) = utf8 [c] ++ utf8 others := by
            rw [← utf8_append, List.singleton_append]
          have some : utf8 [c] ++ utf8 others ≠ [] := fun empty =>
            absurd (utf8_eq_nil_iff.mp (List.append_eq_nil_iff.mp empty).1) (by simp)
          rw [bytes, replaceIllFormed]
          · simp only [frontChar_utf8, List.drop_left]
            rw [ih (Nat.le_of_succ_le_succ enough)]
          · exact some

theorem fromUtf8Lossy_eq (data : Bytes) :
    fromUtf8Lossy data = replaceIllFormed data.length data := by
  unfold fromUtf8Lossy
  cases decoded : fromUtf8 data with
  | none => rfl
  | some text =>
      rw [eq_utf8_of_fromUtf8 decoded]
      exact (replaceIllFormed_utf8 (length_le_utf8 text)).symm

theorem fromUtf8Lossy_nil : fromUtf8Lossy [] = [] := by
  rw [fromUtf8Lossy_eq]
  rfl

theorem fromUtf8Lossy_of_ne_nil {data : Bytes} (nonempty : data ≠ []) :
    fromUtf8Lossy data = match frontChar data with
      | some (c, size) => c :: fromUtf8Lossy (data.drop size)
      | none => '\uFFFD' :: fromUtf8Lossy (data.drop (maximalSubpart data)) := by
  cases data with
  | nil => exact absurd rfl nonempty
  | cons byte rest =>
      have shorter : ∀ size, 0 < size →
          replaceIllFormed rest.length ((byte :: rest).drop size) =
            fromUtf8Lossy ((byte :: rest).drop size) := by
        intro size positive
        rw [fromUtf8Lossy_eq]
        refine replaceIllFormed_fuel ?_ le_rfl
        rw [List.length_drop, List.length_cons]
        omega
      rw [fromUtf8Lossy_eq]
      simp only [List.length_cons, replaceIllFormed]
      cases front : frontChar (byte :: rest) with
      | none =>
          dsimp only
          rw [shorter _ (maximalSubpart_pos (List.cons_ne_nil byte rest))]
      | some found =>
          obtain ⟨c, size⟩ := found
          obtain ⟨_, _, rfl⟩ := frontChar_eq_some front
          dsimp only
          rw [shorter _ (utf8_length_pos c)]

/-- Lines are converted one by one. -/
theorem fromUtf8Lossy_line {line : Bytes} (single : 10 ∉ line) (rest : Bytes) :
    fromUtf8Lossy (line ++ 10 :: rest) = fromUtf8Lossy line ++ '\n' :: fromUtf8Lossy rest := by
  induction size : line.length using Nat.strongRecOn generalizing line with
  | _ n ih =>
      by_cases empty : line = []
      case pos =>
        have feed : utf8 ['\n'] = [10] := by decide
        have front := frontChar_utf8 '\n' rest
        rw [feed, List.singleton_append] at front
        rw [empty, List.nil_append, fromUtf8Lossy_of_ne_nil (List.cons_ne_nil 10 rest), front,
          fromUtf8Lossy_nil]
        rfl
      case neg =>
        have later : ∀ count, 0 < count → count ≤ line.length →
            fromUtf8Lossy ((line ++ 10 :: rest).drop count) =
              fromUtf8Lossy (line.drop count) ++ '\n' :: fromUtf8Lossy rest := by
          intro count positive within
          rw [List.drop_append_of_le_length within]
          have fewer : (line.drop count).length < n := by
            rw [List.length_drop]
            omega
          exact ih _ fewer (fun member => single (List.mem_of_mem_drop member)) rfl
        have longer : line ++ 10 :: rest ≠ [] := by simp
        rw [fromUtf8Lossy_of_ne_nil longer, fromUtf8Lossy_of_ne_nil empty,
          frontChar_line empty]
        cases front : frontChar line with
        | none =>
            dsimp only
            rw [maximalSubpart_line empty,
              later _ (maximalSubpart_pos empty) (maximalSubpart_le line), List.cons_append]
        | some found =>
            obtain ⟨c, count⟩ := found
            obtain ⟨behind, split, rfl⟩ := frontChar_eq_some front
            have within : (utf8 [c]).length ≤ line.length := by
              rw [split, List.length_append]
              omega
            dsimp only
            rw [later _ (utf8_length_pos c) within, List.cons_append]

theorem feed_not_mem_fromUtf8Lossy {line : Bytes} (single : 10 ∉ line) :
    '\n' ∉ fromUtf8Lossy line := by
  induction size : line.length using Nat.strongRecOn generalizing line with
  | _ n ih =>
      by_cases empty : line = []
      case pos =>
        rw [empty, fromUtf8Lossy_nil]
        exact List.not_mem_nil
      case neg =>
        have positive := List.length_pos_iff.mpr empty
        have later : ∀ count, 0 < count → '\n' ∉ fromUtf8Lossy (line.drop count) := by
          intro count some
          have fewer : (line.drop count).length < n := by
            rw [List.length_drop]
            omega
          exact ih _ fewer (fun member => single (List.mem_of_mem_drop member)) rfl
        rw [fromUtf8Lossy_of_ne_nil empty]
        cases front : frontChar line with
        | none =>
            dsimp only
            rw [List.mem_cons, not_or]
            exact ⟨by decide, later _ (maximalSubpart_pos empty)⟩
        | some found =>
            obtain ⟨c, count⟩ := found
            obtain ⟨behind, split, rfl⟩ := frontChar_eq_some front
            dsimp only
            rw [List.mem_cons, not_or]
            refine ⟨?_, later _ (utf8_length_pos c)⟩
            rintro rfl
            have feed : utf8 ['\n'] = [10] := by decide
            rw [feed] at split
            exact single (by rw [split]; simp)

/-! ## The first line -/

/-- The first line does not depend on the others. -/
theorem firstLine_feed {text : Str} (single : '\n' ∉ text) (rest : Str) :
    firstLine (text ++ '\n' :: rest) = firstLine (text ++ ['\n']) := by
  have inside : ∀ c ∈ text, (decide (c ≠ '\n')) = true := by
    intro c member
    rw [decide_eq_true_eq]
    rintro rfl
    exact single member
  have line : ∀ rest, (text ++ '\n' :: rest).takeWhile (· ≠ '\n') = text := by
    intro rest
    rw [List.takeWhile_append_of_pos inside, List.takeWhile_cons, if_neg (by simp), List.append_nil]
  have feed : ∀ rest, '\n' ∈ text ++ '\n' :: rest := by simp
  unfold firstLine
  simp only [line, feed, true_and]

theorem mem_of_findWindow {α : Type} [BEq α] [LawfulBEq α] {pattern text : List α} {position : Nat}
    (found : findWindow pattern text = some position) {a : α} (member : a ∈ pattern) :
    a ∈ text := by
  induction text generalizing position with
  | nil =>
      simp only [findWindow, List.isEmpty_iff, Option.ite_none_right_eq_some] at found
      obtain ⟨rfl, _⟩ := found
      cases member
  | cons head rest ih =>
      rw [findWindow] at found
      split at found
      · rename_i front
        exact (List.isPrefixOf_iff_prefix.mp front).subset member
      · obtain ⟨later, found, _⟩ := Option.map_eq_some_iff.mp found
        exact List.mem_cons_of_mem _ (ih found)

theorem findWindow_infix {α : Type} [BEq α] [LawfulBEq α] {first : α} {pattern : List α}
    (before after : List α) :
    (findWindow (first :: pattern) (before ++ (first :: pattern) ++ after)).isSome = true := by
  induction before with
  | nil =>
      rw [List.nil_append, findWindow_prefix]
      rfl
  | cons head rest ih =>
      rw [List.cons_append, List.cons_append, findWindow]
      split
      · rfl
      · rw [Option.isSome_map]
        exact ih

end Library
