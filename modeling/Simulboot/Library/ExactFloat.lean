import Mathlib.Algebra.Order.Field.Rat
import Simulboot.Library.Float
import Simulboot.Library.Numerals

/-!
# Exact numbers in place of floats

The rational numbers with the operations programs use of floats. Integers print
as decimals; any other number prints as numerator and denominator.
-/

set_option autoImplicit false

namespace Library.ExactFloat

def displayInt : Int → Str
  | .ofNat n => displayNat n
  | .negSucc n => '-' :: displayNat (n + 1)

def display (q : ℚ) : Str :=
  if q.den = 1 then displayInt q.num else displayInt q.num ++ 'n' :: displayNat q.den

def parseDigits (digits : Str) : Option Nat :=
  if digits ≠ [] ∧ digits.all Char.isDigit then some (Nat.ofDigitChars 10 digits 0) else none

def parseInt : Str → Option Int
  | '-' :: digits => (parseDigits digits).map fun n => -(n : Int)
  | digits => (parseDigits digits).map fun n => (n : Int)

def parse (text : Str) : Option ℚ := do
  let num ← parseInt (text.takeWhile (· ≠ 'n'))
  match text.dropWhile (· ≠ 'n') with
  | [] => return (num : ℚ)
  | _ :: rest => do
      let den ← parseDigits rest
      return (num : ℚ) / (den : ℚ)

instance : RustFloat ℚ where
  isNaN _ := false
  eq v w := decide (v = w)
  le v w := decide (v ≤ w)
  display := display
  parse := parse

theorem parseDigits_displayNat (n : Nat) : parseDigits (displayNat n) = some n := by
  have all : (displayNat n).all Char.isDigit = true := by
    rw [List.all_eq_true]
    exact fun c member => isDigit_of_mem_displayNat member
  have value : Nat.ofDigitChars 10 (displayNat n) 0 = n := by simp [displayNat]
  simp [parseDigits, displayNat_ne_nil n, all, value]

private theorem parseInt_displayInt (z : Int) : parseInt (displayInt z) = some z := by
  cases z with
  | ofNat n =>
      unfold displayInt parseInt
      split
      · rename_i digits same
        exact absurd (by simp [same]) (not_mem_displayNat n (c := '-') (by decide))
      · simp [parseDigits_displayNat]
  | negSucc n =>
      simp only [displayInt, parseInt, parseDigits_displayNat]
      rfl

private theorem mem_displayInt {z : Int} {c : Char} (member : c ∈ displayInt z) :
    c = '-' ∨ c.isDigit = true := by
  cases z with
  | ofNat n => exact .inr (isDigit_of_mem_displayNat member)
  | negSucc n =>
      rcases List.mem_cons.mp member with rfl | digit
      · exact .inl rfl
      · exact .inr (isDigit_of_mem_displayNat digit)

theorem parse_display (q : ℚ) : parse (display q) = some q := by
  have number : ∀ c ∈ displayInt q.num, (decide (c ≠ 'n')) = true := by
    intro c member
    simp only [decide_eq_true_eq]
    rintro rfl
    rcases mem_displayInt member with same | digit
    · exact absurd same (by decide)
    · exact absurd digit (by decide)
  unfold parse display
  by_cases integer : q.den = 1
  · rw [if_pos integer, List.takeWhile_eq_self_iff.mpr number, List.dropWhile_eq_nil_iff.mpr number,
      parseInt_displayInt]
    simp only [bind, Option.bind, pure]
    rw [Rat.coe_int_num_of_den_eq_one integer]
  · have stop : (decide ('n' ≠ 'n')) = false := by decide
    rw [if_neg integer, List.takeWhile_append_of_pos number,
      List.takeWhile_cons_of_neg (by simp), List.append_nil,
      List.dropWhile_append_of_pos number, List.dropWhile_cons_of_neg (by simp),
      parseInt_displayInt]
    simp only [bind, Option.bind, pure, parseDigits_displayNat]
    rw [Rat.num_div_den]

private theorem digit_mem_alphabet {c : Char} (digit : c.isDigit = true) : c ∈ RustFloat.alphabet := by
  have all : ∀ n < 58, 48 ≤ n → Char.ofNat n ∈ RustFloat.alphabet := by decide
  simp only [Char.isDigit, ge_iff_le, Bool.and_eq_true, decide_eq_true_eq,
    UInt32.le_iff_toNat_le] at digit
  have low : 48 ≤ c.toNat := digit.1
  have high : c.toNat ≤ 57 := digit.2
  rw [← Char.ofNat_toNat c]
  exact all _ (by omega) low

theorem documented : RustFloat.Documented ℚ where
  parse_display q _ := parse_display q
  display_alphabet := by
    intro q c member
    have number : ∀ z : Int, c ∈ displayInt z → c ∈ RustFloat.alphabet := by
      intro z inside
      rcases mem_displayInt inside with rfl | digit
      · decide
      · exact digit_mem_alphabet digit
    change c ∈ display q at member
    unfold display at member
    split at member
    · exact number _ member
    · rcases List.mem_append.mp member with inside | rest
      · exact number _ inside
      · rcases List.mem_cons.mp rest with rfl | digits
        · decide
        · exact digit_mem_alphabet (isDigit_of_mem_displayNat digits)
  display_zero := by rfl
  display_isNaN := by simp [RustFloat.isNaN]
  zero_isNaN := rfl
  isNaN_of_eq _ _ _ := ⟨rfl, rfl⟩
  eq_iff v w := by
    simp only [RustFloat.eq, RustFloat.isNaN, decide_eq_true_eq, true_and]
    constructor
    · exact .inl
    · rintro (same | ⟨rfl, rfl⟩)
      · exact same
      · rfl
  le_self v _ := by simp [RustFloat.le]

theorem exact : RustFloat.Exact ℚ where
  number _ := rfl
  oneZero _ zero := of_decide_eq_true zero

/-- There is no NaN. -/
theorem readsNaN : RustFloat.ReadsNaN ℚ := by
  intro v nan
  cases nan

theorem compares : RustFloat.Compares ℚ where
  lt_congr v w x same := by
    obtain rfl : v = w := of_decide_eq_true same
    exact ⟨Iff.rfl, Iff.rfl⟩
  not_lt_isNaN v x nan := by cases nan

theorem ordered : RustFloat.Ordered ℚ where
  le_trans u v w first second :=
    decide_eq_true (le_trans (of_decide_eq_true first) (of_decide_eq_true second))
  le_antisymm v w below above :=
    decide_eq_true (le_antisymm (of_decide_eq_true below) (of_decide_eq_true above))
  le_of_eq v w same := by
    obtain rfl : v = w := of_decide_eq_true same
    exact ⟨decide_eq_true le_rfl, decide_eq_true le_rfl⟩

end Library.ExactFloat
