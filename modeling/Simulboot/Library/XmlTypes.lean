import Simulboot.Library.ExactFloat
import Simulboot.Library.Gregorian
import Simulboot.Library.Xml

/-!
# Simple types of XML Schema

The lexical forms of the types that a schema gives to attribute values. White
space around a value does not count.
-/

set_option autoImplicit false

namespace Library.Xml

open ExactFloat (parseDigits parseDigits_displayNat)

/-! ## Integers -/

def signedDigits : Str → Option Int
  | '-' :: digits => (parseDigits digits).map fun n : Nat => -(n : Int)
  | '+' :: digits => (parseDigits digits).map fun n : Nat => (n : Int)
  | digits => (parseDigits digits).map fun n : Nat => (n : Int)

/-- An `xs:integer` of a restricted range. -/
def IsInteger (inRange : Int → Prop) (value : Str) : Prop :=
  ∃ n, signedDigits (trim value) = some n ∧ inRange n

def IsInt : Str → Prop :=
  IsInteger fun n => -2 ^ 31 ≤ n ∧ n < 2 ^ 31

def IsNonNegativeInteger : Str → Prop :=
  IsInteger fun n => 0 ≤ n

def IsPositiveInteger : Str → Prop :=
  IsInteger fun n => 0 < n

theorem not_isSpace_of_isDigit {c : Char} (digit : c.isDigit = true) : isSpace c = false := by
  refine Bool.eq_false_iff.mpr fun space => ?_
  simp only [isSpace, Bool.or_eq_true, beq_iff_eq] at space
  rcases space with ((rfl | rfl) | rfl) | rfl <;> exact absurd digit (by decide)

theorem signedDigits_displayNat (n : Nat) : signedDigits (trim (displayNat n)) = some (n : Int) := by
  have solid : ∀ c ∈ displayNat n, isSpace c = false := fun _ member =>
    not_isSpace_of_isDigit (isDigit_of_mem_displayNat member)
  have untrimmed : trim (displayNat n) = displayNat n :=
    trim_eq_self_iff.mpr ⟨fun c head => solid c (List.mem_of_head? head),
      fun c last => solid c (List.mem_of_getLast? last)⟩
  have unsigned : ∀ {sign : Char} {rest : Str}, sign.isDigit = false → displayNat n ≠ sign :: rest :=
    fun notDigit same => not_mem_displayNat n notDigit (by rw [same]; exact List.mem_cons_self)
  rw [untrimmed]
  unfold signedDigits
  split
  · rename_i same
    exact absurd same (unsigned (by decide))
  · rename_i same
    exact absurd same (unsigned (by decide))
  · rw [parseDigits_displayNat, Option.map_some]

theorem isInteger_displayNat {inRange : Int → Prop} {n : Nat} :
    IsInteger inRange (displayNat n) ↔ inRange n := by
  unfold IsInteger
  rw [signedDigits_displayNat]
  simp

theorem ofDigitChars_lt {digits : Str} (all : digits.all Char.isDigit = true) (init : Nat) :
    Nat.ofDigitChars 10 digits init < 10 ^ digits.length * (init + 1) := by
  induction digits generalizing init with
  | nil => simp [Nat.ofDigitChars]
  | cons c digits ih =>
      obtain ⟨digit, others⟩ := Bool.and_eq_true_iff.mp (by simpa only [List.all_cons] using all)
      have value : c.toNat - '0'.toNat ≤ 9 := by
        have high : c.toNat ≤ 57 := by
          simp only [Char.isDigit, Bool.and_eq_true, decide_eq_true_eq, UInt32.le_iff_toNat_le]
            at digit
          exact digit.2
        change c.toNat - 48 ≤ 9
        omega
      have bound := ih others (10 * init + (c.toNat - '0'.toNat))
      have step : 10 ^ digits.length * (10 * init + (c.toNat - '0'.toNat) + 1) ≤
          10 ^ digits.length * (10 * (init + 1)) := Nat.mul_le_mul_left _ (by omega)
      rw [Nat.ofDigitChars_cons, List.length_cons, Nat.pow_succ, Nat.mul_assoc]
      exact bound.trans_le step

/-- A numeral does not begin with a needless zero. -/
theorem displayNat_head? {n : Nat} (positive : 0 < n) : (displayNat n).head? ≠ some '0' := by
  intro zero
  cases digits : displayNat n with
  | nil => exact displayNat_ne_nil n digits
  | cons c rest =>
      rw [digits] at zero
      obtain rfl := Option.some.inj zero
      have all : rest.all Char.isDigit = true := List.all_eq_true.mpr fun c member =>
        isDigit_of_mem_displayNat (by rw [digits]; exact List.mem_cons_of_mem _ member)
      have value : Nat.ofDigitChars 10 (displayNat n) 0 = n := by simp [displayNat]
      have small := ofDigitChars_lt all 0
      rw [digits, Nat.ofDigitChars_cons] at value
      simp only [Nat.mul_zero, Nat.sub_self, Nat.add_zero, Nat.zero_add, Nat.mul_one] at value small
      rw [value] at small
      rcases Nat.eq_zero_or_pos rest.length with empty | long
      · rw [List.length_eq_zero_iff.mp empty] at small
        simp at small
        omega
      · have short := (Nat.length_toDigits_le_iff (by decide) long).mpr small
        change (displayNat n).length ≤ rest.length at short
        rw [digits, List.length_cons] at short
        omega

theorem parseDigits_zeros (zeros n : Nat) :
    parseDigits (List.replicate zeros '0' ++ displayNat n) = some n := by
  have all : (List.replicate zeros '0' ++ displayNat n).all Char.isDigit = true := by
    refine List.all_eq_true.mpr fun c member => ?_
    rcases List.mem_append.mp member with zero | digit
    · rw [List.eq_of_mem_replicate zero]
      decide
    · exact isDigit_of_mem_displayNat digit
  have value : Nat.ofDigitChars 10 (List.replicate zeros '0' ++ displayNat n) 0 = n := by
    rw [Nat.ofDigitChars_append, Nat.ofDigitChars_replicate_zero]
    simp [displayNat]
  have some := List.append_ne_nil_of_right_ne_nil (List.replicate zeros '0') (displayNat_ne_nil n)
  unfold parseDigits
  rw [if_pos ⟨some, all⟩, value]

/-! ## Decimals -/

/-- An optional sign, then digits with at most one point among them. -/
inductive DecimalForm : Str → Prop where
  | whole {sign digits : Str} :
      sign ∈ [[], ['+'], ['-']] → digits ≠ [] → digits.all Char.isDigit = true →
      DecimalForm (sign ++ digits)
  | point {sign before after : Str} :
      sign ∈ [[], ['+'], ['-']] → before ++ after ≠ [] → (before ++ after).all Char.isDigit = true →
      DecimalForm (sign ++ before ++ '.' :: after)

def IsDecimal (value : Str) : Prop :=
  DecimalForm (trim value)

/-! ## Dates with times -/

/-- A numeral of a fixed number of digits. -/
def Digits (width : Nat) (text : Str) (n : Nat) : Prop :=
  text.length = width ∧ parseDigits text = some n

/-- A year of at least four digits, without needless zeros; no year is 0. -/
structure YearForm (text : Str) (year : Nat) : Prop where
  digits : parseDigits text = some year
  positive : 0 < year
  width : 4 ≤ text.length
  short : 4 < text.length → text.head? ≠ some '0'

inductive FractionForm : Str → Prop where
  | none : FractionForm []
  | digits {text : Str} {n : Nat} : parseDigits text = some n → FractionForm ('.' :: text)

inductive ZoneForm : Str → Prop where
  | none : ZoneForm []
  | utc : ZoneForm ['Z']
  | offset {sign : Char} {hours minutes : Str} {h m : Nat} :
      sign ∈ ['+', '-'] → Digits 2 hours h → Digits 2 minutes m →
      h < 14 ∧ m < 60 ∨ h = 14 ∧ m = 0 → ZoneForm (sign :: hours ++ ':' :: minutes)

/-- A time within the day, or the end of the day. -/
def IsTimeOfDay (h m s : Nat) (fraction : Str) : Prop :=
  h < 24 ∧ m < 60 ∧ s < 60 ∨ h = 24 ∧ m = 0 ∧ s = 0 ∧ fraction ⊆ ['.', '0']

inductive DateTimeForm : Str → Prop where
  | mk {sign year month day hour minute second fraction zone : Str} {y mo d h m s : Nat} :
      sign ∈ [[], ['-']] → YearForm year y → Digits 2 month mo → Digits 2 day d →
      (⟨if sign = [] then y else -y, mo, d⟩ : Gregorian.Date).Valid →
      Digits 2 hour h → Digits 2 minute m → Digits 2 second s → FractionForm fraction →
      IsTimeOfDay h m s fraction → ZoneForm zone →
      DateTimeForm (sign ++ year ++ '-' :: month ++ '-' :: day ++
        'T' :: hour ++ ':' :: minute ++ ':' :: second ++ fraction ++ zone)

def IsDateTime (value : Str) : Prop :=
  DateTimeForm (trim value)

end Library.Xml
