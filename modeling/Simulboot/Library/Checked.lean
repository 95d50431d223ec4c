import Mathlib.Algebra.Order.Group.Int
import Mathlib.Tactic.IntervalCases

/-!
# Checked machine arithmetic

Integer arithmetic that gives up instead of leaving the range of `i64`.
-/

set_option autoImplicit false

namespace Library

inductive ArithmeticError where
  | overflow
  | divideByZero
  deriving DecidableEq, Repr

namespace I64

def InRange (n : Int) : Prop :=
  -9223372036854775808 ≤ n ∧ n ≤ 9223372036854775807

instance (n : Int) : Decidable (InRange n) :=
  inferInstanceAs (Decidable (_ ∧ _))

def checked (n : Int) : Except ArithmeticError Int :=
  if InRange n then .ok n else .error .overflow

def add (a b : Int) : Except ArithmeticError Int :=
  checked (a + b)

def sub (a b : Int) : Except ArithmeticError Int :=
  checked (a - b)

def mul (a b : Int) : Except ArithmeticError Int :=
  checked (a * b)

/-- Division rounds towards zero. -/
def div (a b : Int) : Except ArithmeticError Int :=
  if b = 0 then .error .divideByZero else checked (a.tdiv b)

/-- The cast of a `u64`, which keeps the bits. -/
def ofUInt64 (n : UInt64) : Int :=
  (n.toNat : Int).bmod (2 ^ 64)

theorem checked_eq_ok {n : Int} (range : InRange n) : checked n = .ok n :=
  if_pos range

theorem add_eq_ok {a b sum : Int} (value : a + b = sum) (range : InRange sum) :
    add a b = .ok sum := by
  unfold add
  rw [value, checked_eq_ok range]

theorem sub_eq_ok {a b difference : Int} (value : a - b = difference)
    (range : InRange difference) : sub a b = .ok difference := by
  unfold sub
  rw [value, checked_eq_ok range]

theorem mul_eq_ok {a b product : Int} (value : a * b = product) (range : InRange product) :
    mul a b = .ok product := by
  unfold mul
  rw [value, checked_eq_ok range]

theorem div_eq_ok {a b quotient : Int} (nonneg : 0 ≤ a) (pos : 0 < b) (value : a / b = quotient)
    (range : InRange quotient) : div a b = .ok quotient := by
  unfold div
  rw [if_neg (Int.ne_of_gt pos), Int.tdiv_eq_ediv_of_nonneg nonneg, value, checked_eq_ok range]

theorem ofUInt64_eq {n : UInt64} (range : n.toNat < 2 ^ 63) : ofUInt64 n = n.toNat := by
  unfold ofUInt64
  rw [Int.bmod_def]
  omega

end I64

end Library
