import Simulboot.Session

/-!
# Coefficients

The graded data that a v1 image adds to each surface, timing, label and usage
count, with the order in which smaller is more constrained. `D` stands for `f64`.
-/

set_option autoImplicit false

namespace Simulboot

open Library

/-! ## Timing -/

/-- One endpoint of a timing interval, in nanoseconds or unbounded. -/
inductive Bound (D : Type) where
  | negInf
  | finite (x : D)
  | posInf

structure Interval (D : Type) where
  lo : Bound D
  hi : Bound D

variable {D : Type} [Zero D]

/-- A comparison key: endpoints of one kind compare by their numbers. -/
def Bound.key : Bound D → Int × D
  | .negInf => (-1, 0)
  | .finite x => (0, x)
  | .posInf => (1, 0)

section

variable [RustFloat D]

def fmtF64 (v : D) : Str :=
  RustFloat.displayUnsignedZero v

namespace Bound

def le (a b : Bound D) : Bool :=
  if a.key.1 ≠ b.key.1 then a.key.1 < b.key.1 else RustFloat.le a.key.2 b.key.2

/-- The operator `==`. -/
def eq : Bound D → Bound D → Bool
  | .negInf, .negInf | .posInf, .posInf => true
  | .finite a, .finite b => RustFloat.eq a b
  | _, _ => false

def toStr : Bound D → Str
  | .negInf => "-INF".toList
  | .posInf => "+INF".toList
  | .finite v => fmtF64 v

def parse (s : Str) : Option (Bound D) :=
  let s := trimMatches isWhitespace s
  if s = "-INF".toList then some .negInf
  else if s = "+INF".toList ∨ s = "INF".toList then some .posInf
  else ((RustFloat.parse s).filter fun v => !RustFloat.isNaN v).map .finite

def IsNumber : Bound D → Prop
  | .finite v => RustFloat.isNaN v = false
  | _ => True

/-- The endpoint without the sign of a zero. -/
def dropZeroSign : Bound D → Bound D
  | .finite v => .finite (RustFloat.dropZeroSign v)
  | other => other

end Bound

namespace Interval

def unbounded : Interval D :=
  { lo := .negInf, hi := .posInf }

/-- A narrower interval is smaller. -/
def containedIn (a b : Interval D) : Bool :=
  b.lo.le a.lo && a.hi.le b.hi

def eq (a b : Interval D) : Bool :=
  a.lo.eq b.lo && a.hi.eq b.hi

def IsNumber (iv : Interval D) : Prop :=
  iv.lo.IsNumber ∧ iv.hi.IsNumber

def dropZeroSign (iv : Interval D) : Interval D :=
  { lo := iv.lo.dropZeroSign, hi := iv.hi.dropZeroSign }

end Interval

end

/-! ## Labels and usage -/

inductive Confidentiality where
  | secret | restricted | «public»
  deriving DecidableEq, Repr

namespace Confidentiality

def rank : Confidentiality → Nat
  | .secret => 0
  | .restricted => 1
  | .public => 2

def toStr : Confidentiality → Str
  | .secret => "secret".toList
  | .restricted => "restricted".toList
  | .public => "public".toList

def parse (s : Str) : Option Confidentiality :=
  if s = "secret".toList then some .secret
  else if s = "restricted".toList then some .restricted
  else if s = "public".toList then some .public
  else none

theorem parse_toStr (c : Confidentiality) : parse c.toStr = some c := by
  cases c <;> rfl

theorem toStr_injective : Function.Injective toStr := by
  intro left right same
  have parsed := congrArg parse same
  simpa [parse_toStr] using parsed

theorem rank_le (c : Confidentiality) : c.rank ≤ rank .public := by
  cases c <;> decide

end Confidentiality

inductive Integrity where
  | trusted | endorsed | untrusted
  deriving DecidableEq, Repr

namespace Integrity

def rank : Integrity → Nat
  | .trusted => 0
  | .endorsed => 1
  | .untrusted => 2

def toStr : Integrity → Str
  | .trusted => "trusted".toList
  | .endorsed => "endorsed".toList
  | .untrusted => "untrusted".toList

def parse (s : Str) : Option Integrity :=
  if s = "trusted".toList then some .trusted
  else if s = "endorsed".toList then some .endorsed
  else if s = "untrusted".toList then some .untrusted
  else none

theorem parse_toStr (i : Integrity) : parse i.toStr = some i := by
  cases i <;> rfl

theorem toStr_injective : Function.Injective toStr := by
  intro left right same
  have parsed := congrArg parse same
  simpa [parse_toStr] using parsed

theorem rank_le (i : Integrity) : i.rank ≤ rank .untrusted := by
  cases i <;> decide

end Integrity

/-- How often a surface may be used. -/
inductive Linearity where
  | finite (n : UInt64)
  | omega
  deriving DecidableEq, Repr

def parseU64 (s : Str) : Option UInt64 :=
  (parseNat (2 ^ 64) s).map .ofNat

namespace Linearity

def le : Linearity → Linearity → Bool
  | _, .omega => true
  | .omega, .finite _ => false
  | .finite a, .finite b => a ≤ b

def toStr : Linearity → Str
  | .omega => "omega".toList
  | .finite n => displayNat n.toNat

def parse (s : Str) : Option Linearity :=
  if s = "omega".toList then some .omega else (parseU64 s).map .finite

theorem parse_toStr (l : Linearity) : parse l.toStr = some l := by
  cases l with
  | omega => rfl
  | finite n =>
      have number : displayNat n.toNat ≠ "omega".toList := by
        intro same
        have letter : 'o' ∈ displayNat n.toNat := by
          rw [same]
          decide
        exact not_mem_displayNat n.toNat (by decide) letter
      unfold parse toStr parseU64
      rw [if_neg number, parseNat_displayNat n.toNat_lt]
      simp

theorem toStr_injective : Function.Injective toStr := by
  intro left right same
  have parsed := congrArg parse same
  simpa [parse_toStr] using parsed

end Linearity

/-! ## Coefficients -/

structure Coefficient (D : Type) where
  /-- One interval per delay path. -/
  timing : List (Interval D)
  confidentiality : Confidentiality
  integrity : Integrity
  linearity : Linearity

namespace Coefficient

omit [Zero D] in
/-- The most permissive coefficient, which a v0 surface has implicitly. -/
def top : Coefficient D :=
  { timing := [.unbounded], confidentiality := .public, integrity := .untrusted
    linearity := .omega }

variable [RustFloat D]

def isTop (c : Coefficient D) : Bool :=
  (match c.timing with
    | [interval] => interval.eq .unbounded
    | _ => false) &&
  c.confidentiality = .public && c.integrity = .untrusted && c.linearity = .omega

/-- The pointwise order. Timings of different arity are incomparable. -/
def leq (a b : Coefficient D) : Bool :=
  (a.timing.length == b.timing.length &&
    (a.timing.zip b.timing).all fun pair => pair.1.containedIn pair.2) &&
  decide (a.confidentiality.rank ≤ b.confidentiality.rank) &&
  decide (a.integrity.rank ≤ b.integrity.rank) && a.linearity.le b.linearity

def eq (a b : Coefficient D) : Bool :=
  (a.timing.length == b.timing.length &&
    (a.timing.zip b.timing).all fun pair => pair.1.eq pair.2) &&
  a.confidentiality = b.confidentiality && a.integrity = b.integrity && a.linearity = b.linearity

theorem isTop_top : (top : Coefficient D).isTop = true := rfl

end Coefficient

/-! ## The top -/

section

variable [RustFloat D] (laws : RustFloat.Documented D)

include laws

theorem Bound.negInf_le (b : Bound D) : negInf.le b = true := by
  have zero := laws.le_self 0 laws.zero_isNaN
  cases b with
  | negInf => simpa [le, key] using zero
  | finite x => simp [le, key]
  | posInf => simp [le, key]

theorem Bound.le_posInf (b : Bound D) : b.le posInf = true := by
  have zero := laws.le_self 0 laws.zero_isNaN
  cases b with
  | negInf => simp [le, key]
  | finite x => simp [le, key]
  | posInf => simpa [le, key] using zero

theorem Interval.containedIn_unbounded (iv : Interval D) : iv.containedIn .unbounded = true := by
  unfold containedIn unbounded
  rw [Bound.negInf_le laws, Bound.le_posInf laws, Bool.and_self]

/-- Exactly the coefficients with one delay path are below the top. -/
theorem Coefficient.leq_top_iff {c : Coefficient D} :
    c.leq .top = true ↔ c.timing.length = 1 := by
  have paths : (c.timing.length == (top : Coefficient D).timing.length &&
      (c.timing.zip (top : Coefficient D).timing).all fun pair =>
        pair.1.containedIn pair.2) = true ↔ c.timing.length = 1 := by
    constructor
    · intro below
      exact eq_of_beq (Bool.and_eq_true_iff.mp below).1
    · intro single
      obtain ⟨interval, only⟩ := List.length_eq_one_iff.mp single
      simp [only, top, Interval.containedIn_unbounded laws]
  unfold leq
  rw [Bool.and_eq_true, Bool.and_eq_true, Bool.and_eq_true, paths]
  constructor
  · rintro ⟨⟨⟨single, _⟩, _⟩, _⟩
    exact single
  · intro single
    refine ⟨⟨⟨single, ?_⟩, ?_⟩, ?_⟩
    · exact decide_eq_true c.confidentiality.rank_le
    · exact decide_eq_true c.integrity.rank_le
    · cases c.linearity <;> rfl

end

/-! ## Reading endpoints back -/

section

variable [RustFloat D] (laws : RustFloat.Documented D)

include laws

/-- A printed endpoint is read back but for the sign of a zero. -/
theorem Bound.parse_toStr {b : Bound D} (number : b.IsNumber) :
    parse b.toStr = some b.dropZeroSign := by
  cases b with
  | negInf => rfl
  | posInf => rfl
  | finite v =>
      have digits := laws.displayUnsignedZero_alphabet v
      have solid : ∀ c ∈ RustFloat.alphabet, isWhitespace c = false := by decide
      have untrimmed : trimMatches isWhitespace (fmtF64 v) = fmtF64 v :=
        trimMatches_eq_self_iff.mpr
          ⟨fun c head => solid c (digits c (List.mem_of_head? head)),
            fun c last => solid c (digits c (List.mem_of_getLast? last))⟩
      have noCapital : 'I' ∉ fmtF64 v := fun member => absurd (digits _ member) (by decide)
      have word : ∀ {text : Str}, 'I' ∈ text → fmtF64 v ≠ text := by
        rintro text capital rfl
        exact noCapital capital
      have read : RustFloat.parse (fmtF64 v) = some (RustFloat.dropZeroSign v) :=
        laws.parse_displayUnsignedZero number
      have kept : RustFloat.isNaN (RustFloat.dropZeroSign v) = false := by
        rw [laws.isNaN_dropZeroSign]
        exact number
      simp only [parse, toStr, untrimmed, dropZeroSign]
      rw [if_neg (word (by decide)), if_neg, read, Option.filter_some, kept]
      · rfl
      · rintro (plus | bare)
        · exact word (by decide) plus
        · exact word (by decide) bare

theorem Bound.dropZeroSign_eq {b : Bound D} (number : b.IsNumber) :
    b.dropZeroSign.eq b = true := by
  cases b with
  | negInf => rfl
  | posInf => rfl
  | finite v => exact laws.dropZeroSign_eq number

theorem Interval.dropZeroSign_eq {iv : Interval D} (number : iv.IsNumber) :
    iv.dropZeroSign.eq iv = true := by
  unfold eq
  rw [Bool.and_eq_true]
  exact ⟨Bound.dropZeroSign_eq laws number.1, Bound.dropZeroSign_eq laws number.2⟩

end

end Simulboot
