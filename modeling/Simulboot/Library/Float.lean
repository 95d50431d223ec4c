import Mathlib.Algebra.Notation.Defs
import Simulboot.Library.Text

/-!
# Floating-point text

What programs use of Rust's `f32` and `f64` apart from arithmetic: comparison,
the test for NaN and the two conversions to and from text.
-/

set_option autoImplicit false

namespace Library

class RustFloat (F : Type) [Zero F] where
  isNaN : F → Bool
  /-- The operator `==`. -/
  eq : F → F → Bool
  /-- The operator `<=`. -/
  le : F → F → Bool
  display : F → Str
  parse : Str → Option F

namespace RustFloat

def alphabet : Str :=
  "-.0123456789infNa".toList

/-- The documented behaviour of the operations. The two zeros are equal and
otherwise only a value and itself are; NaN equals nothing. -/
structure Documented (F : Type) [Zero F] [RustFloat F] : Prop where
  parse_display : ∀ v : F, isNaN v = false → parse (display v) = some v
  display_alphabet : ∀ v : F, ∀ c ∈ display v, c ∈ alphabet
  display_zero : display (0 : F) = "0".toList
  display_isNaN : ∀ v w : F, isNaN v = true → isNaN w = false → display v ≠ display w
  zero_isNaN : isNaN (0 : F) = false
  isNaN_of_eq : ∀ v w : F, eq v w = true → isNaN v = false ∧ isNaN w = false
  eq_iff : ∀ v w : F, eq v w = true ↔
    (isNaN v = false ∧ v = w) ∨ (eq v 0 = true ∧ eq w 0 = true)
  le_self : ∀ v : F, isNaN v = false → le v v = true

variable {F : Type} [Zero F] [RustFloat F]

/-- Numbers only, and one zero among them. -/
structure Exact (F : Type) [Zero F] [RustFloat F] : Prop where
  number : ∀ v : F, isNaN v = false
  oneZero : ∀ v : F, eq v 0 = true → v = 0

/-- What is printed for NaN is read as NaN. -/
def ReadsNaN (F : Type) [Zero F] [RustFloat F] : Prop :=
  ∀ v : F, isNaN v = true → ∃ w : F, parse (display v) = some w ∧ isNaN w = true

/-- The documented order of the numbers; no comparison with NaN holds. -/
structure Ordered (F : Type) [Zero F] [RustFloat F] : Prop where
  le_trans : ∀ u v w : F, le u v = true → le v w = true → le u w = true
  le_antisymm : ∀ v w : F, le v w = true → le w v = true → eq v w = true
  le_of_eq : ∀ v w : F, eq v w = true → le v w = true ∧ le w v = true

/-- Comparison sees numbers: equal ones compare alike, and NaN with nothing. -/
structure Compares (F : Type) [Zero F] [RustFloat F] [LT F] : Prop where
  lt_congr : ∀ v w x : F, eq v w = true → ((v < x ↔ w < x) ∧ (x < v ↔ x < w))
  not_lt_isNaN : ∀ v x : F, isNaN v = true → ¬ v < x ∧ ¬ x < v

/-- The same number, or NaN both. -/
def Alike (v w : F) : Prop :=
  eq v w = true ∨ isNaN v = true ∧ isNaN w = true

theorem Compares.lt_iff_of_alike [LT F] (compares : Compares F) {v w : F} (alike : Alike v w)
    (x : F) : (v < x ↔ w < x) ∧ (x < v ↔ x < w) := by
  rcases alike with equal | ⟨left, right⟩
  · exact compares.lt_congr v w x equal
  · obtain ⟨notBelow, notAbove⟩ := compares.not_lt_isNaN v x left
    obtain ⟨otherBelow, otherAbove⟩ := compares.not_lt_isNaN w x right
    exact ⟨iff_of_false notBelow otherBelow, iff_of_false notAbove otherAbove⟩

/-- The number a text stands for once the sign of a zero is dropped. -/
def dropZeroSign (v : F) : F :=
  if eq v 0 then 0 else v

theorem Exact.dropZeroSign_eq (exact : Exact F) (v : F) : dropZeroSign v = v := by
  unfold dropZeroSign
  split
  · rename_i zero
    exact (exact.oneZero v zero).symm
  · rfl

/-- `Display`, with both zeros written alike. -/
def displayUnsignedZero (v : F) : Str :=
  if eq v 0 then "0".toList else display v

namespace Documented

variable (laws : Documented F)

include laws

theorem eq_self {v : F} (number : isNaN v = false) : eq v v = true :=
  (laws.eq_iff v v).mpr (.inl ⟨number, rfl⟩)

theorem display_injective {v w : F} (number : isNaN v = false) (other : isNaN w = false)
    (same : display v = display w) : v = w := by
  have parsed := laws.parse_display v number
  rw [same, laws.parse_display w other] at parsed
  exact (Option.some.inj parsed).symm

theorem dropZeroSign_eq {v : F} (number : isNaN v = false) : eq (dropZeroSign v) v = true := by
  unfold dropZeroSign
  split
  · rename_i zero
    exact (laws.eq_iff 0 v).mpr (.inr ⟨laws.eq_self laws.zero_isNaN, zero⟩)
  · exact laws.eq_self number

private theorem displayUnsignedZero_eq (v : F) :
    displayUnsignedZero v = display (dropZeroSign v) := by
  unfold displayUnsignedZero dropZeroSign
  split
  · exact laws.display_zero.symm
  · rfl

theorem isNaN_dropZeroSign (v : F) : isNaN (dropZeroSign v) = isNaN v := by
  unfold dropZeroSign
  split
  · rename_i zero
    rw [laws.zero_isNaN, (laws.isNaN_of_eq v 0 zero).1]
  · rfl

theorem parse_displayUnsignedZero {v : F} (number : isNaN v = false) :
    parse (displayUnsignedZero v) = some (dropZeroSign v) := by
  rw [laws.displayUnsignedZero_eq]
  exact laws.parse_display _ (by rw [laws.isNaN_dropZeroSign, number])

/-- Whatever is printed is read back, as the same number or as NaN. -/
theorem parse_displayUnsignedZero_total (readsNaN : ReadsNaN F) (v : F) :
    ∃ w : F, parse (displayUnsignedZero v) = some w ∧
      (eq w v = true ∨ isNaN v = true ∧ isNaN w = true) := by
  cases number : isNaN v with
  | false =>
      exact ⟨_, laws.parse_displayUnsignedZero number, .inl (laws.dropZeroSign_eq number)⟩
  | true =>
      obtain ⟨w, read, other⟩ := readsNaN v number
      refine ⟨w, ?_, .inr ⟨rfl, other⟩⟩
      have apart : ¬ eq v 0 = true := fun zero => by
        rw [(laws.isNaN_of_eq v 0 zero).1] at number
        cases number
      unfold displayUnsignedZero
      rw [if_neg apart, read]

theorem zero_eq (v : F) : eq 0 v = eq v 0 := by
  have zeroSelf := laws.eq_self laws.zero_isNaN
  rw [Bool.eq_iff_iff, laws.eq_iff 0 v]
  constructor
  · rintro (⟨_, rfl⟩ | ⟨_, zero⟩)
    · exact zeroSelf
    · exact zero
  · exact fun zero => .inr ⟨zeroSelf, zero⟩

/-- Values that are alike are zero alike. -/
theorem eq_zero_of_alike {v w : F} (alike : Alike v w) : eq v 0 = eq w 0 := by
  rw [Bool.eq_iff_iff]
  rcases alike with equal | ⟨left, right⟩
  · rcases (laws.eq_iff v w).mp equal with ⟨_, rfl⟩ | ⟨zeroLeft, zeroRight⟩
    · rfl
    · exact iff_of_true zeroLeft zeroRight
  · refine iff_of_false (fun zero => ?_) fun zero => ?_
    · rw [(laws.isNaN_of_eq _ _ zero).1] at left
      cases left
    · rw [(laws.isNaN_of_eq _ _ zero).1] at right
      cases right

theorem alike_self (v : F) : Alike v v := by
  cases number : isNaN v with
  | false => exact .inl (laws.eq_self number)
  | true => exact .inr ⟨number, number⟩

theorem displayUnsignedZero_alphabet (v : F) : ∀ c ∈ displayUnsignedZero v, c ∈ alphabet := by
  rw [laws.displayUnsignedZero_eq]
  exact laws.display_alphabet _

theorem dropZeroSign_eq_iff {v w : F} (number : isNaN v = false) :
    dropZeroSign v = dropZeroSign w ↔ eq v w = true := by
  have zeroSelf := laws.eq_self laws.zero_isNaN
  unfold dropZeroSign
  by_cases zeroLeft : eq v 0 = true <;> by_cases zeroRight : eq w 0 = true
  · rw [if_pos zeroLeft, if_pos zeroRight]
    simpa using (laws.eq_iff v w).mpr (.inr ⟨zeroLeft, zeroRight⟩)
  · rw [if_pos zeroLeft, if_neg zeroRight]
    constructor
    · intro same
      rw [← same] at zeroRight
      exact absurd zeroSelf zeroRight
    · intro equal
      rcases (laws.eq_iff v w).mp equal with ⟨_, rfl⟩ | ⟨_, zero⟩
      · exact absurd zeroLeft zeroRight
      · exact absurd zero zeroRight
  · rw [if_neg zeroLeft, if_pos zeroRight]
    constructor
    · intro same
      rw [same] at zeroLeft
      exact absurd zeroSelf zeroLeft
    · intro equal
      rcases (laws.eq_iff v w).mp equal with ⟨_, rfl⟩ | ⟨zero, _⟩
      · exact absurd zeroRight zeroLeft
      · exact absurd zero zeroLeft
  · rw [if_neg zeroLeft, if_neg zeroRight, laws.eq_iff v w]
    simp [number, zeroLeft]

/-- Two numbers print alike exactly when they are equal. -/
theorem displayUnsignedZero_inj {v w : F} (number : isNaN v = false) :
    displayUnsignedZero v = displayUnsignedZero w ↔ eq v w = true := by
  rw [laws.displayUnsignedZero_eq, laws.displayUnsignedZero_eq,
    ← laws.dropZeroSign_eq_iff number]
  constructor
  · intro same
    have numberLeft : isNaN (dropZeroSign v) = false := by rw [laws.isNaN_dropZeroSign, number]
    cases numberRight : isNaN (dropZeroSign w) with
    | false => exact laws.display_injective numberLeft numberRight same
    | true => exact absurd same.symm (laws.display_isNaN _ _ numberRight numberLeft)
  · exact congrArg display

theorem alike_of_displayUnsignedZero {v w : F}
    (same : displayUnsignedZero v = displayUnsignedZero w) : Alike v w := by
  cases left : isNaN v with
  | false => exact .inl ((laws.displayUnsignedZero_inj left).mp same)
  | true =>
      cases right : isNaN w with
      | true => exact .inr ⟨left, right⟩
      | false =>
          have equal := (laws.displayUnsignedZero_inj right).mp same.symm
          rw [(laws.isNaN_of_eq w v equal).2] at left
          cases left

end Documented

end RustFloat

end Library
