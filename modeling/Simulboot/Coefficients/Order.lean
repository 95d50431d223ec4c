import Simulboot.Library.Pointwise
import Simulboot.Coefficients

/-!
# The order of coefficients

Smaller is more constrained. Two coefficients that lie below each other are
printed alike, whatever number of delay paths they have.
-/

set_option autoImplicit false

namespace Simulboot

open Library

/-! ## Labels and counts -/

theorem Confidentiality.rank_injective : Function.Injective rank := by
  intro left right same
  cases left <;> cases right <;> first | rfl | cases same

theorem Integrity.rank_injective : Function.Injective rank := by
  intro left right same
  cases left <;> cases right <;> first | rfl | cases same

namespace Linearity

theorem le_refl (l : Linearity) : l.le l = true := by
  cases l with
  | finite n => exact decide_eq_true (UInt64.le_refl n)
  | omega => rfl

theorem le_trans {k l m : Linearity} (first : k.le l = true) (second : l.le m = true) :
    k.le m = true := by
  cases m with
  | omega => cases k <;> rfl
  | finite c =>
      cases l with
      | omega => cases second
      | finite b =>
          cases k with
          | omega => cases first
          | finite a =>
              exact decide_eq_true (UInt64.le_trans (of_decide_eq_true first)
                (of_decide_eq_true second))

theorem le_antisymm {l m : Linearity} (below : l.le m = true) (above : m.le l = true) :
    l = m := by
  cases l with
  | omega =>
      cases m with
      | omega => rfl
      | finite b => cases below
  | finite a =>
      cases m with
      | omega => cases above
      | finite b =>
          rw [UInt64.le_antisymm (of_decide_eq_true below) (of_decide_eq_true above)]

theorem omega_le {l : Linearity} (above : Linearity.omega.le l = true) : l = .omega := by
  cases l with
  | omega => rfl
  | finite n => cases above

end Linearity

variable {D : Type} [Zero D] [RustFloat D]

/-! ## Endpoints -/

namespace Bound

theorem le_refl (laws : RustFloat.Documented D) {b : Bound D} (number : b.IsNumber) :
    b.le b = true := by
  cases b with
  | negInf => exact negInf_le laws _
  | posInf => exact le_posInf laws _
  | finite x => simpa [le, key] using laws.le_self x number

theorem le_negInf {b : Bound D} (below : b.le negInf = true) : b = negInf := by
  cases b with
  | negInf => rfl
  | finite x => simp [le, key] at below
  | posInf => simp [le, key] at below

theorem posInf_le {b : Bound D} (above : posInf.le b = true) : b = posInf := by
  cases b with
  | negInf => simp [le, key] at above
  | finite x => simp [le, key] at above
  | posInf => rfl

theorem finite_le {x y : D} : (finite x).le (finite y) = RustFloat.le x y := by
  simp [le, key]

variable (laws : RustFloat.Documented D) (order : RustFloat.Ordered D)

include laws order

theorem le_trans {a b c : Bound D} (first : a.le b = true) (second : b.le c = true) :
    a.le c = true := by
  cases a with
  | negInf => exact negInf_le laws c
  | posInf =>
      obtain rfl := posInf_le first
      exact second
  | finite x =>
      cases c with
      | posInf => exact le_posInf laws _
      | negInf =>
          obtain rfl := le_negInf second
          exact first
      | finite z =>
          cases b with
          | negInf => exact absurd (le_negInf first) (by simp)
          | posInf => exact absurd (posInf_le second) (by simp)
          | finite y =>
              rw [finite_le] at first second ⊢
              exact order.le_trans x y z first second

/-- Endpoints below each other are those that are printed alike. -/
theorem le_antisymm_iff {a b : Bound D} (number : a.IsNumber) :
    a.le b = true ∧ b.le a = true ↔ a.toStr = b.toStr := by
  have word : ∀ {v : D} {text : Str}, 'I' ∈ text → fmtF64 v ≠ text := by
    intro v text capital same
    rw [← same] at capital
    exact absurd (laws.displayUnsignedZero_alphabet v _ capital) (by decide)
  have notLow : ∀ v : D, fmtF64 v ≠ "-INF".toList := fun v => word (by decide)
  have notHigh : ∀ v : D, fmtF64 v ≠ "+INF".toList := fun v => word (by decide)
  have apart : "-INF".toList ≠ "+INF".toList := by decide
  cases a with
  | negInf =>
      constructor
      · intro ⟨_, above⟩
        rw [le_negInf above]
      · intro same
        cases b with
        | negInf => exact ⟨negInf_le laws _, negInf_le laws _⟩
        | finite y => exact absurd same.symm (notLow y)
        | posInf => exact absurd same apart
  | posInf =>
      constructor
      · intro ⟨below, _⟩
        rw [posInf_le below]
      · intro same
        cases b with
        | negInf => exact absurd same.symm apart
        | finite y => exact absurd same.symm (notHigh y)
        | posInf => exact ⟨le_posInf laws _, le_posInf laws _⟩
  | finite x =>
      cases b with
      | negInf =>
          constructor
          · intro ⟨below, _⟩
            exact absurd (le_negInf below) (by simp)
          · intro same
            exact absurd same (notLow x)
      | posInf =>
          constructor
          · intro ⟨_, above⟩
            exact absurd (posInf_le above) (by simp)
          · intro same
            exact absurd same (notHigh x)
      | finite y =>
          rw [finite_le, finite_le]
          have alike : (finite x).toStr = (finite y).toStr ↔ RustFloat.eq x y = true :=
            laws.displayUnsignedZero_inj number
          rw [alike]
          exact ⟨fun ⟨below, above⟩ => order.le_antisymm x y below above, order.le_of_eq x y⟩

end Bound

/-! ## Intervals -/

namespace Interval

theorem eq_unbounded {iv : Interval D} (same : iv.eq unbounded = true) : iv = unbounded := by
  obtain ⟨lo, hi⟩ := iv
  obtain ⟨low, high⟩ := Bool.and_eq_true_iff.mp same
  cases lo with
  | finite x => cases low
  | posInf => cases low
  | negInf =>
      cases hi with
      | negInf => cases high
      | finite x => cases high
      | posInf => rfl

theorem unbounded_containedIn {iv : Interval D} (within : unbounded.containedIn iv = true) :
    iv = unbounded := by
  obtain ⟨lo, hi⟩ := iv
  obtain ⟨low, high⟩ := Bool.and_eq_true_iff.mp within
  obtain rfl := Bound.le_negInf low
  obtain rfl := Bound.posInf_le high
  rfl

variable (laws : RustFloat.Documented D)

include laws

theorem containedIn_refl {iv : Interval D} (number : iv.IsNumber) : iv.containedIn iv = true :=
  Bool.and_eq_true_iff.mpr ⟨Bound.le_refl laws number.1, Bound.le_refl laws number.2⟩

variable (order : RustFloat.Ordered D)

include order

theorem containedIn_trans {a b c : Interval D} (first : a.containedIn b = true)
    (second : b.containedIn c = true) : a.containedIn c = true := by
  obtain ⟨firstLow, firstHigh⟩ := Bool.and_eq_true_iff.mp first
  obtain ⟨secondLow, secondHigh⟩ := Bool.and_eq_true_iff.mp second
  exact Bool.and_eq_true_iff.mpr ⟨Bound.le_trans laws order secondLow firstLow,
    Bound.le_trans laws order firstHigh secondHigh⟩

theorem containedIn_antisymm_iff {a b : Interval D} (number : a.IsNumber) :
    a.containedIn b = true ∧ b.containedIn a = true ↔
      a.hi.toStr = b.hi.toStr ∧ a.lo.toStr = b.lo.toStr := by
  rw [← Bound.le_antisymm_iff laws order number.1, ← Bound.le_antisymm_iff laws order number.2]
  unfold containedIn
  rw [Bool.and_eq_true, Bool.and_eq_true]
  constructor
  · intro ⟨⟨below, low⟩, above, high⟩
    exact ⟨⟨low, high⟩, above, below⟩
  · intro ⟨⟨low, high⟩, above, below⟩
    exact ⟨⟨below, low⟩, above, high⟩

end Interval

/-! ## Coefficients -/

namespace Coefficient

def Numbers (c : Coefficient D) : Prop :=
  ∀ iv ∈ c.timing, iv.IsNumber

theorem leq_iff {a b : Coefficient D} :
    a.leq b = true ↔
      List.Forall₂ (fun first second => first.containedIn second = true) a.timing b.timing ∧
        a.confidentiality.rank ≤ b.confidentiality.rank ∧
        a.integrity.rank ≤ b.integrity.rank ∧ a.linearity.le b.linearity = true := by
  unfold leq
  rw [List.forall₂_iff_zip]
  simp only [Bool.and_eq_true, beq_iff_eq, List.all_eq_true, decide_eq_true_eq, Prod.forall,
    and_assoc]

/-- The pieces of a coefficient that its text quotes. -/
structure Quoted where
  timing : List (Str × Str)
  confidentiality : Confidentiality
  integrity : Integrity
  linearity : Linearity

def quoted (c : Coefficient D) : Quoted :=
  { timing := c.timing.map fun iv => (iv.hi.toStr, iv.lo.toStr)
    confidentiality := c.confidentiality
    integrity := c.integrity
    linearity := c.linearity }

theorem isTop_iff {c : Coefficient D} : c.isTop = true ↔ c = top := by
  constructor
  · intro isTop
    obtain ⟨timing, confidentiality, integrity, linearity⟩ := c
    simp only [Coefficient.isTop, Bool.and_eq_true, decide_eq_true_eq] at isTop
    obtain ⟨⟨⟨paths, rfl⟩, rfl⟩, rfl⟩ := isTop
    cases timing with
    | nil => cases paths
    | cons interval rest =>
        cases rest with
        | nil => rw [Interval.eq_unbounded paths, top]
        | cons _ _ => cases paths
  · intro same
    rw [same, isTop_top]

/-- Nothing but the top lies above the top. -/
theorem top_leq_iff (laws : RustFloat.Documented D) {c : Coefficient D} :
    (top : Coefficient D).leq c = true ↔ c.isTop = true := by
  rw [isTop_iff]
  constructor
  · intro above
    obtain ⟨paths, confidentiality, integrity, linearity⟩ := leq_iff.mp above
    obtain ⟨interval, rest, within, tail, single⟩ := List.forall₂_cons_left_iff.mp paths
    cases tail
    have bounds := Interval.unbounded_containedIn within
    have label := Confidentiality.rank_injective (c.confidentiality.rank_le.antisymm confidentiality)
    have trust := Integrity.rank_injective (c.integrity.rank_le.antisymm integrity)
    have count := Linearity.omega_le linearity
    obtain ⟨timing, _, _, _⟩ := c
    subst single bounds label trust count
    rfl
  · intro same
    rw [same, leq_top_iff laws]
    rfl

variable (laws : RustFloat.Documented D)

include laws

theorem leq_refl {c : Coefficient D} (numbers : c.Numbers) : c.leq c = true :=
  leq_iff.mpr ⟨List.forall₂_same.mpr fun iv member => Interval.containedIn_refl laws
    (numbers iv member), le_rfl, le_rfl, c.linearity.le_refl⟩

variable (order : RustFloat.Ordered D)

include order

theorem leq_trans {a b c : Coefficient D} (first : a.leq b = true) (second : b.leq c = true) :
    a.leq c = true := by
  obtain ⟨firstPaths, firstLabel, firstIntegrity, firstCount⟩ := leq_iff.mp first
  obtain ⟨paths, label, integrity, count⟩ := leq_iff.mp second
  refine leq_iff.mpr ⟨?_, firstLabel.trans label, firstIntegrity.trans integrity,
    Linearity.le_trans firstCount count⟩
  exact Pointwise.trans firstPaths paths fun _ _ _ => Interval.containedIn_trans laws order

/-- Coefficients below each other are those whose text quotes the same. -/
theorem leq_antisymm_iff {a b : Coefficient D} (numbers : a.Numbers) :
    a.leq b = true ∧ b.leq a = true ↔ a.quoted = b.quoted := by
  have alike : List.Forall₂ (fun first second => first.containedIn second = true ∧
        second.containedIn first = true) a.timing b.timing ↔
      a.timing.map (fun iv => (iv.hi.toStr, iv.lo.toStr)) =
        b.timing.map fun iv => (iv.hi.toStr, iv.lo.toStr) := by
    rw [← Pointwise.map_eq_iff]
    refine Pointwise.congr_left numbers fun first second number => ?_
    rw [Interval.containedIn_antisymm_iff laws order number, Prod.mk.injEq]
  rw [leq_iff, leq_iff]
  constructor
  · intro ⟨⟨paths, label, integrity, count⟩, abovePaths, aboveLabel, aboveIntegrity, aboveCount⟩
    unfold quoted
    rw [alike.mp (Pointwise.and_flip_iff.mp ⟨paths, abovePaths⟩),
      Confidentiality.rank_injective (label.antisymm aboveLabel),
      Integrity.rank_injective (integrity.antisymm aboveIntegrity),
      Linearity.le_antisymm count aboveCount]
  · intro same
    obtain ⟨paths, label, integrity, count⟩ := Quoted.mk.inj same
    obtain ⟨below, above⟩ := Pointwise.and_flip_iff.mpr (alike.mpr paths)
    rw [label, integrity, count]
    exact ⟨⟨below, le_rfl, le_rfl, b.linearity.le_refl⟩, above, le_rfl, le_rfl,
      b.linearity.le_refl⟩

end Coefficient

end Simulboot
