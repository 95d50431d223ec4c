import Mathlib.Order.Interval.Set.Basic
import Simulboot.Coefficients.Order

/-!
# What a coefficient admits

A coefficient stands for the uses of a surface that it admits: how long a frame may
take on each delay path, who may see it, who may feed it, and how many copies may be
made. A coefficient below another admits less.
-/

set_option autoImplicit false

namespace Simulboot

open Library

variable {D : Type} [Zero D] [RustFloat D]

structure Use (D : Type) where
  delays : List (Bound D)
  observer : Confidentiality
  source : Integrity
  copies : Nat

/-! ## Timing -/

private theorem Bound.toStr_dropZeroSign (laws : RustFloat.Documented D) {b : Bound D}
    (number : b.IsNumber) : b.dropZeroSign.toStr = b.toStr := by
  cases b with
  | negInf => rfl
  | posInf => rfl
  | finite v =>
      have kept : RustFloat.isNaN (RustFloat.dropZeroSign v) = false := by
        rw [laws.isNaN_dropZeroSign]
        exact number
      exact (laws.displayUnsignedZero_inj kept).mpr (laws.dropZeroSign_eq number)

namespace Interval

def delays (iv : Interval D) : Set (Bound D) :=
  {delay | delay.IsNumber ∧ iv.lo.le delay = true ∧ delay.le iv.hi = true}

/-- The bounds do not cross. -/
def Proper (iv : Interval D) : Prop :=
  iv.IsNumber ∧ iv.lo.le iv.hi = true

variable (laws : RustFloat.Documented D)

include laws

private theorem Proper.lo_mem {iv : Interval D} (proper : iv.Proper) : iv.lo ∈ iv.delays :=
  ⟨proper.1.1, Bound.le_refl laws proper.1.1, proper.2⟩

private theorem Proper.hi_mem {iv : Interval D} (proper : iv.Proper) : iv.hi ∈ iv.delays :=
  ⟨proper.1.2, proper.2, Bound.le_refl laws proper.1.2⟩

private theorem mem_delays_unbounded {delay : Bound D} :
    delay ∈ (unbounded : Interval D).delays ↔ delay.IsNumber :=
  ⟨And.left, fun number => ⟨number, Bound.negInf_le laws _, Bound.le_posInf laws _⟩⟩

variable (order : RustFloat.Ordered D)

include order

private theorem delays_subset {a b : Interval D} (within : a.containedIn b = true) :
    a.delays ⊆ b.delays := by
  obtain ⟨low, high⟩ := Bool.and_eq_true_iff.mp within
  intro delay inside
  obtain ⟨number, above, below⟩ := inside
  exact ⟨number, Bound.le_trans laws order low above, Bound.le_trans laws order below high⟩

private theorem delays_subset_iff {a b : Interval D} (proper : a.Proper) :
    a.delays ⊆ b.delays ↔ a.containedIn b = true := by
  constructor
  · intro inside
    obtain ⟨_, low, _⟩ := inside (proper.lo_mem laws)
    obtain ⟨_, _, high⟩ := inside (proper.hi_mem laws)
    exact Bool.and_eq_true_iff.mpr ⟨low, high⟩
  · exact delays_subset laws order

/-- The sign of a zero bound does not matter. -/
theorem delays_dropZeroSign {iv : Interval D} (number : iv.IsNumber) :
    iv.dropZeroSign.delays = iv.delays := by
  obtain ⟨within, holds⟩ := (containedIn_antisymm_iff laws order (b := iv.dropZeroSign) number).mpr
    ⟨(Bound.toStr_dropZeroSign laws number.2).symm, (Bound.toStr_dropZeroSign laws number.1).symm⟩
  exact (delays_subset laws order holds).antisymm (delays_subset laws order within)

end Interval

/-! ## Usage -/

namespace Linearity

def counts : Linearity → Set Nat
  | .finite n => Set.Iic n.toNat
  | .omega => Set.univ

private theorem zero_mem_counts (l : Linearity) : 0 ∈ l.counts := by
  cases l with
  | finite n => exact Nat.zero_le _
  | omega => exact Set.mem_univ _

private theorem counts_subset_iff {l m : Linearity} : l.counts ⊆ m.counts ↔ l.le m = true := by
  cases m with
  | omega => exact iff_of_true (Set.subset_univ _) (by cases l <;> rfl)
  | finite n =>
      cases l with
      | finite k =>
          unfold counts le
          rw [Set.Iic_subset_Iic, decide_eq_true_iff, UInt64.le_iff_toNat_le]
      | omega =>
          refine iff_of_false (fun inside => ?_) Bool.false_ne_true
          have counted : n.toNat + 1 ≤ n.toNat := inside (Set.mem_univ (n.toNat + 1))
          omega

end Linearity

/-! ## Coefficients -/

namespace Coefficient

def uses (c : Coefficient D) : Set (Use D) :=
  {use | List.Forall₂ (fun delay iv => delay ∈ iv.delays) use.delays c.timing ∧
    use.observer.rank ≤ c.confidentiality.rank ∧ use.source.rank ≤ c.integrity.rank ∧
    use.copies ∈ c.linearity.counts}

def Proper (c : Coefficient D) : Prop :=
  ∀ iv ∈ c.timing, iv.Proper

variable (laws : RustFloat.Documented D)

include laws

theorem mem_uses_top {use : Use D} :
    use ∈ (top : Coefficient D).uses ↔
      ∃ delay : Bound D, use.delays = [delay] ∧ delay.IsNumber := by
  constructor
  · intro ⟨delays, _⟩
    obtain ⟨delay, rest, inside, none, same⟩ := List.forall₂_cons_right_iff.mp delays
    cases none
    exact ⟨delay, same, inside.1⟩
  · intro ⟨delay, same, number⟩
    refine ⟨?_, use.observer.rank_le, use.source.rank_le, Set.mem_univ _⟩
    rw [same]
    exact .cons ((Interval.mem_delays_unbounded laws).mpr number) .nil

private theorem Proper.exists_delays {c : Coefficient D} (proper : c.Proper) :
    ∃ delays : List (Bound D),
      List.Forall₂ (fun delay iv => delay ∈ iv.delays) delays c.timing :=
  Pointwise.exists_points fun iv member => ⟨iv.lo, (proper iv member).lo_mem laws⟩

variable (order : RustFloat.Ordered D)

include order

theorem uses_subset {a b : Coefficient D} (below : a.leq b = true) : a.uses ⊆ b.uses := by
  obtain ⟨timing, label, trust, count⟩ := leq_iff.mp below
  intro use admitted
  obtain ⟨taken, seen, fed, copied⟩ := admitted
  refine ⟨?_, seen.trans label, fed.trans trust, Linearity.counts_subset_iff.mpr count copied⟩
  exact Pointwise.trans taken timing fun _ _ _ inside within =>
    Interval.delays_subset laws order within inside

theorem uses_subset_iff {a b : Coefficient D} (proper : a.Proper) :
    a.uses ⊆ b.uses ↔ a.leq b = true := by
  refine ⟨fun inside => ?_, uses_subset laws order⟩
  obtain ⟨delays, admitted⟩ := proper.exists_delays laws
  have none := a.linearity.zero_mem_counts
  have label := (@inside ⟨delays, _, _, 0⟩ ⟨admitted, le_rfl, le_rfl, none⟩).2.1
  have trust := (@inside ⟨delays, _, _, 0⟩ ⟨admitted, le_rfl, le_rfl, none⟩).2.2.1
  have count := Linearity.counts_subset_iff.mp fun copies allowed =>
    (@inside ⟨delays, _, _, copies⟩ ⟨admitted, le_rfl, le_rfl, allowed⟩).2.2.2
  refine leq_iff.mpr ⟨?_, label, trust, count⟩
  have sides := Pointwise.of_points_subset (fun iv member => ⟨iv.lo, (proper iv member).lo_mem laws⟩)
    fun other allowed => (@inside ⟨other, _, _, 0⟩ ⟨allowed, le_rfl, le_rfl, none⟩).1
  exact (Pointwise.congr_left proper fun _ _ => Interval.delays_subset_iff laws order).mp sides

end Coefficient

end Simulboot
