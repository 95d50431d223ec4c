import Mathlib.Algebra.Order.BigOperators.Group.List
import Mathlib.Algebra.Order.Group.Basic
import Mathlib.Data.List.Infix
import Mathlib.Data.List.Pairwise

/-!
# Tiles on a line

Items of given widths laid side by side. Each point between the two ends is
covered by one of them, and those that reach into a window are a run of them.
-/

set_option autoImplicit false

namespace Library

/-! ## Filters along an order -/

section

variable {τ : Type} {r : τ → τ → Prop} {p q : τ → Bool}

theorem filter_isPrefix {items : List τ} (ordered : items.Pairwise r)
    (down : ∀ a b, r a b → q b = true → q a = true) : items.filter q <+: items := by
  induction ordered with
  | nil => exact List.prefix_rfl
  | @cons a rest before _ ih =>
      by_cases kept : q a = true
      · rw [List.filter_cons_of_pos kept, List.prefix_cons_inj]
        exact ih
      · have none : rest.filter q = [] := by
          rw [List.filter_eq_nil_iff]
          intro b member later
          exact kept (down a b (before b member) later)
        rw [List.filter_cons_of_neg kept, none]
        exact List.nil_prefix

theorem filter_isInfix {items : List τ} (ordered : items.Pairwise r)
    (up : ∀ a b, r a b → p a = true → p b = true) (down : ∀ a b, r a b → q b = true → q a = true) :
    (items.filter fun a => p a && q a) <:+: items := by
  induction ordered with
  | nil => exact List.infix_rfl
  | @cons a rest before ordered ih =>
      by_cases kept : p a = true
      · have all : (rest.filter fun b => p b && q b) = rest.filter q := by
          refine List.filter_congr fun b member => ?_
          rw [up a b (before b member) kept, Bool.true_and]
        have whole : ((a :: rest).filter fun b => p b && q b) = (a :: rest).filter q := by
          rw [List.filter_cons, List.filter_cons, kept, Bool.true_and, all]
        rw [whole]
        exact (filter_isPrefix (ordered.cons before) down).isInfix
      · have dropped : ¬ (p a && q a) = true := by simp [kept]
        rw [List.filter_cons_of_neg (p := fun b => p b && q b) dropped]
        exact ih.trans (List.suffix_cons a rest).isInfix

end

/-! ## Tiles -/

variable {α F : Type} [AddCommGroup F] [LinearOrder F] [IsOrderedAddMonoid F] (width : α → F)

/-- Items side by side from an edge on, each with its left edge. -/
def tiles : F → List α → List (α × F)
  | _, [] => []
  | start, a :: rest => (a, start) :: tiles (start + width a) rest

def Covers (point : F) (tile : α × F) : Prop :=
  tile.2 ≤ point ∧ point < tile.2 + width tile.1

instance (point : F) (tile : α × F) : Decidable (Covers width point tile) :=
  inferInstanceAs (Decidable (tile.2 ≤ point ∧ point < tile.2 + width tile.1))

omit [LinearOrder F] [IsOrderedAddMonoid F] in
theorem map_fst_tiles (start : F) (items : List α) : (tiles width start items).map Prod.fst = items := by
  induction items generalizing start with
  | nil => rfl
  | cons a rest ih => exact congrArg (a :: ·) (ih (start + width a))

variable {width}

omit [LinearOrder F] [IsOrderedAddMonoid F] in
theorem mem_of_mem_tiles {start : F} {items : List α} {tile : α × F}
    (member : tile ∈ tiles width start items) : tile.1 ∈ items := by
  rw [← map_fst_tiles width start items]
  exact List.mem_map_of_mem member

private theorem start_le_of_mem_tiles {start : F} {items : List α} (wide : ∀ a ∈ items, 0 ≤ width a)
    {tile : α × F} (member : tile ∈ tiles width start items) : start ≤ tile.2 := by
  induction items generalizing start with
  | nil => cases member
  | cons a rest ih =>
      obtain rfl | later := List.mem_cons.mp member
      · exact le_rfl
      · have moved : start ≤ start + width a := le_add_of_nonneg_right (wide a List.mem_cons_self)
        exact moved.trans (ih (fun b inside => wide b (List.mem_cons_of_mem a inside)) later)

theorem tiles_pairwise (start : F) {items : List α} (wide : ∀ a ∈ items, 0 ≤ width a) :
    (tiles width start items).Pairwise fun a b => a.2 + width a.1 ≤ b.2 := by
  induction items generalizing start with
  | nil => exact .nil
  | cons a rest ih =>
      have wideRest : ∀ b ∈ rest, 0 ≤ width b := fun b inside =>
        wide b (List.mem_cons_of_mem a inside)
      exact (ih _ wideRest).cons fun tile member => start_le_of_mem_tiles wideRest member

/-- The points that are covered are those between the ends. -/
theorem exists_covers_iff {start point : F} {items : List α} (wide : ∀ a ∈ items, 0 ≤ width a) :
    (∃ tile ∈ tiles width start items, Covers width point tile) ↔
      start ≤ point ∧ point < start + (items.map width).sum := by
  induction items generalizing start with
  | nil => simp [tiles]
  | cons a rest ih =>
      have wideRest : ∀ b ∈ rest, 0 ≤ width b := fun b inside =>
        wide b (List.mem_cons_of_mem a inside)
      have moved : start ≤ start + width a := le_add_of_nonneg_right (wide a List.mem_cons_self)
      have behind : 0 ≤ (rest.map width).sum := List.sum_nonneg (by simpa using wideRest)
      have total : start + ((a :: rest).map width).sum =
          start + width a + (rest.map width).sum := by
        rw [List.map_cons, List.sum_cons, add_assoc]
      unfold tiles
      rw [List.exists_mem_cons_iff, ih wideRest, total]
      constructor
      · rintro (⟨left, right⟩ | ⟨left, right⟩)
        · exact ⟨left, right.trans_le (le_add_of_nonneg_right behind)⟩
        · exact ⟨moved.trans left, right⟩
      · intro ⟨left, right⟩
        by_cases first : point < start + width a
        · exact .inl ⟨left, first⟩
        · exact .inr ⟨not_lt.mp first, right⟩

theorem covers_unique {start point : F} {items : List α} (wide : ∀ a ∈ items, 0 ≤ width a)
    {tile other : α × F} (member : tile ∈ tiles width start items)
    (otherMember : other ∈ tiles width start items) (covered : Covers width point tile)
    (otherCovered : Covers width point other) : tile = other := by
  have once : (tiles width start items).Pairwise fun a b =>
      Covers width point a → Covers width point b → a = b := by
    refine (tiles_pairwise start wide).imp fun apart left right => ?_
    exact absurd (left.2.trans_le (apart.trans right.1)) (lt_irrefl point)
  have symm : Std.Symm fun a b : α × F => Covers width point a → Covers width point b → a = b :=
    ⟨fun _ _ same right left => (same left right).symm⟩
  exact List.Pairwise.forall_of_forall (fun _ _ _ _ => rfl) once member otherMember covered
    otherCovered

/-- A tile reaches into a window where it covers a point of it. -/
theorem meets_iff_exists_covers {low high : F} (window : low < high) (tile : α × F)
    (wide : 0 < width tile.1) :
    low < tile.2 + width tile.1 ∧ tile.2 < high ↔
      ∃ point, low ≤ point ∧ point < high ∧ Covers width point tile := by
  constructor
  · intro ⟨reaches, starts⟩
    exact ⟨max low tile.2, le_max_left _ _, max_lt window starts, le_max_right _ _,
      max_lt reaches (lt_add_of_pos_right _ wide)⟩
  · intro ⟨point, above, below, left, right⟩
    exact ⟨above.trans_lt right, left.trans_lt below⟩

/-- The tiles that reach into a window follow one another. -/
theorem meets_infix (low high start : F) {items : List α} (wide : ∀ a ∈ items, 0 ≤ width a) :
    ((tiles width start items).filter fun tile =>
      low < tile.2 + width tile.1 && tile.2 < high) <:+: tiles width start items := by
  have ordered : (tiles width start items).Pairwise fun a b =>
      a.2 ≤ b.2 ∧ a.2 + width a.1 ≤ b.2 + width b.1 := by
    refine (tiles_pairwise start wide).imp_of_mem fun left right apart => ?_
    have leftWide := wide _ (mem_of_mem_tiles left)
    have rightWide := wide _ (mem_of_mem_tiles right)
    exact ⟨(le_add_of_nonneg_right leftWide).trans apart,
      apart.trans (le_add_of_nonneg_right rightWide)⟩
  refine filter_isInfix ordered (fun a b later reaches => ?_) fun a b later starts => ?_
  · exact decide_eq_true ((of_decide_eq_true reaches).trans_le later.2)
  · exact decide_eq_true (later.1.trans_lt (of_decide_eq_true starts))

end Library
