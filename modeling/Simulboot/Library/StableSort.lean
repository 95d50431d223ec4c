import Mathlib.Data.List.Sort

/-!
# Sorting while inserting

A list that is sorted again after every item put at its end is the stable sort
of all the items at once.
-/

set_option autoImplicit false

namespace Library.StableSort

variable {α : Type} {r : α → α → Prop} [DecidableRel r] [Std.Total r] [IsTrans α r]

theorem orderedInsert_comm {a b : α} (after : ¬ r a b) (items : List α) :
    (items.orderedInsert r a).orderedInsert r b = (items.orderedInsert r b).orderedInsert r a := by
  have before : r b a := (Std.Total.total (r := r) a b).resolve_left after
  induction items with
  | nil => simp [before, after]
  | cons head rest ih =>
      by_cases aFirst : r a head
      · have bFirst : r b head := IsTrans.trans _ _ _ before aFirst
        simp [aFirst, bFirst, before, after]
      · by_cases bFirst : r b head
        · simp [aFirst, bFirst, after]
        · simp [aFirst, bFirst, ih]

private theorem insertionSort_orderedInsert_append (a : α) (items more : List α) :
    (items.orderedInsert r a ++ more).insertionSort r =
      ((items ++ more).insertionSort r).orderedInsert r a := by
  induction items with
  | nil => rfl
  | cons head rest ih =>
      by_cases first : r a head
      · simp [first]
      · simp only [List.orderedInsert_of_not_le _ _ first, List.cons_append,
          List.insertionSort_cons, ih]
        exact orderedInsert_comm first _

theorem insertionSort_append (items more : List α) :
    (items.insertionSort r ++ more).insertionSort r = (items ++ more).insertionSort r := by
  induction items with
  | nil => rfl
  | cons head rest ih =>
      rw [List.insertionSort_cons, insertionSort_orderedInsert_append, ih]
      rfl

/-- Items put at the end one by one, each with a sort behind it, are sorted at once. -/
theorem foldl_insertionSort (items more : List α) :
    more.foldl (fun sorted a => (sorted ++ [a]).insertionSort r) (items.insertionSort r) =
      (items ++ more).insertionSort r := by
  induction more generalizing items with
  | nil => rw [List.foldl_nil, List.append_nil]
  | cons a more ih =>
      rw [List.foldl_cons, insertionSort_append, ih, List.append_assoc, List.singleton_append]

/-- Items that can be told apart by the order are sorted in one way only. -/
theorem insertionSort_eq_of_perm {items others : List α} (perm : items.Perm others)
    (apart : ∀ a ∈ items, ∀ b ∈ items, r a b → r b a → a = b) :
    items.insertionSort r = others.insertionSort r := by
  have same : (items.insertionSort r).Perm (others.insertionSort r) :=
    (List.perm_insertionSort r items).trans (perm.trans (List.perm_insertionSort r others).symm)
  refine List.Perm.eq_of_pairwise (fun a b left right => ?_) (List.pairwise_insertionSort r items)
    (List.pairwise_insertionSort r others) same
  have inItems := (List.perm_insertionSort r items).mem_iff.mp left
  have inOthers := (List.perm_insertionSort r others).mem_iff.mp right
  exact apart a inItems b (perm.mem_iff.mpr inOthers)

end Library.StableSort
