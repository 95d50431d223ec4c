import Mathlib.Data.List.Forall2
import Mathlib.Data.List.Nodup

/-!
# Lists compared position by position

How relations between two lists compose, and when a search by key compares the
items that stand at one position.
-/

set_option autoImplicit false

namespace Library.Pointwise

open List

variable {α β γ κ : Type}

theorem trans {R : α → β → Prop} {S : β → γ → Prop} {T : α → γ → Prop} {left : List α}
    {middle : List β} {right : List γ} (first : Forall₂ R left middle)
    (second : Forall₂ S middle right) (compose : ∀ a b c, R a b → S b c → T a c) :
    Forall₂ T left right := by
  induction first generalizing right with
  | nil =>
      cases second
      exact .nil
  | cons head _ ih =>
      cases second with
      | cons other rest => exact .cons (compose _ _ _ head other) (ih rest)

theorem and_flip_iff {R : α → β → Prop} {S : β → α → Prop} {left : List α} {right : List β} :
    Forall₂ R left right ∧ Forall₂ S right left ↔
      Forall₂ (fun a b => R a b ∧ S b a) left right := by
  constructor
  · intro ⟨below, above⟩
    exact below.mp (fun _ _ first second => ⟨first, second⟩) above.flip
  · intro both
    exact ⟨both.imp fun _ _ => And.left, (both.imp fun _ _ => And.right).flip⟩

theorem map_eq_iff {f : α → γ} {g : β → γ} {left : List α} {right : List β} :
    Forall₂ (fun a b => f a = g b) left right ↔ left.map f = right.map g := by
  rw [← forall₂_eq_eq_eq, forall₂_map_left_iff, forall₂_map_right_iff]

/-- Relations that agree on the items of the left list agree on the lists. -/
theorem congr_left {R S : α → β → Prop} {p : α → Prop} {left : List α} {right : List β}
    (all : ∀ a ∈ left, p a) (same : ∀ a b, p a → (R a b ↔ S a b)) :
    Forall₂ R left right ↔ Forall₂ S left right := by
  have guarded : ∀ T : α → β → Prop,
      Forall₂ T left right ↔ Forall₂ (fun a b => p a ∧ T a b) left right := by
    intro T
    rw [forall₂_and_left, and_iff_right all]
  rw [guarded R, guarded S]
  exact ⟨fun related => related.imp fun a b both => ⟨both.1, (same a b both.1).mp both.2⟩,
    fun related => related.imp fun a b both => ⟨both.1, (same a b both.1).mpr both.2⟩⟩

theorem right_only {p : β → Prop} {left : List α} {right : List β}
    (size : left.length = right.length) :
    Forall₂ (fun _ b => p b) left right ↔ ∀ b ∈ right, p b := by
  induction left generalizing right with
  | nil =>
      obtain rfl := List.length_eq_zero_iff.mp size.symm
      simp
  | cons head tail ih =>
      cases right with
      | nil => cases size
      | cons first rest =>
          rw [forall₂_cons, List.forall_mem_cons, ih (Nat.succ.inj size)]

theorem congr_right {R S : α → β → Prop} {p : β → Prop} {left : List α} {right : List β}
    (all : ∀ b ∈ right, p b) (same : ∀ a b, p b → (R a b ↔ S a b)) :
    Forall₂ R left right ↔ Forall₂ S left right := by
  have flipped : Forall₂ (flip R) right left ↔ Forall₂ (flip S) right left :=
    congr_left all fun b a holds => same a b holds
  exact ⟨fun related => (flipped.mp related.flip).flip,
    fun related => (flipped.mpr related.flip).flip⟩

theorem exists_points {R : γ → α → Prop} {sides : List α}
    (inhabited : ∀ a ∈ sides, ∃ point, R point a) :
    ∃ points, Forall₂ R points sides := by
  induction sides with
  | nil => exact ⟨[], .nil⟩
  | cons side sides ih =>
      obtain ⟨point, inside⟩ := inhabited side List.mem_cons_self
      obtain ⟨points, related⟩ := ih fun a member => inhabited a (List.mem_cons_of_mem _ member)
      exact ⟨point :: points, .cons inside related⟩

/-- A box of inhabited sides lies in another only where each side lies in the one at
its position. -/
theorem of_points_subset {R : γ → α → Prop} {S : γ → β → Prop} {left : List α} {right : List β}
    (inhabited : ∀ a ∈ left, ∃ point, R point a)
    (inside : ∀ points, Forall₂ R points left → Forall₂ S points right) :
    Forall₂ (fun a b => ∀ point, R point a → S point b) left right := by
  induction left generalizing right with
  | nil =>
      cases inside [] .nil
      exact .nil
  | cons side left ih =>
      obtain ⟨point, first⟩ := inhabited side List.mem_cons_self
      have rest := fun a member => inhabited a (List.mem_cons_of_mem side member)
      obtain ⟨points, others⟩ := exists_points rest
      cases inside (point :: points) (.cons first others) with
      | cons head tail =>
          refine .cons (fun other allowed => ?_) (ih rest fun more allowed => ?_)
          · exact (forall₂_cons.mp (inside (other :: points) (.cons allowed others))).1
          · exact (forall₂_cons.mp (inside (point :: more) (.cons first allowed))).2

/-- In lists of the same distinct keys, each item finds the one at its position. -/
theorem forall_exists_iff {R : α → β → Prop} {key : α → κ} {other : β → κ} {left : List α}
    {right : List β} (keys : left.map key = right.map other) (distinct : (left.map key).Nodup) :
    (∀ a ∈ left, ∃ b ∈ right, other b = key a ∧ R a b) ↔ Forall₂ R left right := by
  induction left generalizing right with
  | nil =>
      obtain rfl := List.map_eq_nil_iff.mp keys.symm
      simp
  | cons head tail ih =>
      cases right with
      | nil => cases keys
      | cons first rest =>
          obtain ⟨same, tails⟩ := List.cons_eq_cons.mp keys
          obtain ⟨fresh, distinct⟩ := List.nodup_cons.mp distinct
          have atHead : (∃ b ∈ first :: rest, other b = key head ∧ R head b) ↔ R head first := by
            constructor
            · intro ⟨b, member, keyed, related⟩
              rcases List.mem_cons.mp member with rfl | later
              · exact related
              · rw [tails, ← keyed] at fresh
                exact absurd (List.mem_map_of_mem later) fresh
            · intro related
              exact ⟨first, List.mem_cons_self, same.symm, related⟩
          have inTail : ∀ a ∈ tail, (∃ b ∈ first :: rest, other b = key a ∧ R a b) ↔
              ∃ b ∈ rest, other b = key a ∧ R a b := by
            intro a inside
            constructor
            · intro ⟨b, member, keyed, related⟩
              rcases List.mem_cons.mp member with rfl | later
              · rw [same, keyed] at fresh
                exact absurd (List.mem_map_of_mem inside) fresh
              · exact ⟨b, later, keyed, related⟩
            · intro ⟨b, later, found⟩
              exact ⟨b, List.mem_cons_of_mem _ later, found⟩
          rw [forall₂_cons, ← ih tails distinct, List.forall_mem_cons, atHead]
          exact and_congr_right fun _ => forall₂_congr inTail

end Library.Pointwise
