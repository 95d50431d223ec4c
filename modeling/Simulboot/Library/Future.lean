import Mathlib.Data.List.Basic

/-!
# Futures

Asynchronous code as the operations that it asks its surroundings for, one after
another. A future asks for nothing before it is awaited, so where it was created
leaves no trace.
-/

set_option autoImplicit false

namespace Library

/-- A computation that ends, or asks for an operation and goes on with the answer. -/
inductive Future (Op : Type) (Res : Op → Type) (α : Type) where
  | done (value : α)
  | call (op : Op) (next : Res op → Future Op Res α)

namespace Future

variable {Op : Type} {Res : Op → Type} {α β : Type}

abbrev Event (Op : Type) (Res : Op → Type) : Type :=
  (op : Op) × Res op

def bind (future : Future Op Res α) (next : α → Future Op Res β) : Future Op Res β :=
  match future with
  | .done value => next value
  | .call op rest => .call op fun answer => (rest answer).bind next

/-- What an awaited future asks for, and its value. -/
def run (respond : (op : Op) → Res op) : Future Op Res α → List (Event Op Res) × α
  | .done value => ([], value)
  | .call op next =>
      let rest := run respond (next (respond op))
      (⟨op, respond op⟩ :: rest.1, rest.2)

/-- Await futures one after another and collect their values. -/
def joinAll : List (Future Op Res α) → Future Op Res (List α)
  | [] => .done []
  | future :: futures => future.bind fun value => (joinAll futures).bind fun values =>
      .done (value :: values)

variable (respond : (op : Op) → Res op)

@[simp] theorem run_done (value : α) : run respond (.done value : Future Op Res α) = ([], value) :=
  rfl

@[simp] theorem run_call (op : Op) (next : Res op → Future Op Res α) :
    run respond (.call op next) =
      (⟨op, respond op⟩ :: (run respond (next (respond op))).1,
        (run respond (next (respond op))).2) := rfl

theorem run_bind (future : Future Op Res α) (next : α → Future Op Res β) :
    run respond (future.bind next) =
      ((run respond future).1 ++ (run respond (next (run respond future).2)).1,
        (run respond (next (run respond future).2)).2) := by
  induction future with
  | done value => rfl
  | call op rest ih =>
      change run respond (.call op fun answer => (rest answer).bind next) = _
      rw [run_call, run_call, ih]
      rfl

/-- Joined futures run in turn, each to its end. -/
theorem run_joinAll_cons (future : Future Op Res α) (futures : List (Future Op Res α)) :
    run respond (joinAll (future :: futures)) =
      ((run respond future).1 ++ (run respond (joinAll futures)).1,
        (run respond future).2 :: (run respond (joinAll futures)).2) := by
  rw [joinAll, run_bind, run_bind, run_done, List.append_nil]

end Future

end Library
