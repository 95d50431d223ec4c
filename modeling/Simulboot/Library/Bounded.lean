import Simulboot.Library.Run

/-!
# Tasks and the channels between them

Bounded channels, and steps that only some states allow.
-/

set_option autoImplicit false

namespace Library

/-! ## Channels -/

/-- What a channel of some capacity holds, the oldest first. -/
structure Bounded (capacity : Nat) (α : Type) where
  items : List α
  fits : items.length ≤ capacity
  deriving DecidableEq

namespace Bounded

variable {capacity : Nat} {α : Type}

def empty : Bounded capacity α :=
  ⟨[], Nat.zero_le capacity⟩

def trySend (channel : Bounded capacity α) (value : α) : Option (Bounded capacity α) :=
  if room : channel.items.length < capacity then
    some ⟨channel.items ++ [value], by
      rw [List.length_append]
      exact room⟩
  else none

def tryRecv : Bounded capacity α → Option (α × Bounded capacity α)
  | ⟨[], _⟩ => none
  | ⟨value :: later, fits⟩ => some (value, ⟨later, Nat.le_of_succ_le fits⟩)

theorem items_of_trySend {channel after : Bounded capacity α} {value : α}
    (sent : channel.trySend value = some after) : after.items = channel.items ++ [value] := by
  unfold trySend at sent
  split at sent
  · cases sent
    rfl
  · cases sent

theorem items_of_tryRecv {channel after : Bounded capacity α} {value : α}
    (received : channel.tryRecv = some (value, after)) :
    channel.items = value :: after.items := by
  obtain ⟨items, fits⟩ := channel
  cases items with
  | nil => cases received
  | cons first later =>
      cases received
      rfl

/-- A channel that holds less than it can takes a value. -/
theorem trySend_of_lt {channel : Bounded capacity α} (room : channel.items.length < capacity)
    (value : α) : ∃ after, channel.trySend value = some after := by
  unfold trySend
  rw [dif_pos room]
  exact ⟨_, rfl⟩

theorem tryRecv_of_ne_nil {channel : Bounded capacity α} (some : channel.items ≠ []) :
    ∃ received, channel.tryRecv = .some received := by
  obtain ⟨items, fits⟩ := channel
  cases items with
  | nil => exact absurd rfl some
  | cons value later => exact ⟨_, rfl⟩

end Bounded

/-! ## Steps -/

/-- The state does not allow the step. -/
inductive Disabled where
  | disabled
  deriving DecidableEq, Repr

/-- A step that needs a condition. -/
def onlyIf {σ : Type} (condition : Prop) [Decidable condition] (after : σ) : Except Disabled σ :=
  if condition then .ok after else .error .disabled

theorem onlyIf_eq_ok {σ : Type} {condition : Prop} [Decidable condition] {target after : σ} :
    onlyIf condition target = .ok after ↔ condition ∧ target = after := by
  unfold onlyIf
  by_cases holds : condition <;> simp [holds]

end Library
