/-!
# Runs of a fallible step

A loop that takes one item after another and stops at the first error, reasoned
about from the state before a stretch of items to the state behind it.
-/

set_option autoImplicit false

namespace Library

theorem bind_eq_ok {ε α β : Type} {x : Except ε α} {f : α → Except ε β} {value : β}
    (accepted : x >>= f = .ok value) : ∃ a, x = .ok a ∧ f a = .ok value := by
  cases x with
  | error e => exact absurd accepted (by simp [bind, Except.bind])
  | ok a => exact ⟨a, rfl, accepted⟩

namespace Run

variable {ε σ α β : Type} {step : σ → α → Except ε σ}

theorem cons {item : α} {rest : List α} {state middle final : σ}
    (first : step state item = .ok middle) (run : rest.foldlM step middle = .ok final) :
    (item :: rest).foldlM step state = .ok final := by
  rw [List.foldlM_cons, first]
  exact run

theorem single {item : α} {state final : σ} (first : step state item = .ok final) :
    [item].foldlM step state = .ok final :=
  cons first rfl

theorem append {first second : List α} {state middle final : σ}
    (runFirst : first.foldlM step state = .ok middle)
    (runSecond : second.foldlM step middle = .ok final) :
    (first ++ second).foldlM step state = .ok final := by
  rw [List.foldlM_append, runFirst]
  exact runSecond

theorem append_error {first second : List α} {state middle : σ} {e : ε}
    (runFirst : first.foldlM step state = .ok middle)
    (failed : second.foldlM step middle = .error e) :
    (first ++ second).foldlM step state = .error e := by
  rw [List.foldlM_append, runFirst]
  exact failed

theorem fixed {items : List α} {state : σ} (ignored : ∀ item ∈ items, step state item = .ok state) :
    items.foldlM step state = .ok state := by
  induction items with
  | nil => rfl
  | cons item rest ih =>
      exact cons (ignored item (by simp)) (ih fun other member => ignored other (by simp [member]))

/-- Stretches that each take one state to the next, indexed by what is done. -/
theorem flatMap {stretch : β → List α} (after : List β → σ)
    (each : ∀ done next, (stretch next).foldlM step (after done) = .ok (after (done ++ [next])))
    (done items : List β) :
    (items.flatMap stretch).foldlM step (after done) = .ok (after (done ++ items)) := by
  induction items generalizing done with
  | nil =>
      rw [List.append_nil]
      rfl
  | cons next rest ih =>
      rw [List.flatMap_cons]
      refine append (each done next) ?_
      have later := ih (done ++ [next])
      rwa [List.append_assoc] at later

theorem append_eq_ok {first second : List α} {state final : σ}
    (run : (first ++ second).foldlM step state = .ok final) :
    ∃ middle, first.foldlM step state = .ok middle ∧ second.foldlM step middle = .ok final := by
  rw [List.foldlM_append] at run
  exact bind_eq_ok run

/-- What every successful step keeps holds behind a successful run. -/
theorem invariant {holds : σ → Prop} {items : List α} {state final : σ}
    (kept : ∀ item ∈ items, ∀ before after, holds before → step before item = .ok after →
      holds after)
    (start : holds state) (run : items.foldlM step state = .ok final) : holds final := by
  induction items generalizing state with
  | nil =>
      cases run
      exact start
  | cons item rest ih =>
      rw [List.foldlM_cons] at run
      obtain ⟨middle, stepped, later⟩ := bind_eq_ok run
      exact ih (fun other member => kept other (by simp [member]))
        (kept item (by simp) state middle start stepped) later

/-- What every step of a run keeps, each in the state that the run takes it in, holds
behind the run. -/
theorem invariant_along {holds : σ → Prop} {items : List α} {state final : σ}
    (kept : ∀ done item before after, done ++ [item] <+: items →
      done.foldlM step state = .ok before → holds before → step before item = .ok after →
        holds after)
    (start : holds state) (run : items.foldlM step state = .ok final) : holds final := by
  have upTo : ∀ count final, (items.take count).foldlM step state = .ok final → holds final := by
    intro count
    induction count with
    | zero =>
        intro final run
        cases run
        exact start
    | succ count ih =>
        intro final run
        cases next : items[count]? with
        | none =>
            have short := List.getElem?_eq_none_iff.mp next
            rw [List.take_of_length_le (Nat.le_succ_of_le short)] at run
            rw [List.take_of_length_le short] at ih
            exact ih final run
        | some item =>
            rw [List.take_add_one, next] at run
            obtain ⟨before, earlier, last⟩ := append_eq_ok run
            have stepped : step before item = .ok final := by
              change [item].foldlM step before = _ at last
              rw [List.foldlM_cons] at last
              obtain ⟨after, stepped, last⟩ := bind_eq_ok last
              cases last
              exact stepped
            refine kept (items.take count) item before final ?_ earlier (ih before earlier) stepped
            have upTo : items.take count ++ [item] = items.take (count + 1) := by
              rw [List.take_add_one, next]
              rfl
            rw [upTo]
            exact List.take_prefix (count + 1) items
  refine upTo items.length final ?_
  rw [List.take_length]
  exact run

/-! ## Amortised steps -/

def budget (cost : α → Nat) : List α → Nat
  | [] => 0
  | item :: rest => cost item + budget cost rest

theorem budget_append (cost : α → Nat) (items more : List α) :
    budget cost (items ++ more) = budget cost items + budget cost more := by
  induction items with
  | nil => exact (Nat.zero_add _).symm
  | cons item rest ih => rw [List.cons_append, budget, budget, ih, Nat.add_assoc]

/-- Where every step is paid for by its item or out of a potential, a run is no longer than
both allow. -/
theorem length_le {holds : σ → Prop} (potential : σ → Nat) (cost : α → Nat) {items : List α}
    {state final : σ}
    (pays : ∀ item ∈ items, ∀ before after, holds before → step before item = .ok after →
      holds after ∧ potential after + 1 ≤ potential before + cost item)
    (start : holds state) (run : items.foldlM step state = .ok final) :
    items.length + potential final ≤ potential state + budget cost items := by
  induction items generalizing state with
  | nil =>
      cases run
      simp [budget]
  | cons item rest ih =>
      rw [List.foldlM_cons] at run
      obtain ⟨middle, stepped, later⟩ := bind_eq_ok run
      obtain ⟨kept, paid⟩ := pays item (by simp) state middle start stepped
      have further := ih (fun other member => pays other (by simp [member])) kept later
      rw [List.length_cons, budget]
      omega

/-! ## Coming to rest -/

/-- No item of a kind can be taken. -/
def Rest (step : σ → α → Except ε σ) (goes : α → Bool) (state : σ) : Prop :=
  ∀ item after, goes item = true → step state item ≠ .ok after

/-- Items that each take from a potential form no longer run than it allows. -/
theorem length_le_potential {holds : σ → Prop} (potential : σ → Nat) {items : List α}
    {state final : σ}
    (pays : ∀ item ∈ items, ∀ before after, holds before → step before item = .ok after →
      holds after ∧ potential after < potential before)
    (start : holds state) (run : items.foldlM step state = .ok final) :
    items.length ≤ potential state := by
  have free : ∀ items : List α, budget (fun _ => 0) items = 0 := by
    intro items
    induction items with
    | nil => rfl
    | cons item rest ih => rw [budget, ih]
  have bound := length_le potential (fun _ => 0) (fun item member before after held stepped => by
    obtain ⟨kept, less⟩ := pays item member before after held stepped
    exact ⟨kept, less⟩) start run
  rw [free] at bound
  omega

/-- Where every item of a kind takes from a potential, a run of them comes to rest. -/
theorem exists_rest {holds : σ → Prop} (potential : σ → Nat) {goes : α → Bool}
    (pays : ∀ item before after, goes item = true → holds before →
      step before item = .ok after → holds after ∧ potential after < potential before)
    {state : σ} (start : holds state) :
    ∃ (items : List α) (final : σ), (∀ item ∈ items, goes item = true) ∧
      items.foldlM step state = .ok final ∧ Rest step goes final := by
  induction bound : potential state using Nat.strongRecOn generalizing state with
  | _ n ih =>
      by_cases more : ∃ item after, goes item = true ∧ step state item = .ok after
      case neg =>
        exact ⟨[], state, nofun, rfl, fun item after going stepped =>
          more ⟨item, after, going, stepped⟩⟩
      case pos =>
        obtain ⟨item, middle, going, stepped⟩ := more
        obtain ⟨kept, less⟩ := pays item state middle going start stepped
        obtain ⟨items, final, later, run, atRest⟩ := ih _ (bound ▸ less) kept rfl
        exact ⟨item :: items, final, List.forall_mem_cons.mpr ⟨going, later⟩,
          cons stepped run, atRest⟩

end Run

end Library
