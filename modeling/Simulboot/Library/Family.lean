import Mathlib.Algebra.BigOperators.Group.Finset.Basic
import Mathlib.Logic.Function.Basic
import Simulboot.Library.Run

/-!
# Families of machines

Machines that share nothing, side by side, taking steps in any order. A run of all of
them is a run of each.
-/

set_option autoImplicit false

namespace Library.Family

variable {ι ε σ α : Type} [DecidableEq ι]

/-- One machine of a family takes a step. -/
def stepAt (step : ι → σ → α → Except ε σ) (family : ι → σ) (action : ι × α) :
    Except ε (ι → σ) :=
  (step action.1 (family action.1) action.2).map (Function.update family action.1)

/-- The steps that one machine takes. -/
def component (i : ι) (actions : List (ι × α)) : List α :=
  (actions.filter fun action => action.1 = i).map Prod.snd

variable {step : ι → σ → α → Except ε σ}

theorem component_cons_self (i : ι) (a : α) (actions : List (ι × α)) :
    component i ((i, a) :: actions) = a :: component i actions := by
  simp [component]

theorem component_cons_ne {i j : ι} (other : j ≠ i) (a : α) (actions : List (ι × α)) :
    component i ((j, a) :: actions) = component i actions := by
  simp [component, other]

theorem component_append (i : ι) (actions more : List (ι × α)) :
    component i (actions ++ more) = component i actions ++ component i more := by
  simp [component]

theorem component_own (i : ι) (actions : List α) :
    component i (actions.map (Prod.mk i)) = actions := by
  induction actions with
  | nil => rfl
  | cons a actions ih => rw [List.map_cons, component_cons_self, ih]

theorem component_other {i j : ι} (other : j ≠ i) (actions : List α) :
    component i (actions.map (Prod.mk j)) = [] := by
  induction actions with
  | nil => rfl
  | cons a actions ih => rw [List.map_cons, component_cons_ne other, ih]

theorem mem_component {i : ι} {a : α} {actions : List (ι × α)} :
    a ∈ component i actions ↔ (i, a) ∈ actions := by
  simp [component]

/-- What all machines have of something is the sum of what each of them has. -/
theorem countP_component [Fintype ι] (p : α → Bool) (actions : List (ι × α)) :
    (actions.map Prod.snd).countP p = ∑ i, (component i actions).countP p := by
  induction actions with
  | nil => simp [component]
  | cons action actions ih =>
      obtain ⟨i, a⟩ := action
      have others : ∀ j ∈ Finset.univ.erase i,
          (component j ((i, a) :: actions)).countP p = (component j actions).countP p := by
        intro j member
        rw [component_cons_ne (Finset.ne_of_mem_erase member).symm]
      rw [List.map_cons, List.countP_cons, ih, ← Finset.add_sum_erase _ _ (Finset.mem_univ i),
        ← Finset.add_sum_erase _ _ (Finset.mem_univ i), Finset.sum_congr rfl others,
        component_cons_self, List.countP_cons]
      dsimp only
      omega

theorem stepAt_eq_ok {family after : ι → σ} {i : ι} {a : α} :
    stepAt step family (i, a) = .ok after ↔
      step i (family i) a = .ok (after i) ∧ ∀ j ≠ i, after j = family j := by
  unfold stepAt
  cases stepped : step i (family i) a with
  | error e => simp [Except.map]
  | ok next =>
      simp only [Except.map, Except.ok.injEq]
      constructor
      · rintro rfl
        exact ⟨(Function.update_self i next family).symm,
          fun j other => Function.update_of_ne other next family⟩
      · rintro ⟨rfl, others⟩
        funext j
        by_cases own : j = i
        · rw [own, Function.update_self]
        · rw [Function.update_of_ne own, others j own]

/-- However its steps interleave, a family runs as each of its machines does on its own. -/
theorem run_iff {actions : List (ι × α)} {family final : ι → σ} :
    actions.foldlM (stepAt step) family = .ok final ↔
      ∀ i, (component i actions).foldlM (step i) (family i) = .ok (final i) := by
  induction actions generalizing family with
  | nil =>
      constructor
      · intro run i
        cases run
        rfl
      · intro each
        have same : family = final := funext fun i => Except.ok.inj (each i)
        rw [same]
        rfl
  | cons action actions ih =>
      obtain ⟨j, a⟩ := action
      rw [List.foldlM_cons]
      constructor
      · intro run i
        obtain ⟨middle, stepped, later⟩ := bind_eq_ok run
        obtain ⟨own, others⟩ := stepAt_eq_ok.mp stepped
        have each := ih.mp later i
        by_cases same : j = i
        · subst same
          rw [component_cons_self]
          exact Run.cons own each
        · rw [component_cons_ne same, ← others i (Ne.symm same)]
          exact each
      · intro each
        have first := each j
        rw [component_cons_self, List.foldlM_cons] at first
        obtain ⟨next, stepped, later⟩ := bind_eq_ok first
        have moved : stepAt step family (j, a) = .ok (Function.update family j next) :=
          stepAt_eq_ok.mpr ⟨by rw [Function.update_self]; exact stepped,
            fun i other => Function.update_of_ne other next family⟩
        rw [moved]
        refine ih.mpr fun i => ?_
        by_cases same : i = j
        · subst same
          rw [Function.update_self]
          exact later
        · have rest := each i
          rw [component_cons_ne (Ne.symm same)] at rest
          rwa [Function.update_of_ne same]

end Library.Family
