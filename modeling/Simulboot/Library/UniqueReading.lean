import Mathlib.Data.List.Basic

/-!
# Unique reading

A printer is uniquely readable when its output can be told apart from the text
that follows it. Formats built from such printers by the combinators below are
unambiguous, whatever they quote, so equal texts carry equal values.
-/

set_option autoImplicit false

namespace Library

variable {α β τ : Type}

/-- No two prints agree up to what follows them, unless value and rest agree. -/
def UniquelyReadable (print : α → List τ) : Prop :=
  ∀ left right afterLeft afterRight,
    print left ++ afterLeft = print right ++ afterRight →
      left = right ∧ afterLeft = afterRight

/-- Texts without a mark are determined by what stands before its first
occurrence. -/
theorem append_cons_inj_of_absent {stop : τ} {left right afterLeft afterRight : List τ}
    (absentLeft : stop ∉ left) (absentRight : stop ∉ right)
    (same : left ++ stop :: afterLeft = right ++ stop :: afterRight) :
    left = right ∧ afterLeft = afterRight := by
  induction left generalizing right with
  | nil =>
      cases right with
      | nil => exact ⟨rfl, by simpa using same⟩
      | cons head tail =>
          have first : stop = head := by simpa using congrArg List.head? same
          simp [first] at absentRight
  | cons head tail ih =>
      cases right with
      | nil =>
          have first : head = stop := by simpa using congrArg List.head? same
          simp [first] at absentLeft
      | cons other others =>
          simp only [List.cons_append, List.cons.injEq] at same
          have absentTail : stop ∉ tail := fun member => absentLeft (List.mem_cons_of_mem _ member)
          have absentOthers : stop ∉ others := fun member =>
            absentRight (List.mem_cons_of_mem _ member)
          obtain ⟨tails, rests⟩ := ih absentTail absentOthers same.2
          exact ⟨by rw [same.1, tails], rests⟩

/-- Where only one symbol of a text is of some kind, the text splits there alone. -/
theorem append_cons_inj_of_kind {kind : τ → Prop} {front back before after : List τ} {a b : τ}
    (same : front ++ a :: back = before ++ b :: after) (isKind : kind a)
    (noneBefore : ∀ c ∈ before, ¬ kind c) (noneAfter : ∀ c ∈ after, ¬ kind c) :
    front = before ∧ a = b ∧ back = after := by
  rcases List.append_eq_append_iff.mp same with ⟨more, rfl, behind⟩ | ⟨more, rfl, behind⟩
  · cases more with
    | nil => simpa using behind
    | cons c more =>
        obtain ⟨rfl, _⟩ := List.cons.inj behind
        exact absurd isKind (noneBefore _ (by simp))
  · cases more with
    | nil =>
        obtain ⟨rfl, rfl⟩ := List.cons.inj behind
        simp
    | cons c more =>
        obtain ⟨_, rfl⟩ := List.cons.inj behind
        exact absurd isKind (noneAfter _ (by simp))

namespace UniquelyReadable

theorem injective {print : α → List τ} (readable : UniquelyReadable print) :
    Function.Injective print := by
  intro left right same
  exact (readable left right [] [] (by simp [same])).1

/-- A text that cannot hold the first symbol of its closing mark ends there. -/
theorem closedBy {text : α → List τ} {close : List τ} {stop : τ}
    (starts : close.head? = some stop) (inj : Function.Injective text)
    (absent : ∀ value, stop ∉ text value) :
    UniquelyReadable fun value => text value ++ close := by
  intro left right afterLeft afterRight same
  obtain ⟨tail, rfl⟩ : ∃ tail, close = stop :: tail := by
    cases close with
    | nil => simp at starts
    | cons head tail => exact ⟨tail, by simpa using starts⟩
  simp only [List.append_assoc, List.cons_append] at same
  obtain ⟨texts, rests⟩ := append_cons_inj_of_absent (absent left) (absent right) same
  exact ⟨inj texts, List.append_cancel_left rests⟩

theorem openedBy {print : α → List τ} (openMark : List τ) (readable : UniquelyReadable print) :
    UniquelyReadable fun value => openMark ++ print value := by
  intro left right afterLeft afterRight same
  simp only [List.append_assoc] at same
  exact readable left right afterLeft afterRight (List.append_cancel_left same)

theorem followedBy {print : α → List τ} (readable : UniquelyReadable print) (close : List τ) :
    UniquelyReadable fun value => print value ++ close := by
  intro left right afterLeft afterRight same
  simp only [List.append_assoc] at same
  obtain ⟨values, rest⟩ := readable _ _ _ _ same
  exact ⟨values, List.append_cancel_left rest⟩

theorem pair {first : α → List τ} {second : β → List τ}
    (readFirst : UniquelyReadable first) (readSecond : UniquelyReadable second) :
    UniquelyReadable fun values : α × β => first values.1 ++ second values.2 := by
  intro left right afterLeft afterRight same
  simp only [List.append_assoc] at same
  obtain ⟨firsts, rest⟩ := readFirst _ _ _ _ same
  obtain ⟨seconds, rests⟩ := readSecond _ _ _ _ rest
  exact ⟨Prod.ext firsts seconds, rests⟩

theorem record {print : α → List τ} {fieldPrint : β → List τ} (fields : α → β)
    (readable : UniquelyReadable fieldPrint) (determine : Function.Injective fields)
    (printed : ∀ value, print value = fieldPrint (fields value)) : UniquelyReadable print := by
  intro left right afterLeft afterRight same
  rw [printed, printed] at same
  obtain ⟨fieldsSame, rests⟩ := readable _ _ _ _ same
  exact ⟨determine fieldsSame, rests⟩

/-- A list is read item by item, up to a closing mark no item can be taken for. -/
theorem many {print : α → List τ} {close : List τ} (readable : UniquelyReadable print)
    (distinct : ∀ value after rest, print value ++ after ≠ close ++ rest) :
    UniquelyReadable fun values : List α => values.flatMap print ++ close := by
  intro left
  induction left with
  | nil =>
      intro right afterLeft afterRight same
      cases right with
      | nil => exact ⟨rfl, by simpa using same⟩
      | cons head tail =>
          simp only [List.flatMap_nil, List.nil_append, List.flatMap_cons, List.append_assoc] at same
          exact absurd same.symm (distinct head _ _)
  | cons head tail ih =>
      intro right afterLeft afterRight same
      cases right with
      | nil =>
          simp only [List.flatMap_nil, List.nil_append, List.flatMap_cons, List.append_assoc] at same
          exact absurd same (distinct head _ _)
      | cons other others =>
          simp only [List.flatMap_cons, List.append_assoc] at same
          obtain ⟨heads, rest⟩ := readable _ _ _ _ same
          obtain ⟨tails, rests⟩ := ih others afterLeft afterRight (by simpa using rest)
          exact ⟨by rw [heads, tails], rests⟩

theorem optional {print : α → List τ} {close : List τ} (readable : UniquelyReadable print)
    (distinct : ∀ value after rest, print value ++ after ≠ close ++ rest) :
    UniquelyReadable fun value : Option α => value.elim [] print ++ close := by
  refine record Option.toList (many readable distinct) ?_ ?_
  · intro left right same
    cases left <;> cases right <;> simp_all
  · intro value
    cases value <;> simp

theorem flatMap_injective {print : α → List τ} (readable : UniquelyReadable print)
    (nonempty : ∀ value, print value ≠ []) :
    Function.Injective fun values : List α => values.flatMap print := by
  intro left
  induction left with
  | nil =>
      intro right same
      cases right with
      | nil => rfl
      | cons head tail =>
          simp only [List.flatMap_nil, List.flatMap_cons] at same
          exact absurd (List.append_eq_nil_iff.mp same.symm).1 (nonempty head)
  | cons head tail ih =>
      intro right same
      cases right with
      | nil =>
          simp only [List.flatMap_nil, List.flatMap_cons] at same
          exact absurd (List.append_eq_nil_iff.mp same).1 (nonempty head)
      | cons other others =>
          simp only [List.flatMap_cons] at same
          obtain ⟨heads, rest⟩ := readable _ _ _ _ same
          rw [heads, ih rest]

end UniquelyReadable

end Library
