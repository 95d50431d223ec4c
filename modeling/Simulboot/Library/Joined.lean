import Mathlib.Data.List.Basic

/-!
# Joined texts

Texts written one after another with a separator between them. Where none of
them holds the separator, no other texts of that number are joined alike.
-/

set_option autoImplicit false

namespace Library

variable {τ : Type}

def joined (separator : τ) (texts : List (List τ)) : List τ :=
  List.intercalate [separator] texts

theorem joined_cons (separator : τ) (text next : List τ) (rest : List (List τ)) :
    joined separator (text :: next :: rest) =
      text ++ separator :: joined separator (next :: rest) := by
  unfold joined
  rw [List.intercalate_cons_cons]
  simp

variable [DecidableEq τ]

theorem count_joined (separator : τ) (text : List τ) (rest : List (List τ)) :
    (joined separator (text :: rest)).count separator =
      rest.length + (text :: rest).flatten.count separator := by
  induction rest generalizing text with
  | nil => simp [joined]
  | cons next rest ih =>
      rw [joined_cons, List.count_append, List.count_cons_self, ih]
      simp only [List.flatten_cons, List.count_append, List.length_cons]
      omega

theorem absent_iff_count {separator : τ} {texts : List (List τ)} :
    (∀ text ∈ texts, separator ∉ text) ↔ texts.flatten.count separator = 0 := by
  rw [List.count_eq_zero, List.mem_flatten]
  constructor
  · rintro absent ⟨text, member, inside⟩
    exact absent text member inside
  · exact fun absent text member inside => absent ⟨text, member, inside⟩

theorem joined_inj {separator : τ} {texts others : List (List τ)}
    (absent : ∀ text ∈ texts, separator ∉ text) (sameLength : texts.length = others.length)
    (same : joined separator texts = joined separator others) : texts = others := by
  cases texts with
  | nil => exact (List.eq_nil_of_length_eq_zero sameLength.symm).symm
  | cons text rest =>
      cases others with
      | nil => cases sameLength
      | cons other otherRest =>
          have counted := congrArg (List.count separator) same
          rw [count_joined, count_joined, absent_iff_count.mp absent] at counted
          have otherAbsent : ∀ text ∈ other :: otherRest, separator ∉ text := by
            rw [absent_iff_count]
            simp only [List.length_cons] at sameLength
            omega
          have split := congrArg (List.splitOn separator) same
          unfold joined at split
          rwa [List.splitOn_intercalate separator absent (by simp),
            List.splitOn_intercalate separator otherAbsent (by simp)] at split

end Library
