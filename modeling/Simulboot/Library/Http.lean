import Simulboot.Library.Utf8

/-!
# Message heads

The head of an HTTP message: lines that each end in CR LF, closed by an empty
line.
-/

set_option autoImplicit false

namespace Library.Http

def crlf : Bytes :=
  [13, 10]

/-- The end of the last line of a head and the empty line after it. -/
def headerTerminator : Bytes :=
  [13, 10, 13, 10]

def head (lines : List Bytes) : Bytes :=
  lines.flatMap (· ++ crlf) ++ crlf

/-- A line of a head: some bytes without a carriage return. -/
def IsLine (line : Bytes) : Prop :=
  line ≠ [] ∧ 13 ∉ line

theorem utf8_isLine {text : Str} (nonempty : text ≠ [])
    (plain : ∀ c ∈ text, c.toNat < 128 ∧ c ≠ '\r') : IsLine (utf8 text) := by
  refine ⟨fun empty => nonempty (utf8_eq_nil_iff.mp empty), ?_⟩
  rw [utf8_ascii fun c member => (plain c member).1]
  intro member
  obtain ⟨c, inside, same⟩ := List.mem_map.mp member
  have code := congrArg UInt8.toNat same
  have small := (plain c inside).1
  have value : c.toUInt8.toNat = c.toNat := by
    simp only [Char.toUInt8, UInt32.toNat_toUInt8]
    exact Nat.mod_eq_of_lt (by change c.toNat < 256; omega)
  rw [value] at code
  exact (plain c inside).2 (by rw [← Char.ofNat_toNat c, code]; rfl)

private theorem findWindow_between {next rest : Bytes} (line : IsLine next) :
    findWindow headerTerminator (crlf ++ (next ++ rest)) =
      (findWindow headerTerminator (next ++ rest)).map (· + 2) := by
  obtain ⟨nonempty, absent⟩ := line
  cases next with
  | nil => exact absurd rfl nonempty
  | cons first others =>
      have other : (13 == first) = false := by
        simp only [List.mem_cons, not_or] at absent
        simpa using absent.1
      simp only [headerTerminator, crlf, List.cons_append, List.nil_append, findWindow,
        List.isPrefixOf, other, beq_self_eq_true, Bool.true_and, Bool.false_and,
        Bool.false_eq_true, ↓reduceIte, Option.map_map]
      have second : ((13 : UInt8) == 10) = false := by decide
      simp only [second, Bool.false_and, Bool.false_eq_true, ↓reduceIte, Option.map_map]
      congr 1

/-- The first empty line is the one that closes the head. -/
theorem findWindow_head (first : Bytes) (lines : List Bytes) (body : Bytes)
    (isLine : ∀ line ∈ first :: lines, IsLine line) :
    findWindow headerTerminator (head (first :: lines) ++ body) =
      some ((head (first :: lines)).length - 4) := by
  induction lines generalizing first with
  | nil =>
      have own := isLine first (by simp)
      have text : head [first] ++ body = first ++ (headerTerminator ++ body) := by
        simp [head, crlf, headerTerminator]
      have here : findWindow headerTerminator (headerTerminator ++ body) = some 0 :=
        findWindow_prefix
      rw [text]
      unfold headerTerminator at here ⊢
      rw [findWindow_skip own.2, here]
      simp [head, crlf]
  | cons next rest ih =>
      obtain ⟨own, others⟩ := List.forall_mem_cons.mp isLine
      have text : head (first :: next :: rest) ++ body =
          first ++ (crlf ++ (next ++ (crlf ++ (rest.flatMap (· ++ crlf) ++ crlf ++ body)))) := by
        simp [head]
      have inner : head (next :: rest) ++ body =
          next ++ (crlf ++ (rest.flatMap (· ++ crlf) ++ crlf ++ body)) := by
        simp [head]
      have later := ih next others
      have skipped : findWindow headerTerminator (first ++ (crlf ++ (head (next :: rest) ++ body))) =
          (findWindow headerTerminator (crlf ++ (head (next :: rest) ++ body))).map
            (· + first.length) := findWindow_skip own.2
      rw [text, ← inner, skipped, inner, findWindow_between (others next (by simp)), ← inner, later]
      simp only [Option.map_some, Option.some.injEq, head, crlf, List.flatMap_cons,
        List.length_append, List.length_cons, List.length_nil]
      omega

end Library.Http
