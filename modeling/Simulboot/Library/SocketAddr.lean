import Mathlib.Tactic.IntervalCases
import Simulboot.Library.Numerals

/-!
# Socket addresses

IPv4 and IPv6 socket addresses with the text Rust's standard library prints for
them and the recursive-descent parser that reads them back.
-/

set_option autoImplicit false

namespace Library

structure Ipv4Addr where
  a : UInt8
  b : UInt8
  c : UInt8
  d : UInt8
  deriving DecidableEq, Repr

structure Ipv6Addr where
  segments : List UInt16
  length_eq : segments.length = 8
  deriving DecidableEq

inductive SocketAddr where
  | v4 (ip : Ipv4Addr) (port : UInt16)
  | v6 (ip : Ipv6Addr) (port : UInt16) (flowinfo scopeId : UInt32)
  deriving DecidableEq

/-! ## Printing -/

def displayHex (n : Nat) : Str :=
  Nat.toDigits 16 n

def Ipv4Addr.display (ip : Ipv4Addr) : Str :=
  displayNat ip.a.toNat ++ '.' :: (displayNat ip.b.toNat ++ '.' :: (displayNat ip.c.toNat ++
    '.' :: displayNat ip.d.toNat))

/-- A run of zero segments. -/
structure Span where
  start : Nat
  len : Nat

/-- One turn of the search for the longest run: the longest so far, the current
one, and the index of the segment. -/
def Span.step (spans : Span × Span × Nat) (segment : UInt16) : Span × Span × Nat :=
  let (longest, current, index) := spans
  if segment = 0 then
    let current : Span :=
      { start := if current.len = 0 then index else current.start, len := current.len + 1 }
    (if longest.len < current.len then current else longest, current, index + 1)
  else (longest, ⟨0, 0⟩, index + 1)

def longestZeros (segments : List UInt16) : Span :=
  (segments.foldl Span.step (⟨0, 0⟩, ⟨0, 0⟩, 0)).1

def fmtSubslice : List UInt16 → Str
  | [] => []
  | [segment] => displayHex segment.toNat
  | segment :: rest => displayHex segment.toNat ++ ':' :: fmtSubslice rest

def Ipv6Addr.toIpv4Mapped (ip : Ipv6Addr) : Option Ipv4Addr :=
  match ip.segments with
  | [0, 0, 0, 0, 0, 0xffff, ab, cd] =>
      some ⟨(ab >>> 8).toUInt8, ab.toUInt8, (cd >>> 8).toUInt8, cd.toUInt8⟩
  | _ => none

def Ipv6Addr.display (ip : Ipv6Addr) : Str :=
  match ip.toIpv4Mapped with
  | some ipv4 => "::ffff:".toList ++ ipv4.display
  | none =>
      let zeroes := longestZeros ip.segments
      if 1 < zeroes.len then
        fmtSubslice (ip.segments.take zeroes.start) ++ ':' :: ':' ::
          fmtSubslice (ip.segments.drop (zeroes.start + zeroes.len))
      else fmtSubslice ip.segments

def SocketAddr.display : SocketAddr → Str
  | .v4 ip port => ip.display ++ ':' :: displayNat port.toNat
  | .v6 ip port _ scopeId =>
      '[' :: (ip.display ++ ((if scopeId = 0 then [] else '%' :: displayNat scopeId.toNat) ++
        ']' :: ':' :: displayNat port.toNat))

/-! ## Parsing -/

/-- `char::to_digit`, for a radix up to 16. -/
def toDigit (radix : Nat) (c : Char) : Option Nat :=
  let value :=
    if c.isDigit then c.toNat - 48
    else if 'a' ≤ c ∧ c ≤ 'f' then c.toNat - 87
    else if 'A' ≤ c ∧ c ≤ 'F' then c.toNat - 55
    else radix
  if value < radix then some value else none

def numeralValue (radix : Nat) (digits : Str) : Nat :=
  digits.foldl (fun value c => value * radix + (toDigit radix c).getD 0) 0

/-- A number below `bound` at the front of a text. -/
def readNumber (radix : Nat) (maxDigits : Option Nat) (allowZeroPrefix : Bool) (bound : Nat)
    (text : Str) : Option (Nat × Str) :=
  let digits := text.takeWhile fun c => (toDigit radix c).isSome
  if digits = [] then none
  else if maxDigits.any (· < digits.length) then none
  else if allowZeroPrefix = false ∧ digits.head? = some '0' ∧ 1 < digits.length then none
  else if numeralValue radix digits < bound then
    some (numeralValue radix digits, text.drop digits.length)
  else none

def readGivenChar (c : Char) : Str → Option Str
  | [] => none
  | d :: rest => if d = c then some rest else none

/-- Read a part, after a separator unless it is the first. -/
def readSeparator {α : Type} (separator : Char) (first : Bool) (inner : Str → Option (α × Str))
    (text : Str) : Option (α × Str) :=
  if first then inner text else (readGivenChar separator text).bind inner

def readOctet (text : Str) : Option (UInt8 × Str) :=
  (readNumber 10 (some 3) false 256 text).map fun read => (.ofNat read.1, read.2)

def readIpv4Addr (text : Str) : Option (Ipv4Addr × Str) := do
  let (a, text) ← readSeparator '.' true readOctet text
  let (b, text) ← readSeparator '.' false readOctet text
  let (c, text) ← readSeparator '.' false readOctet text
  let (d, text) ← readSeparator '.' false readOctet text
  return (⟨a, b, c, d⟩, text)

def readGroup (text : Str) : Option (UInt16 × Str) :=
  (readNumber 16 (some 4) true 65536 text).map fun read => (.ofNat read.1, read.2)

def joinOctets (high low : UInt8) : UInt16 :=
  high.toUInt16 <<< 8 ||| low.toUInt16

/-- Up to `remaining` groups, and whether an embedded IPv4 address ends them. -/
def readGroups (first : Bool) : Nat → Str → List UInt16 × Bool × Str
  | 0, text => ([], false, text)
  | remaining + 1, text =>
      -- An embedded address needs room for two groups.
      match if 0 < remaining then readSeparator ':' first readIpv4Addr text else none with
      | some (ip, rest) => ([joinOctets ip.a ip.b, joinOctets ip.c ip.d], true, rest)
      | none =>
          match readSeparator ':' first readGroup text with
          | some (group, rest) =>
              let (groups, embedded, rest) := readGroups false remaining rest
              (group :: groups, embedded, rest)
          | none => ([], false, text)

def readIpv6Addr (text : Str) : Option (Ipv6Addr × Str) :=
  let (head, headIpv4, rest) := readGroups true 8 text
  if length_eq : head.length = 8 then some (⟨head, length_eq⟩, rest)
  else if headIpv4 then none
  else do
    let rest ← readGivenChar ':' rest
    let rest ← readGivenChar ':' rest
    let (tail, _, rest) := readGroups true (7 - head.length) rest
    let segments := head ++ List.replicate (8 - head.length - tail.length) 0 ++ tail
    if length_eq : segments.length = 8 then some (⟨segments, length_eq⟩, rest) else none

def readPort (text : Str) : Option (UInt16 × Str) := do
  let text ← readGivenChar ':' text
  let (port, text) ← readNumber 10 none true (2 ^ 16) text
  return (.ofNat port, text)

def readScopeId (text : Str) : Option (UInt32 × Str) := do
  let text ← readGivenChar '%' text
  let (scopeId, text) ← readNumber 10 none true (2 ^ 32) text
  return (.ofNat scopeId, text)

def readSocketAddrV4 (text : Str) : Option (SocketAddr × Str) := do
  let (ip, text) ← readIpv4Addr text
  let (port, text) ← readPort text
  return (.v4 ip port, text)

def readSocketAddrV6 (text : Str) : Option (SocketAddr × Str) := do
  let text ← readGivenChar '[' text
  let (ip, text) ← readIpv6Addr text
  let (scopeId, text) := (readScopeId text).getD (0, text)
  let text ← readGivenChar ']' text
  let (port, text) ← readPort text
  return (.v6 ip port 0 scopeId, text)

/-- `FromStr`: the whole text is an address. -/
def SocketAddr.parse (text : Str) : Option SocketAddr :=
  match (readSocketAddrV4 text).or (readSocketAddrV6 text) with
  | some (addr, []) => some addr
  | _ => none

/-! ## Numbers are read back -/

private theorem toDigit_digitChar : ∀ digit < 16, toDigit 16 (Nat.digitChar digit) = some digit := by
  decide

private theorem toDigit_ten_digitChar : ∀ digit < 10, toDigit 10 (Nat.digitChar digit) = some digit := by
  decide

/-- The radixes in use, with the digits they print. -/
def RadixReads (radix : Nat) : Prop :=
  1 < radix ∧ ∀ digit < radix, toDigit radix (Nat.digitChar digit) = some digit

private theorem radixReads_ten : RadixReads 10 := ⟨by decide, toDigit_ten_digitChar⟩

private theorem radixReads_sixteen : RadixReads 16 := ⟨by decide, toDigit_digitChar⟩

private theorem numeralValue_toDigits {radix : Nat} (reads : RadixReads radix) (n : Nat) :
    numeralValue radix (Nat.toDigits radix n) = n ∧
      ∀ c ∈ Nat.toDigits radix n, (toDigit radix c).isSome = true := by
  induction n using Nat.strong_induction_on with
  | _ n ih =>
      rw [Nat.toDigits_eq_if reads.1]
      by_cases small : n < radix
      · rw [if_pos small]
        simp [numeralValue, reads.2 n small]
      · rw [if_neg small]
        have positive : 0 < radix := Nat.lt_trans Nat.zero_lt_one reads.1
        obtain ⟨value, digits⟩ := ih (n / radix)
          (Nat.div_lt_self (Nat.lt_of_lt_of_le positive (Nat.not_lt.mp small)) reads.1)
        have last := reads.2 (n % radix) (Nat.mod_lt _ positive)
        constructor
        · unfold numeralValue at value ⊢
          rw [List.foldl_append, value]
          simp only [List.foldl_cons, List.foldl_nil, last, Option.getD_some]
          exact Nat.div_add_mod' n radix
        · intro c member
          rcases List.mem_append.mp member with front | final
          · exact digits c front
          · rw [List.mem_singleton.mp final, last]
            rfl

private theorem readNumber_toDigits {radix : Nat} (reads : RadixReads radix) (maxDigits : Option Nat)
    (allowZeroPrefix : Bool) {bound n : Nat} (rest : Str) (fits : n < bound)
    (short : ∀ max, maxDigits = some max → (Nat.toDigits radix n).length ≤ max)
    (plain : allowZeroPrefix = true ∨ (Nat.toDigits radix n).head? ≠ some '0' ∨
      (Nat.toDigits radix n).length ≤ 1)
    (stops : ∀ c, rest.head? = some c → toDigit radix c = none) :
    readNumber radix maxDigits allowZeroPrefix bound (Nat.toDigits radix n ++ rest) =
      some (n, rest) := by
  obtain ⟨value, digits⟩ := numeralValue_toDigits reads n
  have taken : (Nat.toDigits radix n ++ rest).takeWhile (fun c => (toDigit radix c).isSome) =
      Nat.toDigits radix n := by
    rw [List.takeWhile_append_of_pos digits]
    cases rest with
    | nil => simp
    | cons c others =>
        rw [List.takeWhile_cons_of_neg (by simp [stops c rfl]), List.append_nil]
  have within : maxDigits.any (· < (Nat.toDigits radix n).length) = false := by
    cases maxDigits with
    | none => rfl
    | some max => simpa using short max rfl
  have prefixed : ¬ (allowZeroPrefix = false ∧ (Nat.toDigits radix n).head? = some '0' ∧
      1 < (Nat.toDigits radix n).length) := by
    rintro ⟨refused, zero, long⟩
    rcases plain with allowed | other | single
    · simp [allowed] at refused
    · exact other zero
    · omega
  unfold readNumber
  simp only [taken, within, prefixed, value, fits, Nat.toDigits_ne_nil, ↓reduceIte,
    Bool.false_eq_true, List.drop_left]

private theorem readNumber_nothing {radix : Nat} {maxDigits : Option Nat} {allowZeroPrefix : Bool}
    {bound : Nat} {text : Str} (stops : ∀ c, text.head? = some c → toDigit radix c = none) :
    readNumber radix maxDigits allowZeroPrefix bound text = none := by
  have nothing : text.takeWhile (fun c => (toDigit radix c).isSome) = [] := by
    cases text with
    | nil => rfl
    | cons c others => rw [List.takeWhile_cons_of_neg (by simp [stops c rfl])]
  simp [readNumber, nothing]

private theorem toDigit_ten_of_sixteen {c : Char} (none16 : toDigit 16 c = none) : toDigit 10 c = none := by
  unfold toDigit at none16 ⊢
  split_ifs at none16 ⊢ <;> simp_all <;> omega

/-! ## IPv4 addresses are read back -/

private theorem head_of_display : ∀ n < 256,
    (displayNat n).head? ≠ some '0' ∨ (displayNat n).length ≤ 1 := by
  decide +kernel

private theorem readOctet_display (octet : UInt8) {rest : Str}
    (stops : ∀ c, rest.head? = some c → toDigit 10 c = none) :
    readOctet (displayNat octet.toNat ++ rest) = some (octet, rest) := by
  have small : octet.toNat < 256 := octet.toNat_lt
  have read := readNumber_toDigits radixReads_ten (some 3) false rest small (fun max same => by
      rw [← Option.some.inj same, Nat.length_toDigits_le_iff (by decide) (by decide)]
      omega) (.inr (head_of_display _ small)) stops
  unfold readOctet displayNat
  rw [read, Option.map_some, UInt8.ofNat_toNat]

theorem readIpv4Addr_display (ip : Ipv4Addr) {rest : Str}
    (stops : ∀ c, rest.head? = some c → toDigit 10 c = none) :
    readIpv4Addr (ip.display ++ rest) = some (ip, rest) := by
  have dot : ∀ after : Str, ∀ c, ('.' :: after).head? = some c → toDigit 10 c = none := by
    intro after c head
    obtain rfl : '.' = c := by simpa using head
    decide
  unfold readIpv4Addr Ipv4Addr.display
  simp only [List.append_assoc, List.cons_append, readSeparator, ↓reduceIte, Bool.false_eq_true,
    readOctet_display ip.a (dot _), readOctet_display ip.b (dot _), readOctet_display ip.c (dot _),
    readOctet_display ip.d stops, readGivenChar, bind, Option.bind, pure]

private theorem readNumber_rest {radix : Nat} {maxDigits : Option Nat} {allowZeroPrefix : Bool}
    {bound n : Nat} {text rest : Str}
    (read : readNumber radix maxDigits allowZeroPrefix bound text = some (n, rest)) :
    rest = text.dropWhile fun c => (toDigit radix c).isSome := by
  unfold readNumber at read
  dsimp only at read
  split_ifs at read
  simp only [Option.some.injEq, Prod.mk.injEq] at read
  have whole := List.takeWhile_append_dropWhile (p := fun c => (toDigit radix c).isSome) (l := text)
  calc
    rest = text.drop (text.takeWhile fun c => (toDigit radix c).isSome).length := read.2.symm
    _ = ((text.takeWhile fun c => (toDigit radix c).isSome) ++
          text.dropWhile fun c => (toDigit radix c).isSome).drop
            (text.takeWhile fun c => (toDigit radix c).isSome).length := by rw [whole]
    _ = text.dropWhile fun c => (toDigit radix c).isSome := List.drop_left

private theorem readIpv4Addr_eq_none {text : Str}
    (noDot : (text.dropWhile fun c => (toDigit 10 c).isSome).head? ≠ some '.') :
    readIpv4Addr text = none := by
  unfold readIpv4Addr
  simp only [readSeparator, ↓reduceIte, Bool.false_eq_true]
  cases first : readOctet text with
  | none => rfl
  | some read =>
      obtain ⟨number, numberRead, rfl⟩ := Option.map_eq_some_iff.mp first
      have rest := readNumber_rest numberRead
      rw [← rest] at noDot
      cases after : number.2 with
      | nil => simp [bind, Option.bind, readGivenChar]
      | cons c others =>
          have other : c ≠ '.' := by
            rintro rfl
            simp [after] at noDot
          simp [bind, Option.bind, readGivenChar, other]

/-! ## Groups are read back -/

private theorem displayHex_ne_dot (n : Nat) : ∀ c ∈ displayHex n, c ≠ '.' := by
  intro c member
  have digit := (numeralValue_toDigits radixReads_sixteen n).2 c member
  rintro rfl
  exact absurd digit (by decide)

private theorem head_dropWhile_append {p : Char → Bool} {left right : Str} {c : Char}
    (head : ((left ++ right).dropWhile p).head? = some c) :
    c ∈ left ∨ (right.dropWhile p).head? = some c := by
  induction left with
  | nil => exact .inr head
  | cons first others ih =>
      rw [List.cons_append] at head
      by_cases passes : p first = true
      · rw [List.dropWhile_cons_of_pos passes] at head
        exact (ih head).imp_left (List.mem_cons_of_mem _)
      · rw [List.dropWhile_cons_of_neg passes] at head
        obtain rfl : first = c := by simpa using head
        exact .inl (by simp)

/-- A character that ends a group. -/
def EndsGroup (rest : Str) : Prop :=
  ∀ c, rest.head? = some c → toDigit 16 c = none ∧ c ≠ '.'

private theorem readIpv4Addr_group (group : UInt16) {rest : Str} (ends : EndsGroup rest) :
    readIpv4Addr (displayHex group.toNat ++ rest) = none := by
  refine readIpv4Addr_eq_none fun dot => ?_
  rcases head_dropWhile_append dot with inside | after
  · exact displayHex_ne_dot _ _ inside rfl
  · cases rest with
    | nil => simp at after
    | cons c others =>
        obtain ⟨noDigit, noDot⟩ := ends c rfl
        rw [List.dropWhile_cons_of_neg (by simp [toDigit_ten_of_sixteen noDigit])] at after
        exact noDot (by simpa using after)

private theorem readGroup_display (group : UInt16) {rest : Str} (ends : EndsGroup rest) :
    readGroup (displayHex group.toNat ++ rest) = some (group, rest) := by
  have small : group.toNat < 65536 := group.toNat_lt
  have read := readNumber_toDigits radixReads_sixteen (some 4) true rest small (fun max same => by
      rw [← Option.some.inj same, Nat.length_toDigits_le_iff (by decide) (by decide)]
      omega) (.inl rfl) (fun c head => (ends c head).1)
  unfold readGroup displayHex
  rw [read, Option.map_some, UInt16.ofNat_toNat]

/-- Text that no further group can be read from. -/
def StopsGroups (rest : Str) : Prop :=
  ∃ c tail, rest = c :: tail ∧ (c = ']' ∨ c = '%' ∨ (c = ':' ∧ tail.head? = some ':'))

private theorem StopsGroups.endsGroup {rest : Str} (stops : StopsGroups rest) : EndsGroup rest := by
  obtain ⟨c, tail, rfl, kind⟩ := stops
  intro d head
  obtain rfl : c = d := by simpa using head
  rcases kind with rfl | rfl | ⟨rfl, _⟩ <;> decide

private theorem readIpv4Addr_mark {text : Str} (mark : ∀ c, text.head? = some c →
    toDigit 16 c = none ∧ c ≠ '.') : readIpv4Addr text = none := by
  refine readIpv4Addr_eq_none fun dot => ?_
  cases text with
  | nil => simp at dot
  | cons c others =>
      obtain ⟨noDigit, noDot⟩ := mark c rfl
      rw [List.dropWhile_cons_of_neg (by simp [toDigit_ten_of_sixteen noDigit])] at dot
      exact noDot (by simpa using dot)

private theorem readGroup_mark {text : Str} (mark : ∀ c, text.head? = some c →
    toDigit 16 c = none ∧ c ≠ '.') : readGroup text = none := by
  unfold readGroup
  rw [readNumber_nothing fun c head => (mark c head).1]
  rfl

private theorem readGroups_stop (first : Bool) (remaining : Nat) {rest : Str} (stops : StopsGroups rest) :
    readGroups first remaining rest = ([], false, rest) := by
  have ends := stops.endsGroup
  have nothing : readSeparator ':' first readIpv4Addr rest = none ∧
      readSeparator ':' first readGroup rest = none := by
    cases first with
    | true => exact ⟨readIpv4Addr_mark ends, readGroup_mark ends⟩
    | false =>
        obtain ⟨c, tail, rfl, kind⟩ := stops
        rcases kind with rfl | rfl | ⟨rfl, colon⟩
        · exact ⟨rfl, rfl⟩
        · exact ⟨rfl, rfl⟩
        · have mark : ∀ d, tail.head? = some d → toDigit 16 d = none ∧ d ≠ '.' := by
            intro d head
            obtain rfl : ':' = d := by simpa [colon] using head
            decide
          exact ⟨readIpv4Addr_mark mark, readGroup_mark mark⟩
  cases remaining with
  | zero => rfl
  | succ remaining => simp [readGroups, nothing]

/-- Groups that each follow a colon. -/
def followingGroups (groups : List UInt16) : Str :=
  groups.flatMap fun group => ':' :: displayHex group.toNat

private theorem fmtSubslice_cons (group : UInt16) (groups : List UInt16) :
    fmtSubslice (group :: groups) = displayHex group.toNat ++ followingGroups groups := by
  induction groups generalizing group with
  | nil => simp [fmtSubslice, followingGroups]
  | cons next rest ih =>
      rw [fmtSubslice, ih next]
      · simp [followingGroups]
      · simp

private theorem followingGroups_endsGroup (groups : List UInt16) {rest : Str} (stops : StopsGroups rest) :
    EndsGroup (followingGroups groups ++ rest) := by
  cases groups with
  | nil => exact stops.endsGroup
  | cons group others =>
      intro c head
      obtain rfl : ':' = c := by simpa [followingGroups] using head
      decide

private theorem readGroups_following (groups : List UInt16) (remaining : Nat)
    (enough : groups.length ≤ remaining) {rest : Str} (stops : StopsGroups rest) :
    readGroups false remaining (followingGroups groups ++ rest) = (groups, false, rest) := by
  induction groups generalizing remaining with
  | nil => exact readGroups_stop false remaining stops
  | cons group others ih =>
      cases remaining with
      | zero => simp at enough
      | succ remaining =>
          have ends := followingGroups_endsGroup others stops
          have later := ih remaining (by simpa using enough)
          have text : followingGroups (group :: others) ++ rest =
              ':' :: (displayHex group.toNat ++ (followingGroups others ++ rest)) := by
            simp [followingGroups]
          rw [text, readGroups]
          simp [readSeparator, readGivenChar, readIpv4Addr_group group ends,
            readGroup_display group ends, later]

theorem readGroups_fmtSubslice (groups : List UInt16) (remaining : Nat)
    (enough : groups.length ≤ remaining) {rest : Str} (stops : StopsGroups rest) :
    readGroups true remaining (fmtSubslice groups ++ rest) = (groups, false, rest) := by
  cases groups with
  | nil => exact readGroups_stop true remaining stops
  | cons group others =>
      cases remaining with
      | zero => simp at enough
      | succ remaining =>
          have ends := followingGroups_endsGroup others stops
          have later := readGroups_following others remaining (by simpa using enough) stops
          rw [fmtSubslice_cons, List.append_assoc, readGroups]
          simp [readSeparator, readIpv4Addr_group group ends, readGroup_display group ends, later]

/-! ## IPv6 addresses are read back -/

private theorem joinOctets_split (group : UInt16) :
    joinOctets (group >>> 8).toUInt8 group.toUInt8 = group := by
  have small := group.toNat_lt
  apply UInt16.toNat_inj.mp
  simp only [joinOctets, UInt16.toNat_or, UInt16.toNat_shiftLeft, UInt8.toNat_toUInt16,
    UInt16.toNat_toUInt8, UInt16.toNat_shiftRight, UInt16.reduceToNat, Nat.reduceMod,
    Nat.shiftRight_eq_div_pow, Nat.reducePow]
  have high : group.toNat / 256 % 256 = group.toNat / 256 := Nat.mod_eq_of_lt (by omega)
  have shifted : (group.toNat / 256) <<< 8 % 65536 = (group.toNat / 256) <<< 8 := by
    rw [Nat.shiftLeft_eq]
    exact Nat.mod_eq_of_lt (by omega)
  rw [high, shifted, ← Nat.shiftLeft_add_eq_or_of_lt (by omega), Nat.shiftLeft_eq]
  omega

/-- A run of zeros within the segments read so far. -/
def Span.ZerosIn (span : Span) (segments : List UInt16) : Prop :=
  span.start + span.len ≤ segments.length ∧
    ∀ i, span.start ≤ i → i < span.start + span.len → segments[i]? = some 0

private theorem Span.ZerosIn.extend {span : Span} {segments : List UInt16} (zeros : span.ZerosIn segments)
    (segment : UInt16) : span.ZerosIn (segments ++ [segment]) := by
  obtain ⟨bound, zero⟩ := zeros
  refine ⟨by simp only [List.length_append, List.length_singleton]; omega, fun i low high => ?_⟩
  rw [List.getElem?_append_left (by omega)]
  exact zero i low high

private theorem foldl_step_zeros (segments : List UInt16) :
    (segments.foldl Span.step (⟨0, 0⟩, ⟨0, 0⟩, 0)).1.ZerosIn segments ∧
      (segments.foldl Span.step (⟨0, 0⟩, ⟨0, 0⟩, 0)).2.1.ZerosIn segments ∧
      (segments.foldl Span.step (⟨0, 0⟩, ⟨0, 0⟩, 0)).2.2 = segments.length ∧
      ((segments.foldl Span.step (⟨0, 0⟩, ⟨0, 0⟩, 0)).2.1.len ≠ 0 →
        (segments.foldl Span.step (⟨0, 0⟩, ⟨0, 0⟩, 0)).2.1.start +
          (segments.foldl Span.step (⟨0, 0⟩, ⟨0, 0⟩, 0)).2.1.len = segments.length) := by
  induction segments using List.reverseRecOn with
  | nil => exact ⟨⟨by simp, by simp⟩, ⟨by simp, by simp⟩, rfl, by simp⟩
  | append_singleton segments segment ih =>
      rw [List.foldl_append]
      generalize segments.foldl Span.step (⟨0, 0⟩, ⟨0, 0⟩, 0) = spans at ih ⊢
      obtain ⟨longest, current, index⟩ := spans
      obtain ⟨longestZeros, currentZeros, index_eq, reaches⟩ := ih
      dsimp only at longestZeros currentZeros index_eq reaches
      subst index_eq
      simp only [List.foldl_cons, List.foldl_nil, Span.step]
      by_cases zero : segment = 0
      · subst zero
        simp only [↓reduceIte]
        have grown : Span.ZerosIn
            ⟨if current.len = 0 then segments.length else current.start, current.len + 1⟩
            (segments ++ [0]) ∧
            (if current.len = 0 then segments.length else current.start) + (current.len + 1) =
              (segments ++ [0]).length := by
          have total : (if current.len = 0 then segments.length else current.start) +
              (current.len + 1) = (segments ++ [0]).length := by
            rw [List.length_append, List.length_singleton]
            split
            · omega
            · rename_i running
              have ends := reaches running
              omega
          refine ⟨⟨Nat.le_of_eq total, fun i low high => ?_⟩, total⟩
          dsimp only at low high
          rw [total, List.length_append, List.length_singleton] at high
          by_cases last : i = segments.length
          · subst last
            simp
          · rw [List.getElem?_append_left (by omega)]
            by_cases fresh : current.len = 0
            · simp only [fresh, ↓reduceIte] at low
              omega
            · simp only [fresh, ↓reduceIte] at low
              have ends := reaches fresh
              exact currentZeros.2 i low (by omega)
        refine ⟨?_, grown.1, by simp, fun _ => grown.2⟩
        split
        · exact grown.1
        · exact longestZeros.extend 0
      · simp only [zero, ↓reduceIte]
        exact ⟨longestZeros.extend segment, ⟨by simp, by simp⟩, by simp, by simp⟩

private theorem longestZeros_split (segments : List UInt16) :
    (longestZeros segments).start + (longestZeros segments).len ≤ segments.length ∧
      segments = segments.take (longestZeros segments).start ++
        List.replicate (longestZeros segments).len 0 ++
        segments.drop ((longestZeros segments).start + (longestZeros segments).len) := by
  obtain ⟨bound, zeros⟩ : (longestZeros segments).ZerosIn segments := (foldl_step_zeros segments).1
  generalize longestZeros segments = span at bound zeros
  refine ⟨bound, ?_⟩
  have middle : (segments.drop span.start).take span.len = List.replicate span.len 0 := by
    apply List.ext_getElem?
    intro i
    by_cases inside : i < span.len
    · rw [List.getElem?_take_of_lt inside, List.getElem?_drop,
        zeros (span.start + i) (by omega) (by omega), List.getElem?_replicate, if_pos inside]
    · rw [List.getElem?_take_eq_none (by omega), List.getElem?_replicate, if_neg inside]
  rw [← middle, List.append_assoc, ← List.drop_drop, List.take_append_drop,
    List.take_append_drop]

theorem readIpv6Addr_display (ip : Ipv6Addr) {rest : Str}
    (ends : ∃ c tail, rest = c :: tail ∧ (c = ']' ∨ c = '%')) :
    readIpv6Addr (ip.display ++ rest) = some (ip, rest) := by
  have stops : StopsGroups rest := by
    obtain ⟨c, tail, same, kind⟩ := ends
    exact ⟨c, tail, same, kind.imp_right .inl⟩
  have colons : ∀ after : Str, StopsGroups (':' :: ':' :: after) :=
    fun after => ⟨':', ':' :: after, rfl, .inr (.inr ⟨rfl, rfl⟩)⟩
  unfold Ipv6Addr.display
  cases mapped : ip.toIpv4Mapped with
  | some ipv4 =>
      obtain ⟨ab, cd, segments, same⟩ : ∃ ab cd, ip.segments = [0, 0, 0, 0, 0, 0xffff, ab, cd] ∧
          ipv4 = ⟨(ab >>> 8).toUInt8, ab.toUInt8, (cd >>> 8).toUInt8, cd.toUInt8⟩ := by
        unfold Ipv6Addr.toIpv4Mapped at mapped
        split at mapped
        · rename_i ab cd segments
          exact ⟨ab, cd, segments, (Option.some.inj mapped).symm⟩
        · simp at mapped
      have digits : ∀ c, rest.head? = some c → toDigit 10 c = none :=
        fun c head => toDigit_ten_of_sixteen (stops.endsGroup c head).1
      have colon : EndsGroup (':' :: (ipv4.display ++ rest)) := by
        intro c head
        obtain rfl : ':' = c := by simpa using head
        decide
      have text : "::ffff:".toList ++ ipv4.display ++ rest =
          ':' :: ':' :: (displayHex (0xffff : UInt16).toNat ++ ':' :: (ipv4.display ++ rest)) := by
        rw [List.append_assoc]
        rfl
      have embedded : readGroups false 6 (':' :: (ipv4.display ++ rest)) =
          ([ab, cd], true, rest) := by
        have joined : joinOctets ipv4.a ipv4.b = ab ∧ joinOctets ipv4.c ipv4.d = cd := by
          rw [same]
          exact ⟨joinOctets_split ab, joinOctets_split cd⟩
        rw [readGroups]
        simp [readSeparator, readGivenChar, readIpv4Addr_display ipv4 digits, joined]
      have tail : readGroups true 7 (displayHex (0xffff : UInt16).toNat ++
          ':' :: (ipv4.display ++ rest)) = ([0xffff, ab, cd], true, rest) := by
        rw [readGroups]
        simp only [readSeparator, Nat.zero_lt_succ, ↓reduceIte, readIpv4Addr_group 0xffff colon,
          readGroup_display 0xffff colon, embedded]
      have head := readGroups_stop true 8
        (colons (displayHex (0xffff : UInt16).toNat ++ ':' :: (ipv4.display ++ rest)))
      have rebuilt : ip = ⟨[0, 0, 0, 0, 0, 0xffff, ab, cd], rfl⟩ := by
        cases ip
        simpa using segments
      dsimp only
      rw [text, readIpv6Addr, head]
      simp only [List.length_nil, readGivenChar, bind, Option.bind, ↓reduceIte, ↓reduceDIte, tail,
        rebuilt, Nat.sub_zero, Bool.false_eq_true, OfNat.zero_ne_ofNat]
      rfl
  | none =>
      obtain ⟨bound, split⟩ := longestZeros_split ip.segments
      have total := ip.length_eq
      dsimp only
      by_cases compressed : 1 < (longestZeros ip.segments).len
      · rw [if_pos compressed]
        generalize longestZeros ip.segments = zeroes at bound split compressed ⊢
        rw [total] at bound
        have headLength : (ip.segments.take zeroes.start).length = zeroes.start := by
          rw [List.length_take, total]
          omega
        have tailLength : (ip.segments.drop (zeroes.start + zeroes.len)).length =
            8 - (zeroes.start + zeroes.len) := by
          rw [List.length_drop, total]
        have head := readGroups_fmtSubslice (ip.segments.take zeroes.start) 8 (by omega)
          (colons (fmtSubslice (ip.segments.drop (zeroes.start + zeroes.len)) ++ rest))
        have tail := readGroups_fmtSubslice (ip.segments.drop (zeroes.start + zeroes.len))
          (7 - zeroes.start) (by omega) stops
        have gap : 8 - zeroes.start - (8 - (zeroes.start + zeroes.len)) = zeroes.len := by omega
        have short : ¬ zeroes.start = 8 := by omega
        simp only [List.append_assoc, List.cons_append]
        rw [readIpv6Addr, head]
        simp only [headLength, short, readGivenChar, bind, Option.bind, ↓reduceIte, ↓reduceDIte,
          tail, tailLength, gap, ← split, total, Bool.false_eq_true]
      · rw [if_neg compressed]
        have whole := readGroups_fmtSubslice ip.segments 8 (by omega) stops
        rw [readIpv6Addr, whole]
        simp only [total, ↓reduceDIte]

/-! ## Socket addresses are read back -/

theorem readPort_display (port : UInt16) :
    readPort (':' :: displayNat port.toNat) = some (port, []) := by
  have read := readNumber_toDigits radixReads_ten none true [] port.toNat_lt (by simp) (.inl rfl) (by simp)
  rw [List.append_nil] at read
  unfold readPort displayNat
  simp only [readGivenChar, ↓reduceIte, bind, Option.bind, read, pure]
  rw [UInt16.ofNat_toNat]

theorem readScopeId_display (scopeId : UInt32) (rest : Str) :
    readScopeId ('%' :: (displayNat scopeId.toNat ++ ']' :: rest)) = some (scopeId, ']' :: rest) := by
  have bracket : ∀ c, (']' :: rest).head? = some c → toDigit 10 c = none := by
    intro c head
    obtain rfl : ']' = c := by simpa using head
    decide
  have read := readNumber_toDigits radixReads_ten none true (']' :: rest) scopeId.toNat_lt (by simp) (.inl rfl) bracket
  unfold readScopeId displayNat
  simp only [readGivenChar, ↓reduceIte, bind, Option.bind, read, pure]
  rw [UInt32.ofNat_toNat]

/-- The part of an address that its text shows. -/
def SocketAddr.shown : SocketAddr → SocketAddr
  | .v4 ip port => .v4 ip port
  | .v6 ip port _ scopeId => .v6 ip port 0 scopeId

@[simp] theorem SocketAddr.display_shown (addr : SocketAddr) : addr.shown.display = addr.display := by
  cases addr <;> rfl

/-- A printed address is read back, but for the flow information no text shows. -/
theorem SocketAddr.parse_display (addr : SocketAddr) :
    SocketAddr.parse addr.display = some addr.shown := by
  cases addr with
  | v4 ip port =>
      have colon : ∀ c, (':' :: displayNat port.toNat).head? = some c → toDigit 10 c = none := by
        intro c head
        obtain rfl : ':' = c := by simpa using head
        decide
      have read : readSocketAddrV4 (ip.display ++ ':' :: displayNat port.toNat) =
          some (.v4 ip port, []) := by
        simp only [readSocketAddrV4, readIpv4Addr_display ip colon, readPort_display, bind,
          Option.bind, pure]
      simp only [SocketAddr.parse, SocketAddr.display, read, Option.some_or, SocketAddr.shown]
  | v6 ip port flowinfo scopeId =>
      generalize after : (if scopeId = 0 then [] else '%' :: displayNat scopeId.toNat) ++
        ']' :: ':' :: displayNat port.toNat = rest
      have ends : ∃ c tail, rest = c :: tail ∧ (c = ']' ∨ c = '%') := by
        rw [← after]
        split
        · exact ⟨_, _, rfl, .inl rfl⟩
        · exact ⟨_, _, rfl, .inr rfl⟩
      have notV4 : readSocketAddrV4 ('[' :: (ip.display ++ rest)) = none := by
        have none : readIpv4Addr ('[' :: (ip.display ++ rest)) = none :=
          readIpv4Addr_mark (by simp; decide)
        simp [readSocketAddrV4, none]
      have scope : (readScopeId rest).getD (0, rest) =
          (scopeId, ']' :: ':' :: displayNat port.toNat) := by
        rw [← after]
        by_cases zero : scopeId = 0
        · rw [if_pos zero, zero]
          rfl
        · rw [if_neg zero]
          exact congrArg (fun read => Option.getD read _) (readScopeId_display scopeId _)
      have read : readSocketAddrV6 ('[' :: (ip.display ++ rest)) =
          some (.v6 ip port 0 scopeId, []) := by
        simp only [readSocketAddrV6, readGivenChar, ↓reduceIte, bind, Option.bind,
          readIpv6Addr_display ip ends, scope, readPort_display, pure]
      simp only [SocketAddr.parse, SocketAddr.display, after, notV4, read, Option.none_or,
        SocketAddr.shown]

/-! ## What addresses are written with -/

def IsAddressChar (c : Char) : Prop :=
  (toDigit 16 c).isSome = true ∨ c ∈ ".:[]%".toList

private theorem displayNat_addressChar (n : Nat) : ∀ c ∈ displayNat n, IsAddressChar c := by
  intro c member
  have digit := (numeralValue_toDigits radixReads_ten n).2 c member
  refine .inl ?_
  by_contra other
  have none10 := toDigit_ten_of_sixteen (Option.not_isSome_iff_eq_none.mp other)
  simp [none10] at digit

private theorem Ipv4Addr.display_addressChar (ip : Ipv4Addr) : ∀ c ∈ ip.display, IsAddressChar c := by
  intro c member
  simp only [Ipv4Addr.display, List.mem_append, List.mem_cons] at member
  rcases member with digit | rfl | digit | rfl | digit | rfl | digit
  all_goals first
    | exact displayNat_addressChar _ _ digit
    | exact .inr (by decide)

private theorem fmtSubslice_addressChar (segments : List UInt16) :
    ∀ c ∈ fmtSubslice segments, IsAddressChar c := by
  have group : ∀ segment : UInt16, ∀ c ∈ displayHex segment.toNat, IsAddressChar c :=
    fun segment c member => .inl ((numeralValue_toDigits radixReads_sixteen _).2 c member)
  cases segments with
  | nil => simp [fmtSubslice]
  | cons first rest =>
      intro c member
      rw [fmtSubslice_cons] at member
      rcases List.mem_append.mp member with own | following
      · exact group first c own
      · obtain ⟨segment, _, inside⟩ := List.mem_flatMap.mp following
        rcases List.mem_cons.mp inside with rfl | digit
        · exact .inr (by decide)
        · exact group segment c digit

private theorem Ipv6Addr.display_addressChar (ip : Ipv6Addr) : ∀ c ∈ ip.display, IsAddressChar c := by
  intro c member
  unfold Ipv6Addr.display at member
  cases mapped : ip.toIpv4Mapped with
  | some ipv4 =>
      rw [mapped] at member
      have front : ∀ c ∈ "::ffff:".toList, (toDigit 16 c).isSome = true ∨ c ∈ ".:[]%".toList := by
        decide
      exact (List.mem_append.mp member).elim (front c) (ipv4.display_addressChar c)
  | none =>
      rw [mapped] at member
      dsimp only at member
      split at member
      · simp only [List.mem_append, List.mem_cons] at member
        rcases member with head | rfl | rfl | tail
        · exact fmtSubslice_addressChar _ c head
        · exact .inr (by decide)
        · exact .inr (by decide)
        · exact fmtSubslice_addressChar _ c tail
      · exact fmtSubslice_addressChar _ c member

theorem SocketAddr.display_addressChar (addr : SocketAddr) :
    ∀ c ∈ addr.display, IsAddressChar c := by
  intro c member
  cases addr with
  | v4 ip port =>
      simp only [SocketAddr.display, List.mem_append, List.mem_cons] at member
      rcases member with host | rfl | digit
      · exact ip.display_addressChar c host
      · exact .inr (by decide)
      · exact displayNat_addressChar _ c digit
  | v6 ip port flowinfo scopeId =>
      simp only [SocketAddr.display, List.mem_append, List.mem_cons] at member
      rcases member with rfl | host | scope | rfl | rfl | digit
      · exact .inr (by decide)
      · exact ip.display_addressChar c host
      · split at scope
        · simp at scope
        · rcases List.mem_cons.mp scope with rfl | digit
          · exact .inr (by decide)
          · exact displayNat_addressChar _ c digit
      · exact .inr (by decide)
      · exact .inr (by decide)
      · exact displayNat_addressChar _ c digit

end Library
