import Mathlib.Tactic.IntervalCases
import Simulboot.Library.Utf8

/-!
# Numerals

Decimal numerals of the unsigned machine integers, as Rust prints and parses
them, and the hexadecimal text of byte strings.
-/

set_option autoImplicit false

namespace Library

/-! ## Decimal numerals -/

/-- `Display` of an unsigned integer. -/
def displayNat (n : Nat) : Str :=
  Nat.toDigits 10 n

/-- The digits of an unsigned numeral, after its optional plus sign. -/
def unsignedDigits : Str → Str
  | '+' :: rest => rest
  | digits => digits

/-- `FromStr` of an unsigned integer type with the values below `bound`: an
optional plus sign and at least one decimal digit, refused on overflow. -/
def parseNat (bound : Nat) (text : Str) : Option Nat :=
  let digits := unsignedDigits text
  let value := Nat.ofDigitChars 10 digits 0
  if digits ≠ [] ∧ digits.all Char.isDigit ∧ value < bound then some value else none

theorem isDigit_of_mem_displayNat {n : Nat} {c : Char} (member : c ∈ displayNat n) :
    c.isDigit = true :=
  Nat.isDigit_of_mem_toDigits (by decide) (by decide) member

theorem displayNat_ne_nil (n : Nat) : displayNat n ≠ [] :=
  Nat.toDigits_ne_nil

theorem not_mem_displayNat {c : Char} (n : Nat) (other : c.isDigit = false) :
    c ∉ displayNat n := by
  intro member
  simp [isDigit_of_mem_displayNat member] at other

theorem unsignedDigits_displayNat (n : Nat) :
    unsignedDigits (displayNat n) = displayNat n := by
  unfold unsignedDigits
  split
  · rename_i rest same
    exact absurd (by simp [same]) (not_mem_displayNat n (c := '+') (by decide))
  · rfl

theorem parseNat_displayNat {bound n : Nat} (fits : n < bound) :
    parseNat bound (displayNat n) = some n := by
  have all : (displayNat n).all Char.isDigit = true := by
    rw [List.all_eq_true]
    exact fun c member => isDigit_of_mem_displayNat member
  have value : Nat.ofDigitChars 10 (displayNat n) 0 = n := by simp [displayNat]
  simp [parseNat, unsignedDigits_displayNat, displayNat_ne_nil n, all, value, fits]

/-! ## Hexadecimal -/

/-- The errors of `hex::decode`. -/
inductive FromHexError where
  | invalidHexCharacter (c : UInt8) (index : Nat)
  | oddLength
  deriving DecidableEq, Repr

/-- The value of one hexadecimal digit, of either case. -/
def hexValue (c : UInt8) (index : Nat) : Except FromHexError UInt8 :=
  if 65 ≤ c ∧ c ≤ 70 then .ok (c - 65 + 10)
  else if 97 ≤ c ∧ c ≤ 102 then .ok (c - 97 + 10)
  else if 48 ≤ c ∧ c ≤ 57 then .ok (c - 48)
  else .error (.invalidHexCharacter c index)

/-- The digit pairs of `hex::decode`, from byte `index` on. -/
def hexPairs (index : Nat) : Bytes → Except FromHexError Bytes
  | high :: low :: rest => do
      let upper ← hexValue high index
      let lower ← hexValue low (index + 1)
      let more ← hexPairs (index + 2) rest
      return (upper <<< 4 ||| lower) :: more
  | _ => .ok []

/-- `hex::decode`. -/
def hexDecode (data : Bytes) : Except FromHexError Bytes :=
  if data.length % 2 ≠ 0 then .error .oddLength else hexPairs 0 data

/-- The two lowercase digits of a byte. -/
def hexByte (byte : UInt8) : Str :=
  [Nat.digitChar (byte.toNat / 16), Nat.digitChar (byte.toNat % 16)]

/-- `hex::encode`. -/
def hexEncode (data : Bytes) : Str :=
  data.flatMap hexByte

/-- The characters `hex::encode` writes. -/
def hexAlphabet : Str :=
  "0123456789abcdef".toList

private theorem digitChar_mem_hexAlphabet : ∀ digit < 16, Nat.digitChar digit ∈ hexAlphabet := by
  decide

theorem mem_hexEncode {data : Bytes} {c : Char} (member : c ∈ hexEncode data) :
    c ∈ hexAlphabet := by
  obtain ⟨byte, _, digit⟩ := List.mem_flatMap.mp member
  have small := byte.toNat_lt
  simp only [hexByte, List.mem_cons, List.not_mem_nil, or_false] at digit
  rcases digit with rfl | rfl
  · exact digitChar_mem_hexAlphabet _ (by omega)
  · exact digitChar_mem_hexAlphabet _ (Nat.mod_lt _ (by decide))

private theorem hexValue_digitChar : ∀ digit < 16, ∀ index,
    hexValue (Nat.digitChar digit).toUInt8 index = .ok (UInt8.ofNat digit) := by
  intro digit small index
  interval_cases digit <;> rfl

private theorem joinNibbles (byte : UInt8) :
    UInt8.ofNat (byte.toNat / 16) <<< 4 ||| UInt8.ofNat (byte.toNat % 16) = byte := by
  have all : ∀ n < 256, UInt8.ofNat (n / 16) <<< 4 ||| UInt8.ofNat (n % 16) = UInt8.ofNat n := by
    decide +kernel
  simpa using all byte.toNat byte.toNat_lt

private theorem utf8_hexByte (byte : UInt8) :
    utf8 (hexByte byte) =
      [(Nat.digitChar (byte.toNat / 16)).toUInt8, (Nat.digitChar (byte.toNat % 16)).toUInt8] := by
  have ascii : ∀ digit < 16, (Nat.digitChar digit).toNat < 128 := by decide
  rw [utf8_ascii]
  · rfl
  · have small := byte.toNat_lt
    intro c member
    simp only [hexByte, List.mem_cons, List.not_mem_nil, or_false] at member
    rcases member with rfl | rfl
    · exact ascii _ (by omega)
    · exact ascii _ (Nat.mod_lt _ (by decide))

theorem hexPairs_hexEncode (data : Bytes) (index : Nat) :
    hexPairs index (utf8 (hexEncode data)) = .ok data := by
  induction data generalizing index with
  | nil => rfl
  | cons byte rest ih =>
      have small := byte.toNat_lt
      have unfolded : utf8 (hexEncode (byte :: rest)) =
          utf8 (hexByte byte) ++ utf8 (hexEncode rest) := by
        simp [hexEncode]
      rw [unfolded, utf8_hexByte]
      simp only [List.cons_append, List.nil_append, hexPairs]
      rw [hexValue_digitChar _ (by omega), hexValue_digitChar _ (Nat.mod_lt _ (by decide)), ih]
      simp [bind, Except.bind, pure, Except.pure, joinNibbles]

theorem hexDecode_hexEncode (data : Bytes) : hexDecode (utf8 (hexEncode data)) = .ok data := by
  have even : ∀ bytes : Bytes, (utf8 (hexEncode bytes)).length % 2 = 0 := by
    intro bytes
    induction bytes with
    | nil => rfl
    | cons byte rest ih =>
        have unfolded : utf8 (hexEncode (byte :: rest)) =
            utf8 (hexByte byte) ++ utf8 (hexEncode rest) := by
          simp [hexEncode]
        rw [unfolded, utf8_hexByte]
        simp only [List.length_append, List.length_cons, List.length_nil]
        omega
  simp [hexDecode, even data, hexPairs_hexEncode]

theorem hexEncode_injective : Function.Injective hexEncode := by
  intro left right same
  have decoded := congrArg (fun text => hexDecode (utf8 text)) same
  simpa [hexDecode_hexEncode] using decoded

@[simp] theorem length_hexEncode (data : Bytes) :
    (hexEncode data).length = 2 * data.length := by
  induction data with
  | nil => rfl
  | cons byte rest ih =>
      simp only [hexEncode, List.flatMap_cons, List.length_append, List.length_cons] at ih ⊢
      rw [ih]
      simp only [hexByte, List.length_cons, List.length_nil]
      omega

end Library
