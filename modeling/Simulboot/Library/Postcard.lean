import Simulboot.Library.Run
import Simulboot.Library.Utf8

/-!
# The postcard wire format

Formats are built from smaller ones, and each carries the proof that what it
writes it reads back whatever follows. Integers are written as groups of seven
bits, lengths as integers before the data, enumerations by the number of the
variant.
-/

set_option autoImplicit false

namespace Library.Postcard

inductive Error where
  | unexpectedEnd
  | badVarint
  | badUtf8
  | badEnum
  /-- More data than a length can count. -/
  | lengthOverflow
  deriving DecidableEq, Repr

structure Format (α : Type) where
  write : α → Except Error Bytes
  read : Bytes → Except Error (α × Bytes)
  read_write : ∀ {value : α} {data : Bytes}, write value = .ok data →
    ∀ rest, read (data ++ rest) = .ok (value, rest)

/-! ## Integers -/

/-- At most `count` groups with a continuation bit and one without. -/
def writeVarint : Nat → Nat → Bytes
  | 0, n => [.ofNat n]
  | count + 1, n =>
      if n < 128 then [.ofNat n] else .ofNat (n % 128 + 128) :: writeVarint count (n / 128)

/-- `last` bounds the group that fills the integer type. -/
def readVarint (last : Nat) : Nat → Bytes → Except Error (Nat × Bytes)
  | _, [] => .error .unexpectedEnd
  | 0, byte :: rest => if byte.toNat ≤ last then .ok (byte.toNat, rest) else .error .badVarint
  | count + 1, byte :: rest =>
      if byte.toNat < 128 then .ok (byte.toNat, rest)
      else (readVarint last count rest).map fun read =>
        (byte.toNat - 128 + 128 * read.1, read.2)

theorem readVarint_writeVarint {last : Nat} (low : last < 128) {count n : Nat}
    (fits : n < 128 ^ count * (last + 1)) (rest : Bytes) :
    readVarint last count (writeVarint count n ++ rest) = .ok (n, rest) := by
  induction count generalizing n with
  | zero =>
      have value : (UInt8.ofNat n).toNat = n := by
        rw [UInt8.toNat_ofNat']
        omega
      have bound : n ≤ last := by omega
      simp [writeVarint, readVarint, value, bound]
  | succ count ih =>
      unfold writeVarint
      by_cases small : n < 128
      · have value : (UInt8.ofNat n).toNat = n := by
          rw [UInt8.toNat_ofNat']
          omega
        simp [small, readVarint, value]
      · have value : (UInt8.ofNat (n % 128 + 128)).toNat = n % 128 + 128 := by
          rw [UInt8.toNat_ofNat']
          omega
        have later : n / 128 < 128 ^ count * (last + 1) := by
          rw [Nat.div_lt_iff_lt_mul (by decide)]
          calc n < 128 ^ (count + 1) * (last + 1) := fits
            _ = 128 ^ count * (last + 1) * 128 := by rw [Nat.pow_succ, Nat.mul_right_comm]
        have continued : ¬ n % 128 + 128 < 128 := by omega
        have whole : n % 128 + 128 - 128 + 128 * (n / 128) = n := by omega
        simp only [small, ↓reduceIte, List.cons_append, readVarint, value, continued, ih later,
          Except.map, whole]

private theorem writeVarint_ne_nil (count n : Nat) : writeVarint count n ≠ [] := by
  cases count with
  | zero => exact List.cons_ne_nil _ _
  | succ count =>
      unfold writeVarint
      split <;> exact List.cons_ne_nil _ _

namespace Format

variable {α β : Type}

def varint (count last : Nat) (low : last < 128) : Format Nat where
  write n := if n < 128 ^ count * (last + 1) then .ok (writeVarint count n) else
    .error .lengthOverflow
  read := readVarint last count
  read_write := by
    intro n data written rest
    split at written
    · rename_i fits
      cases written
      exact readVarint_writeVarint low fits rest
    · cases written

/-! ## Combining formats -/

/-- A type with the wire format of another one. -/
def via (format : Format α) (into : β → α) (of : α → Except Error β)
    (back : ∀ value, of (into value) = .ok value) : Format β where
  write value := format.write (into value)
  read data := do
    let (value, rest) ← format.read data
    let value ← of value
    return (value, rest)
  read_write := by
    intro value data written rest
    rw [format.read_write written rest]
    simp only [bind, Except.bind, back]
    rfl

def unit : Format Unit where
  write _ := .ok []
  read data := .ok ((), data)
  read_write := by
    intro value data written rest
    cases written
    rfl

/-- A value in front of one whose format depends on it. -/
def dependent {payload : α → Type} (first : Format α) (second : ∀ a, Format (payload a)) :
    Format (Sigma payload) where
  write value := do
    let front ← first.write value.1
    let back ← (second value.1).write value.2
    return front ++ back
  read data := do
    let (a, data) ← first.read data
    let (b, data) ← (second a).read data
    return (⟨a, b⟩, data)
  read_write := by
    rintro ⟨a, b⟩ data written rest
    obtain ⟨front, wroteFront, written⟩ := bind_eq_ok written
    obtain ⟨back, wroteBack, written⟩ := bind_eq_ok written
    cases written
    rw [List.append_assoc, first.read_write wroteFront]
    simp only [bind, Except.bind, (second a).read_write wroteBack]
    rfl

def pair (first : Format α) (second : Format β) : Format (α × β) :=
  (dependent first fun _ => second).via (fun value => ⟨value.1, value.2⟩)
    (fun value => .ok (value.1, value.2)) fun _ => rfl

/-- An array: as many bytes as its type says. -/
def array (size : Nat) : Format { data : Bytes // data.length = size } where
  write value := .ok value.val
  read data :=
    if enough : size ≤ data.length then
      .ok (⟨data.take size, by simp [enough]⟩, data.drop size)
    else .error .unexpectedEnd
  read_write := by
    rintro ⟨value, rfl⟩ data written rest
    cases written
    simp

/-! ## The types of the format -/

def u32 : Format UInt32 :=
  (varint 4 15 (by decide)).via UInt32.toNat (fun n => .ok (.ofNat n)) fun _ => by simp

def u64 : Format UInt64 :=
  (varint 9 1 (by decide)).via UInt64.toNat (fun n => .ok (.ofNat n)) fun _ => by simp

/-- A `usize`, of 64 bits. -/
def usize : Format Nat :=
  varint 9 1 (by decide)

def u8 : Format UInt8 :=
  (array 1).via (fun byte => ⟨[byte], rfl⟩)
    (fun data => match data with | ⟨[byte], _⟩ => .ok byte) fun _ => rfl

/-- A float: its bits in four bytes, the lowest first. -/
def f32 : Format UInt32 :=
  (array 4).via
    (fun bits => ⟨[bits.toUInt8, (bits >>> 8).toUInt8, (bits >>> 16).toUInt8,
      (bits >>> 24).toUInt8], rfl⟩)
    (fun data => match data with
      | ⟨[b0, b1, b2, b3], _⟩ => .ok (.ofNat (b0.toNat + b1.toNat * 2 ^ 8 + b2.toNat * 2 ^ 16 +
          b3.toNat * 2 ^ 24)))
    fun bits => by
      have small := bits.toNat_lt
      simp only [Except.ok.injEq]
      apply UInt32.toNat_inj.mp
      simp only [UInt32.toNat_ofNat', UInt32.toNat_toUInt8, UInt32.toNat_shiftRight,
        UInt32.reduceToNat, Nat.shiftRight_eq_div_pow, Nat.reduceMod]
      omega

def bytes : Format Bytes :=
  (usize.dependent array).via (fun data => ⟨data.length, data, rfl⟩) (fun value => .ok value.2.val)
    fun _ => rfl

def string : Format Str :=
  bytes.via utf8
    (fun data => match fromUtf8 data with
      | some text => .ok text
      | none => .error .badUtf8)
    fun text => by simp only [fromUtf8_utf8]

/-- An enumeration without payloads: its variants in order. -/
def enumeration [DecidableEq α] (variants : List α) (all : ∀ value, value ∈ variants) : Format α :=
  (varint 4 15 (by decide)).via (fun value => variants.idxOf value)
    (fun index => match variants[index]? with
      | some value => .ok value
      | none => .error .badEnum)
    fun value => by
      rw [List.getElem?_idxOf (all value)]

/-! ## Streams of data -/

/-- What follows a value does not change how it is read. -/
def SelfDelimiting (format : Format α) : Prop :=
  ∀ ⦃data rest : Bytes⦄ ⦃value : α⦄ (more : Bytes),
    format.read data = .ok (value, rest) → format.read (data ++ more) = .ok (value, rest ++ more)

/-- A value that is cut off anywhere cannot be read. -/
theorem SelfDelimiting.refuses {format : Format α} (delimiting : format.SelfDelimiting)
    {value : α} {data : Bytes} (written : format.write value = .ok data) {n : Nat}
    (short : n < data.length) : ∃ error, format.read (data.take n) = .error error := by
  cases cut : format.read (data.take n) with
  | error error => exact ⟨error, rfl⟩
  | ok read =>
      obtain ⟨other, rest⟩ := read
      have whole := delimiting (data.drop n) cut
      have all := format.read_write written []
      rw [List.take_append_drop] at whole
      rw [List.append_nil, whole] at all
      have nothing : rest ++ data.drop n = [] := congrArg Prod.snd (Except.ok.inj all)
      have left := List.drop_eq_nil_iff.mp (List.append_eq_nil_iff.mp nothing).2
      omega

theorem selfDelimiting_varint (count last : Nat) (low : last < 128) :
    (varint count last low).SelfDelimiting := by
  intro data rest value more read
  change readVarint last count data = .ok (value, rest) at read
  change readVarint last count (data ++ more) = .ok (value, rest ++ more)
  induction count generalizing data value with
  | zero =>
      cases data with
      | nil => cases read
      | cons byte data =>
          unfold readVarint at read ⊢
          split at read
          · rename_i small
            cases read
            exact if_pos small
          · cases read
  | succ count ih =>
      cases data with
      | nil => cases read
      | cons byte data =>
          unfold readVarint at read
          change (if byte.toNat < 128 then Except.ok (byte.toNat, data ++ more) else _) = _
          split at read
          · rename_i small
            cases read
            exact if_pos small
          · rename_i large
            rw [if_neg large]
            cases later : readVarint last count data with
            | error e =>
                rw [later] at read
                cases read
            | ok found =>
                rw [later] at read
                cases read
                change Except.map _ (readVarint last count (data ++ more)) = _
                rw [ih later]
                rfl

theorem SelfDelimiting.via {format : Format α} (delimiting : format.SelfDelimiting) {into : β → α}
    {of : α → Except Error β} {back : ∀ value, of (into value) = .ok value} :
    (format.via into of back).SelfDelimiting := by
  intro data rest value more read
  obtain ⟨⟨inner, behind⟩, first, read⟩ := bind_eq_ok read
  obtain ⟨outer, second, read⟩ := bind_eq_ok read
  cases read
  change (do
    let (value, rest) ← format.read (data ++ more)
    let value ← of value
    return (value, rest)) = _
  rw [delimiting more first]
  simp only [bind, Except.bind, second]
  rfl

theorem selfDelimiting_unit : unit.SelfDelimiting := by
  intro data rest value more read
  cases read
  rfl

theorem SelfDelimiting.dependent {payload : α → Type} {first : Format α}
    {second : ∀ a, Format (payload a)} (delimitingFirst : first.SelfDelimiting)
    (delimitingSecond : ∀ a, (second a).SelfDelimiting) : (first.dependent second).SelfDelimiting := by
  intro data rest value more read
  obtain ⟨⟨a, middle⟩, readFirst, read⟩ := bind_eq_ok read
  obtain ⟨⟨b, behind⟩, readSecond, read⟩ := bind_eq_ok read
  cases read
  change (do
    let (a, data) ← first.read (data ++ more)
    let (b, data) ← (second a).read data
    return ((⟨a, b⟩ : Sigma payload), data)) = _
  rw [delimitingFirst more readFirst]
  simp only [bind, Except.bind, delimitingSecond a more readSecond]
  rfl

theorem SelfDelimiting.pair {first : Format α} {second : Format β}
    (delimitingFirst : first.SelfDelimiting) (delimitingSecond : second.SelfDelimiting) : (first.pair second).SelfDelimiting :=
  (delimitingFirst.dependent fun _ => delimitingSecond).via

theorem selfDelimiting_array (size : Nat) : (array size).SelfDelimiting := by
  intro data rest value more read
  change (if enough : size ≤ data.length then _ else _) = _ at read
  split at read
  · rename_i enough
    cases read
    have still : size ≤ (data ++ more).length := by
      rw [List.length_append]
      omega
    change (if enough : size ≤ (data ++ more).length then _ else _) = _
    rw [dif_pos still]
    simp only [List.take_append_of_le_length enough, List.drop_append_of_le_length enough]
  · cases read

theorem selfDelimiting_u32 : u32.SelfDelimiting :=
  (selfDelimiting_varint 4 15 _).via

theorem selfDelimiting_u8 : u8.SelfDelimiting :=
  (selfDelimiting_array 1).via

theorem selfDelimiting_f32 : f32.SelfDelimiting :=
  (selfDelimiting_array 4).via

theorem selfDelimiting_string : string.SelfDelimiting :=
  (((selfDelimiting_varint 9 1 _).dependent fun _ => selfDelimiting_array _).via).via

theorem selfDelimiting_enumeration [DecidableEq α] (variants : List α)
    (all : ∀ value, value ∈ variants) : (enumeration variants all).SelfDelimiting :=
  (selfDelimiting_varint 4 15 _).via

/-! ## Values that are always written -/

def Total (format : Format α) : Prop :=
  ∀ value, ∃ data, format.write value = .ok data

theorem Total.via {format : Format α} (total : format.Total) {into : β → α}
    {of : α → Except Error β} {back : ∀ value, of (into value) = .ok value} :
    (format.via into of back).Total :=
  fun value => total (into value)

theorem Total.dependent {payload : α → Type} {first : Format α}
    {second : ∀ a, Format (payload a)} (totalFirst : first.Total)
    (totalSecond : ∀ a, (second a).Total) : (first.dependent second).Total := by
  rintro ⟨a, b⟩
  obtain ⟨front, wroteFront⟩ := totalFirst a
  obtain ⟨back, wroteBack⟩ := totalSecond a b
  refine ⟨front ++ back, ?_⟩
  change (do
    let front ← first.write a
    let back ← (second a).write b
    return front ++ back) = _
  rw [wroteFront]
  simp only [bind, Except.bind, wroteBack]
  rfl

theorem Total.pair {first : Format α} {second : Format β} (totalFirst : first.Total)
    (totalSecond : second.Total) : (first.pair second).Total :=
  (totalFirst.dependent fun _ => totalSecond).via

theorem total_array (size : Nat) : (array size).Total :=
  fun value => ⟨value.val, rfl⟩

theorem total_u32 : u32.Total :=
  fun value => ⟨writeVarint 4 value.toNat, if_pos value.toNat_lt⟩

theorem total_u8 : u8.Total :=
  (total_array 1).via

theorem total_f32 : f32.Total :=
  (total_array 4).via

/-! ## Values of a limited size -/

private theorem length_writeVarint_le (count n : Nat) : (writeVarint count n).length ≤ count + 1 := by
  induction count generalizing n with
  | zero => exact le_rfl
  | succ count ih =>
      unfold writeVarint
      split
      · exact Nat.le_add_left 1 _
      · exact Nat.succ_le_succ (ih _)

/-- No value takes more bytes. -/
def AtMost (format : Format α) (size : Nat) : Prop :=
  ∀ ⦃value : α⦄ ⦃data : Bytes⦄, format.write value = .ok data → data.length ≤ size

variable {size size' : Nat}

theorem AtMost.mono {format : Format α} (atMost : format.AtMost size) (le : size ≤ size') :
    format.AtMost size' :=
  fun _ _ written => (atMost written).trans le

theorem AtMost.via {format : Format α} (atMost : format.AtMost size) {into : β → α}
    {of : α → Except Error β} {back : ∀ value, of (into value) = .ok value} :
    (format.via into of back).AtMost size :=
  fun _ _ written => atMost written

theorem AtMost.dependent {payload : α → Type} {first : Format α}
    {second : ∀ a, Format (payload a)} (atMostFirst : first.AtMost size)
    (atMostSecond : ∀ a, (second a).AtMost size') :
    (first.dependent second).AtMost (size + size') := by
  rintro ⟨a, b⟩ data written
  obtain ⟨front, wroteFront, written⟩ := bind_eq_ok written
  obtain ⟨back, wroteBack, written⟩ := bind_eq_ok written
  cases written
  rw [List.length_append]
  exact Nat.add_le_add (atMostFirst wroteFront) (atMostSecond a wroteBack)

theorem AtMost.pair {first : Format α} {second : Format β} (atMostFirst : first.AtMost size)
    (atMostSecond : second.AtMost size') : (first.pair second).AtMost (size + size') :=
  (atMostFirst.dependent fun _ => atMostSecond).via

theorem atMost_array (count : Nat) : (array count).AtMost count := by
  rintro ⟨value, size⟩ data written
  cases written
  exact size.le

theorem atMost_varint (count last : Nat) (low : last < 128) :
    (varint count last low).AtMost (count + 1) := by
  intro value data written
  change (if value < _ then _ else _) = _ at written
  split at written <;> cases written
  exact length_writeVarint_le count value

theorem atMost_u32 : u32.AtMost 5 :=
  (atMost_varint 4 15 _).via

theorem atMost_u8 : u8.AtMost 1 :=
  (atMost_array 1).via

theorem atMost_f32 : f32.AtMost 4 :=
  (atMost_array 4).via

theorem atMost_enumeration [DecidableEq α] (variants : List α)
    (all : ∀ value, value ∈ variants) : (enumeration variants all).AtMost 5 :=
  (atMost_varint 4 15 _).via

/-! ## Long strings -/

/-- A string takes more bytes than its characters, where a length can count them. -/
theorem write_string {text : Str} (fits : (utf8 text).length < 2 ^ 64) :
    ∃ data, string.write text = .ok data ∧ (utf8 text).length < data.length := by
  refine ⟨writeVarint 9 (utf8 text).length ++ utf8 text, ?_, ?_⟩
  · have counted : usize.write (utf8 text).length = .ok (writeVarint 9 (utf8 text).length) :=
      if_pos fits
    change (do
      let front ← usize.write (utf8 text).length
      let back ← (array (utf8 text).length).write ⟨utf8 text, rfl⟩
      return front ++ back) = _
    rw [counted]
    rfl
  · have some := List.length_pos_of_ne_nil (writeVarint_ne_nil 9 (utf8 text).length)
    rw [List.length_append]
    omega

end Format

end Library.Postcard
