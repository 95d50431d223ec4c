import Simulboot.Library.Text

/-!
# Framed streams

A decoder that takes one message from the front of a buffer, a reader that
refills the buffer from a transport delivering arbitrary chunks, and the law
that joins them: chunk boundaries are invisible.
-/

set_option autoImplicit false

namespace Library.Framing

/-- What the front of a buffer holds: a message and the bytes it took, too few
bytes to tell, or something no further bytes can repair. -/
inductive Decoded (M E : Type) where
  | message (value : M) (consumed : Nat)
  | incomplete
  | failed (error : E)

/-- A decoder whose verdicts are final: more bytes behind a decoded message or a
failure change nothing. -/
structure Decoder (M E : Type) where
  decode : Bytes → Decoded M E
  consumes : ∀ {buf value consumed}, decode buf = .message value consumed →
    0 < consumed ∧ consumed ≤ buf.length
  message_append : ∀ {buf value consumed} (more : Bytes),
    decode buf = .message value consumed → decode (buf ++ more) = .message value consumed
  failed_append : ∀ {buf error} (more : Bytes),
    decode buf = .failed error → decode (buf ++ more) = .failed error

inductive Ending (E : Type) where
  | clean
  | midFrame
  | failed (error : E)
  deriving DecidableEq, Repr

def Ending.ofRest {E : Type} (broken : Option E) (buf : Bytes) : Ending E :=
  match broken with
  | some error => .failed error
  | none => if buf = [] then .clean else .midFrame

/-- One read: a message with the buffer and the undelivered chunks left behind
it, or the end. -/
inductive Outcome (M E : Type) where
  | message (value : M) (buf : Bytes) (chunks : List Bytes)
  | ended (ending : Ending E)

variable {M E : Type} (decoder : Decoder M E) (broken : Option E)

namespace Decoder

/-- Frames decoded one after another from a whole stream. -/
def decodeStream (bytes : Bytes) : List M × Ending E :=
  match _decoded : decoder.decode bytes with
  | .message value consumed =>
      let rest := decodeStream (bytes.drop consumed)
      (value :: rest.1, rest.2)
  | .incomplete => ([], .ofRest broken bytes)
  | .failed error => ([], .failed error)
termination_by bytes.length
decreasing_by
  have size := decoder.consumes _decoded
  simp only [List.length_drop]
  omega

/-- Decode from the buffer, reading a further chunk while that is incomplete. An
empty read counts as the end of the stream. -/
def readOne (buf : Bytes) : List Bytes → Outcome M E
  | [] =>
      match decoder.decode buf with
      | .message value consumed => .message value (buf.drop consumed) []
      | .failed error => .ended (.failed error)
      | .incomplete => .ended (.ofRest broken buf)
  | chunk :: chunks =>
      match decoder.decode buf with
      | .message value consumed => .message value (buf.drop consumed) (chunk :: chunks)
      | .failed error => .ended (.failed error)
      | .incomplete =>
          if chunk = [] then .ended (.ofRest none buf) else readOne (buf ++ chunk) chunks

variable {decoder} {broken}

theorem decodeStream_message {bytes : Bytes} {value : M} {consumed : Nat}
    (decoded : decoder.decode bytes = .message value consumed) :
    decoder.decodeStream broken bytes =
      (value :: (decoder.decodeStream broken (bytes.drop consumed)).1,
        (decoder.decodeStream broken (bytes.drop consumed)).2) := by
  rw [decodeStream]
  split <;> simp_all

theorem decodeStream_incomplete {bytes : Bytes} (decoded : decoder.decode bytes = .incomplete) :
    decoder.decodeStream broken bytes = ([], .ofRest broken bytes) := by
  rw [decodeStream]
  split <;> simp_all

theorem decodeStream_failed {bytes : Bytes} {error : E}
    (decoded : decoder.decode bytes = .failed error) :
    decoder.decodeStream broken bytes = ([], .failed error) := by
  rw [decodeStream]
  split <;> simp_all

def Outcome.Reads (decoder : Decoder M E) (broken : Option E) (stream : Bytes) :
    Outcome M E → Prop
  | .message value buf chunks =>
      (∀ chunk ∈ chunks, chunk ≠ []) ∧
        ∃ consumed, decoder.decode stream = .message value consumed ∧
          buf ++ chunks.flatten = stream.drop consumed
  | .ended ending => decoder.decodeStream broken stream = ([], ending)

variable (decoder) (broken) in
/-- A read returns the message at the front of the stream and leaves exactly the
bytes behind it, or ends as the stream does. -/
theorem readOne_reads (buf : Bytes) (chunks : List Bytes) (nonempty : ∀ chunk ∈ chunks, chunk ≠ []) :
    Outcome.Reads decoder broken (buf ++ chunks.flatten) (decoder.readOne broken buf chunks) := by
  induction chunks generalizing buf with
  | nil =>
      simp only [List.flatten_nil, List.append_nil, readOne]
      cases decoded : decoder.decode buf with
      | message value consumed => exact ⟨by simp, consumed, decoded, by simp⟩
      | failed error => exact decodeStream_failed decoded
      | incomplete => exact decodeStream_incomplete decoded
  | cons chunk chunks ih =>
      simp only [readOne]
      cases decoded : decoder.decode buf with
      | message value consumed =>
          refine ⟨nonempty, consumed, decoder.message_append _ decoded, ?_⟩
          rw [List.drop_append_of_le_length (decoder.consumes decoded).2]
      | failed error => exact decodeStream_failed (decoder.failed_append _ decoded)
      | incomplete =>
          have delivered : chunk ≠ [] := nonempty chunk (by simp)
          have later := ih (buf ++ chunk) fun other member => nonempty other (by simp [member])
          simpa [delivered, List.append_assoc] using later

theorem readOne_shrinks {buf after : Bytes} {chunks left : List Bytes} {value : M}
    (read : decoder.readOne broken buf chunks = .message value after left) :
    after.length + left.flatten.length < buf.length + chunks.flatten.length := by
  induction chunks generalizing buf with
  | nil =>
      simp only [readOne] at read
      cases decoded : decoder.decode buf with
      | message other consumed =>
          rw [decoded] at read
          cases read
          have size := decoder.consumes decoded
          simp only [List.length_drop, List.flatten_nil, List.length_nil]
          omega
      | failed error => simp [decoded] at read
      | incomplete => simp [decoded] at read
  | cons chunk chunks ih =>
      simp only [readOne] at read
      cases decoded : decoder.decode buf with
      | message other consumed =>
          rw [decoded] at read
          cases read
          have size := decoder.consumes decoded
          simp only [List.length_drop]
          omega
      | failed error => simp [decoded] at read
      | incomplete =>
          rw [decoded] at read
          by_cases delivered : chunk = []
          · simp [delivered] at read
          · simp only [delivered, ↓reduceIte] at read
            have smaller := ih read
            simp only [List.length_append, List.flatten_cons] at smaller ⊢
            omega

variable (decoder) (broken)

/-- Reads over one buffer until the stream ends. -/
def readAll (buf : Bytes) (chunks : List Bytes) : List M × Ending E :=
  match _read : decoder.readOne broken buf chunks with
  | .message value after left =>
      let rest := readAll after left
      (value :: rest.1, rest.2)
  | .ended ending => ([], ending)
termination_by buf.length + chunks.flatten.length
decreasing_by exact readOne_shrinks _read

variable {decoder} {broken}

theorem readAll_message {buf after : Bytes} {chunks left : List Bytes} {value : M}
    (read : decoder.readOne broken buf chunks = .message value after left) :
    decoder.readAll broken buf chunks =
      (value :: (decoder.readAll broken after left).1, (decoder.readAll broken after left).2) := by
  rw [readAll]
  split <;> simp_all

theorem readAll_ended {buf : Bytes} {chunks : List Bytes} {ending : Ending E}
    (read : decoder.readOne broken buf chunks = .ended ending) :
    decoder.readAll broken buf chunks = ([], ending) := by
  rw [readAll]
  split <;> simp_all

/-- Reading a stream in chunks yields what decoding it whole yields. -/
theorem readAll_eq_decodeStream (buf : Bytes) (chunks : List Bytes)
    (nonempty : ∀ chunk ∈ chunks, chunk ≠ []) :
    decoder.readAll broken buf chunks = decoder.decodeStream broken (buf ++ chunks.flatten) := by
  induction buf, chunks using readAll.induct decoder broken with
  | case1 buf chunks value after left read ih =>
      have reads := readOne_reads decoder broken buf chunks nonempty
      rw [read] at reads
      obtain ⟨remaining, consumed, decoded, rest⟩ := reads
      rw [readAll_message read, decodeStream_message decoded, ← rest, ← ih remaining]
  | case2 buf chunks ending read =>
      have reads := readOne_reads decoder broken buf chunks nonempty
      rw [read] at reads
      have whole : decoder.decodeStream broken (buf ++ chunks.flatten) = ([], ending) := reads
      rw [readAll_ended read, whole]

end Decoder

/-! ## How far a buffer grows -/

/-- A buffer is left no longer than it was or, where it holds fewer bytes than a
limit, gets one chunk more. -/
inductive Refills (limit size : Nat) (before : Bytes) : Bytes → Prop where
  | shrinks {after : Bytes} : after.length ≤ before.length → Refills limit size before after
  | refilled {chunk : Bytes} : before.length < limit → chunk.length ≤ size →
      Refills limit size before (before ++ chunk)

theorem Refills.bounded {limit size : Nat} {before after : Bytes}
    (refills : Refills limit size before after) (bounded : before.length ≤ limit - 1 + size) :
    after.length ≤ limit - 1 + size := by
  cases refills with
  | shrinks shorter => exact shorter.trans bounded
  | refilled below fits =>
      rw [List.length_append]
      omega

end Library.Framing
