import Simulboot.Errors
import Simulboot.Library.Framing
import Simulboot.Wire.Frames

/-!
# The structure channel

Both ends read messages from a reliable stream that delivers bytes in pieces.
Where the pieces are cut does not matter.
-/

set_option autoImplicit false

namespace Simulboot

open Library Library.Framing

variable {T E : Type}

/-! ## Reading one message -/

/-- The size of the array that a read fills. -/
def readSize : Nat :=
  4096

/-- A `quinn::RecvStream`: what its reads return one after another, and the error
that breaks it off where it does not end. -/
structure RecvStream where
  chunks : List Bytes
  lost : Option Str

def midFrame : AnyhowError E :=
  .message [.text "stream ended mid-frame".toList]

def readFailure (error : Str) : AnyhowError E :=
  .context [.text "reading structure stream".toList] (.std error)

def atEnd {α : Type} (buf : Bytes) : Except (AnyhowError E) (Option α) :=
  if buf = [] then .ok none else .error midFrame

/-- Decode from the buffer, and read more while the frame in it is incomplete. A
message comes with the buffer and the reads that are left. -/
def readFrom (postcard : Postcard T E) (lost : Option Str) :
    List Bytes → Bytes → Except (AnyhowError E) (Option (T × Bytes × RecvStream))
  | [], buf =>
      match decodeFrame postcard buf with
      | .ok (msg, consumed) => .ok (some (msg, buf.drop consumed, ⟨[], lost⟩))
      | .error (.incomplete _ _) =>
          match lost with
          | some error => .error (readFailure error)
          | none => atEnd buf
      | .error e => .error (.wire e)
  | chunk :: chunks, buf =>
      match decodeFrame postcard buf with
      | .ok (msg, consumed) => .ok (some (msg, buf.drop consumed, ⟨chunk :: chunks, lost⟩))
      | .error (.incomplete _ _) =>
          -- A read of no bytes counts as the end.
          if chunk = [] then atEnd buf else readFrom postcard lost chunks (buf ++ chunk)
      | .error e => .error (.wire e)

def Conn.readMessage (postcard : Postcard T E) (recv : RecvStream) (buf : Bytes) :
    Except (AnyhowError E) (Option (T × Bytes × RecvStream)) :=
  readFrom postcard recv.lost recv.chunks buf

def Host.readMessage (postcard : Postcard T E) (recv : RecvStream) (buf : Bytes) :
    Except (AnyhowError E) (Option (T × Bytes × RecvStream)) :=
  readFrom postcard recv.lost recv.chunks buf

/-! ## Reading on -/

/-- Calls of a reader over one buffer until it returns `None` or an error: the
messages it returns and how it ends. -/
inductive Reads (read : RecvStream → Bytes → Except (AnyhowError E) (Option (T × Bytes × RecvStream))) :
    RecvStream → Bytes → List T → Except (AnyhowError E) Unit → Prop where
  | message {recv recv' buf buf' msg msgs outcome} :
      read recv buf = .ok (some (msg, buf', recv')) → Reads read recv' buf' msgs outcome →
      Reads read recv buf (msg :: msgs) outcome
  | ended {recv buf} : read recv buf = .ok none → Reads read recv buf [] (.ok ())
  | failed {recv buf e} : read recv buf = .error e → Reads read recv buf [] (.error e)

/-! ## The frames of a stream -/

def Conclusive (postcard : Postcard T E) (buf : Bytes) : Prop :=
  ∀ needed available, decodeFrame postcard buf ≠ .error (.incomplete needed available)

/-- Once a frame is complete or refused, more bytes change nothing. -/
theorem decodeFrame_append {postcard : Postcard T E} {buf : Bytes} (conclusive : Conclusive postcard buf)
    (more : Bytes) : decodeFrame postcard (buf ++ more) = decodeFrame postcard buf := by
  match buf with
  | [] | [_] | [_, _] | [_, _, _] => exact absurd rfl (conclusive _ _)
  | b0 :: b1 :: b2 :: b3 :: rest =>
      have conclusive := conclusive (4 + fromBeBytes b0 b1 b2 b3) (rest.length + 4)
      simp only [List.cons_append, decodeFrame_prefixed] at conclusive ⊢
      split
      · rfl
      · rename_i notLarge
        by_cases short : rest.length < fromBeBytes b0 b1 b2 b3
        · simp [notLarge, short] at conclusive
        · have enough : ¬ (rest ++ more).length < fromBeBytes b0 b1 b2 b3 := by
            rw [List.length_append]
            omega
          rw [if_neg short, if_neg enough,
            List.take_append_of_le_length (Nat.le_of_not_lt short)]

theorem decodeFrame_consumes {postcard : Postcard T E} {buf : Bytes} {msg : T} {consumed : Nat}
    (decoded : decodeFrame postcard buf = .ok (msg, consumed)) :
    0 < consumed ∧ consumed ≤ buf.length := by
  match buf with
  | [] | [_] | [_, _] | [_, _, _] => cases decoded
  | b0 :: b1 :: b2 :: b3 :: rest =>
      simp only [decodeFrame_prefixed] at decoded
      split at decoded
      · cases decoded
      · split at decoded
        · cases decoded
        · split at decoded
          · cases decoded
          · rename_i notShort _ _
            cases decoded
            simp only [List.length_cons]
            omega

theorem length_lt_of_incomplete {postcard : Postcard T E} {buf : Bytes}
    {needed available : Nat}
    (decoded : decodeFrame postcard buf = .error (.incomplete needed available)) :
    buf.length < 4 + maxFrameLen := by
  match buf with
  | [] | [_] | [_, _] | [_, _, _] =>
      simp only [List.length_cons, List.length_nil]
      omega
  | b0 :: b1 :: b2 :: b3 :: rest =>
      simp only [decodeFrame_prefixed] at decoded
      split at decoded
      · cases decoded
      · rename_i notLarge
        split at decoded
        · rename_i short
          simp only [List.length_cons]
          omega
        · split at decoded <;> cases decoded

def verdict : Except (WireError E) (T × Nat) → Decoded T (AnyhowError E)
  | .ok (msg, consumed) => .message msg consumed
  | .error (.incomplete _ _) => .incomplete
  | .error e => .failed (.wire e)

theorem verdict_eq_message {decoded : Except (WireError E) (T × Nat)} {msg : T} {consumed : Nat} :
    verdict decoded = .message msg consumed ↔ decoded = .ok (msg, consumed) := by
  rcases decoded with (_ | _ | _) | ⟨_, _⟩ <;> simp [verdict]

private theorem conclusive_of_verdict {postcard : Postcard T E} {buf : Bytes}
    (complete : verdict (decodeFrame postcard buf) ≠ .incomplete) : Conclusive postcard buf := by
  intro needed available decoded
  rw [decoded] at complete
  exact complete rfl

def frameDecoder (postcard : Postcard T E) : Decoder T (AnyhowError E) where
  decode buf := verdict (decodeFrame postcard buf)
  consumes decoded := decodeFrame_consumes (verdict_eq_message.mp decoded)
  message_append more decoded := by
    rw [decodeFrame_append (conclusive_of_verdict (by simp [decoded])), decoded]
  failed_append more decoded := by
    rw [decodeFrame_append (conclusive_of_verdict (by simp [decoded])), decoded]

/-- What the loop that reads the messages sees of an ending. -/
def outcome : Ending (AnyhowError E) → Except (AnyhowError E) Unit
  | .clean => .ok ()
  | .midFrame => .error midFrame
  | .failed e => .error e

/-- Frames decoded one after another from a whole stream: their messages, and
how the stream ends behind them. -/
def decodeStream (postcard : Postcard T E) (lost : Option Str) (bytes : Bytes) :
    List T × Except (AnyhowError E) Unit :=
  let whole := (frameDecoder postcard).decodeStream (lost.map readFailure) bytes
  (whole.1, outcome whole.2)

/-- Frames that were encoded one after another are read as the messages. -/
theorem decodeStream_encoded {postcard : Postcard T E} (inverts : postcard.Inverts) {msgs : List T}
    {frames : List Bytes} (encoded : Encoded postcard msgs frames) (fits : Fits postcard msgs) :
    decodeStream postcard none frames.flatten = (msgs, .ok ()) := by
  have all : (frameDecoder postcard).decodeStream none frames.flatten = (msgs, .clean) := by
    induction encoded with
    | nil => exact Decoder.decodeStream_incomplete rfl
    | @cons msg frame msgs frames first encoded ih =>
        obtain ⟨body, serialised, rfl⟩ := encodeFrame_eq_ok first
        have decoded := decodeFrame_encodeFrame inverts serialised
          (fits msg (by simp) body serialised) frames.flatten
        have front : (frameDecoder postcard).decode
            ((toBeBytes body.length ++ body) ++ frames.flatten) =
            .message msg (toBeBytes body.length ++ body).length :=
          verdict_eq_message.mpr decoded
        rw [List.flatten_cons, Decoder.decodeStream_message front, List.drop_left,
          ih fun other member => fits other (by simp [member])]
  unfold decodeStream
  rw [Option.map_none, all]
  rfl

/-! ## Readers against the stream -/

def returned (lost : Option Str) :
    Outcome T (AnyhowError E) → Except (AnyhowError E) (Option (T × Bytes × RecvStream))
  | .message msg buf chunks => .ok (some (msg, buf, ⟨chunks, lost⟩))
  | .ended ending => (outcome ending).map fun _ => none

private theorem atEnd_eq (lost : Option Str) (buf : Bytes) :
    (atEnd buf : Except (AnyhowError E) (Option (T × Bytes × RecvStream))) =
      returned lost (.ended (.ofRest none buf)) := by
  unfold atEnd returned Ending.ofRest
  by_cases empty : buf = [] <;> simp [empty, outcome, Except.map]

/-- The readers read as the library's does. -/
theorem readFrom_eq (postcard : Postcard T E) (lost : Option Str) (chunks : List Bytes)
    (buf : Bytes) :
    readFrom postcard lost chunks buf =
      returned lost ((frameDecoder postcard).readOne (lost.map readFailure) buf chunks) := by
  induction chunks generalizing buf with
  | nil =>
      simp only [readFrom, Decoder.readOne, frameDecoder]
      rcases decodeFrame postcard buf with (_ | _ | _) | ⟨_, _⟩
      · rfl
      · cases lost with
        | some error => rfl
        | none => exact atEnd_eq none buf
      · rfl
      · rfl
  | cons chunk chunks ih =>
      simp only [readFrom, Decoder.readOne, frameDecoder]
      rcases decodeFrame postcard buf with (_ | _ | _) | ⟨_, _⟩
      · rfl
      · simp only [verdict]
        split
        · exact atEnd_eq lost buf
        · exact ih _
      · rfl
      · rfl

section

variable {postcard : Postcard T E}
  {read : RecvStream → Bytes → Except (AnyhowError E) (Option (T × Bytes × RecvStream))}

theorem Reads.unique {recv : RecvStream} {buf : Bytes} {msgs msgs' : List T}
    {ending ending' : Except (AnyhowError E) Unit} (one : Reads read recv buf msgs ending)
    (other : Reads read recv buf msgs' ending') : msgs = msgs' ∧ ending = ending' := by
  induction one generalizing msgs' ending' with
  | message first _ ih =>
      cases other with
      | message again later =>
          rw [first] at again
          cases again
          obtain ⟨rfl, rfl⟩ := ih later
          exact ⟨rfl, rfl⟩
      | ended again => rw [first] at again; cases again
      | failed again => rw [first] at again; cases again
  | ended first =>
      cases other with
      | message again _ => rw [first] at again; cases again
      | ended _ => exact ⟨rfl, rfl⟩
      | failed again => rw [first] at again; cases again
  | failed first =>
      cases other with
      | message again _ => rw [first] at again; cases again
      | ended again => rw [first] at again; cases again
      | failed again =>
          rw [first] at again
          cases again
          exact ⟨rfl, rfl⟩

variable (reader : ∀ recv buf, read recv buf = readFrom postcard recv.lost recv.chunks buf)

include reader

theorem reads_readAll (lost : Option Str) (buf : Bytes) (chunks : List Bytes) :
    Reads read ⟨chunks, lost⟩ buf
      ((frameDecoder postcard).readAll (lost.map readFailure) buf chunks).1
      (outcome ((frameDecoder postcard).readAll (lost.map readFailure) buf chunks).2) := by
  induction buf, chunks using Decoder.readAll.induct (frameDecoder postcard)
    (lost.map readFailure) with
  | case1 buf chunks msg after left next ih =>
      rw [Decoder.readAll_message next]
      refine .message ?_ ih
      rw [reader, readFrom_eq, next]
      rfl
  | case2 buf chunks ending next =>
      rw [Decoder.readAll_ended next]
      have finished : read ⟨chunks, lost⟩ buf = (outcome ending).map fun _ => none := by
        rw [reader, readFrom_eq, next]
        rfl
      cases result : outcome ending with
      | ok _ => exact .ended (by rw [finished, result]; rfl)
      | error e => exact .failed (by rw [finished, result]; rfl)

/-- Reading until the end yields the frames of the whole stream. -/
theorem reads_iff {recv : RecvStream} (nonempty : ∀ chunk ∈ recv.chunks, chunk ≠ []) {buf : Bytes}
    {msgs : List T} {ending : Except (AnyhowError E) Unit} :
    Reads read recv buf msgs ending ↔
      decodeStream postcard recv.lost (buf ++ recv.chunks.flatten) = (msgs, ending) := by
  have all := reads_readAll reader recv.lost buf recv.chunks
  rw [Decoder.readAll_eq_decodeStream buf recv.chunks nonempty] at all
  unfold decodeStream
  rw [Prod.mk.injEq]
  constructor
  · intro read
    exact all.unique read
  · rintro ⟨rfl, rfl⟩
    exact all

end

end Simulboot
