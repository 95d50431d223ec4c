import Mathlib.Logic.Function.Iterate
import Simulboot.Client.Conn

/-!
# Progress of the readers

The loop of `read_message` taken pass by pass, over any transport. What the peer
sends does not make the buffer grow beyond a frame and a read, and every pass that
does not return brings bytes of the stream.
-/

set_option autoImplicit false

namespace Simulboot

open Library Library.Framing

variable {T E S : Type}

/-! ## The loop -/

/-- What the reads of a stream answer, and the stream behind each. -/
abbrev Transport (S : Type) : Type :=
  S → Except Str (Option Bytes) × S

structure Reader (S : Type) where
  buf : Bytes
  recv : S

/-- One pass through the loop. -/
structure Pass (T E S : Type) where
  /-- What the read answers, where one is issued. -/
  read : Option (Except Str (Option Bytes))
  /-- What the call returns, where the pass is its last. -/
  returned : Option (Except (AnyhowError E) (Option T))
  after : Reader S

/-- The body of the loop of `read_message`, which host and compositor have alike. -/
def readPass (postcard : Postcard T E) (transport : Transport S) (reader : Reader S) :
    Pass T E S :=
  match decodeFrame postcard reader.buf with
  | .ok (msg, consumed) =>
      { read := none, returned := some (.ok (some msg))
        after := { reader with buf := reader.buf.drop consumed } }
  | .error (.incomplete _ _) =>
      let (answer, recv) := transport reader.recv
      match answer with
      | .error error =>
          { read := some answer, returned := some (.error (readFailure error))
            after := { reader with recv } }
      | .ok none =>
          { read := some answer, returned := some (atEnd reader.buf), after := { reader with recv } }
      | .ok (some chunk) =>
          if chunk = [] then
            { read := some answer, returned := some (atEnd reader.buf)
              after := { reader with recv } }
          else { read := some answer, returned := none, after := ⟨reader.buf ++ chunk, recv⟩ }
  | .error e => { read := none, returned := some (.error (.wire e)), after := reader }

/-- So many passes, of one call after another. -/
def passes (postcard : Postcard T E) (transport : Transport S) (count : Nat) :
    Reader S → Reader S :=
  (fun reader => (readPass postcard transport reader).after)^[count]

/-- A call of `read_message`: passes until one returns. -/
inductive ReadCall (postcard : Postcard T E) (transport : Transport S) :
    Reader S → Except (AnyhowError E) (Option T) → Reader S → Prop where
  | returned {reader result} : (readPass postcard transport reader).returned = some result →
      ReadCall postcard transport reader result (readPass postcard transport reader).after
  | again {reader result after} : (readPass postcard transport reader).returned = none →
      ReadCall postcard transport (readPass postcard transport reader).after result after →
      ReadCall postcard transport reader result after

/-! ## Transports -/

def behind (transport : Transport S) (reads : Nat) : S → S :=
  (fun recv => (transport recv).2)^[reads]

def Fills (transport : Transport S) (recv : S) : Prop :=
  ∀ reads chunk, (transport (behind transport reads recv)).1 = .ok (some chunk) →
    chunk.length ≤ readSize

/-- From some read on, reads of the stream bring no bytes. -/
def RunsOut (transport : Transport S) (recv : S) : Prop :=
  ∃ total, ∀ reads ≥ total, ∀ chunk ≠ [],
    (transport (behind transport reads recv)).1 ≠ .ok (some chunk)

variable {postcard : Postcard T E} {transport : Transport S} {recv : S} {reader : Reader S}

private theorem behind_add (more reads : Nat) : behind transport (more + reads) recv =
    behind transport more (behind transport reads recv) :=
  Function.iterate_add_apply _ more reads recv

private theorem RunsOut.rest (runsOut : RunsOut transport recv) (reads : Nat) :
    RunsOut transport (behind transport reads recv) := by
  obtain ⟨total, ends⟩ := runsOut
  refine ⟨total, fun more late => ?_⟩
  rw [← behind_add]
  exact ends _ (Nat.le_add_right_of_le late)

/-! ## One pass -/

/-- All that a pass can come to: it returns without a read, or behind one that brings
no bytes, or the buffer gets the bytes of the read. -/
inductive Passed (transport : Transport S) (reader : Reader S) : Pass T E S → Prop where
  | decided {result buf} : buf.length ≤ reader.buf.length →
      Passed transport reader ⟨none, some result, { reader with buf }⟩
  | ended {answer result recv} : reader.buf.length < 4 + maxFrameLen →
      transport reader.recv = (answer, recv) → (∀ chunk ≠ [], answer ≠ .ok (some chunk)) →
      Passed transport reader ⟨some answer, some result, { reader with recv }⟩
  | refilled {chunk recv} : reader.buf.length < 4 + maxFrameLen →
      transport reader.recv = (.ok (some chunk), recv) → chunk ≠ [] →
      Passed transport reader ⟨some (.ok (some chunk)), none, ⟨reader.buf ++ chunk, recv⟩⟩

variable (postcard transport reader) in
private theorem readPass_passed : Passed transport reader (readPass postcard transport reader) := by
  unfold readPass
  split
  · exact .decided (by rw [List.length_drop]; omega)
  · rename_i needed available decoded
    have below := length_lt_of_incomplete decoded
    obtain ⟨answer, recv, answered⟩ : ∃ answer recv, transport reader.recv = (answer, recv) :=
      ⟨_, _, rfl⟩
    rw [answered]
    dsimp only
    split
    · exact .ended below answered fun _ _ same => by cases same
    · exact .ended below answered fun _ _ same => by cases same
    · rename_i chunk
      split
      · rename_i empty
        refine .ended below answered fun other nonempty same => nonempty ?_
        rw [← empty]
        exact (Option.some.inj (Except.ok.inj same)).symm
      · rename_i nonempty
        exact .refilled below answered nonempty
  · exact .decided le_rfl

section

variable {pass : Pass T E S} (passed : Passed transport reader pass)

include passed

private theorem Passed.short (issued : pass.read.isSome = true) :
    reader.buf.length < 4 + maxFrameLen := by
  cases passed with
  | decided _ => cases issued
  | ended below _ _ => exact below
  | refilled below _ _ => exact below

private theorem Passed.goesOn (unreturned : pass.returned = none) :
    ∃ chunk ≠ [], transport reader.recv = (.ok (some chunk), pass.after.recv) ∧
      pass.after.buf = reader.buf ++ chunk := by
  cases passed with
  | decided _ => cases unreturned
  | ended _ _ _ => cases unreturned
  | refilled _ answered nonempty => exact ⟨_, nonempty, answered, rfl⟩

private theorem Passed.refills
    (sized : ∀ chunk, (transport reader.recv).1 = .ok (some chunk) → chunk.length ≤ readSize) :
    Refills (4 + maxFrameLen) readSize reader.buf pass.after.buf := by
  cases passed with
  | decided shorter => exact .shrinks shorter
  | ended _ _ _ => exact .shrinks le_rfl
  | refilled below answered _ => exact .refilled below (sized _ (by rw [answered]))

private theorem Passed.reads : ∃ reads, pass.after.recv = behind transport reads reader.recv := by
  cases passed with
  | decided _ => exact ⟨0, rfl⟩
  | ended _ answered _ => exact ⟨1, (congrArg Prod.snd answered).symm⟩
  | refilled _ answered _ => exact ⟨1, (congrArg Prod.snd answered).symm⟩

end

/-- What a pass does wherever the reader stands: it reads only where the buffer is short,
and returns or brings bytes. -/
structure Progresses (postcard : Postcard T E) (transport : Transport S) (reader : Reader S) :
    Prop where
  short : (readPass postcard transport reader).read.isSome = true →
    reader.buf.length < 4 + maxFrameLen
  bounded : reader.buf.length ≤ 4 + maxFrameLen - 1 + readSize
  advances : (readPass postcard transport reader).returned.isSome = true ∨
    ∃ chunk ≠ [], (transport reader.recv).1 = .ok (some chunk) ∧
      (readPass postcard transport reader).after.buf = reader.buf ++ chunk

variable (postcard)

theorem progresses_of_bounded (bounded : reader.buf.length ≤ 4 + maxFrameLen - 1 + readSize) :
    Progresses postcard transport reader := by
  have passed := readPass_passed postcard transport reader
  refine ⟨passed.short, bounded, ?_⟩
  cases result : (readPass postcard transport reader).returned with
  | some value => exact .inl rfl
  | none =>
      obtain ⟨chunk, nonempty, answered, grown⟩ := passed.goesOn result
      exact .inr ⟨chunk, nonempty, congrArg Prod.fst answered, grown⟩

/-! ## Any number of passes -/

private theorem passes_succ (count : Nat) : passes postcard transport (count + 1) reader =
    (readPass postcard transport (passes postcard transport count reader)).after :=
  Function.iterate_succ_apply' _ _ _

theorem passes_add (later earlier : Nat) : passes postcard transport (later + earlier) reader =
    passes postcard transport later (passes postcard transport earlier reader) :=
  Function.iterate_add_apply _ later earlier reader

theorem passes_reads (transport : Transport S) (reader : Reader S) (count : Nat) :
    ∃ reads, (passes postcard transport count reader).recv =
      behind transport reads reader.recv := by
  induction count with
  | zero => exact ⟨0, rfl⟩
  | succ count ih =>
      obtain ⟨earlier, before⟩ := ih
      obtain ⟨reads, last⟩ :=
        (readPass_passed postcard transport (passes postcard transport count reader)).reads
      refine ⟨reads + earlier, ?_⟩
      rw [passes_succ, last, before, behind_add]

/-- The buffer stays within a frame and a read, whatever the peer sends. -/
theorem passes_bounded {transport : Transport S} (reader : Reader S)
    (fills : Fills transport reader.recv)
    (bounded : reader.buf.length ≤ 4 + maxFrameLen - 1 + readSize) (count : Nat) :
    (passes postcard transport count reader).buf.length ≤ 4 + maxFrameLen - 1 + readSize := by
  induction count with
  | zero => exact bounded
  | succ count ih =>
      obtain ⟨reads, recv⟩ := passes_reads postcard transport reader count
      have passed := readPass_passed postcard transport (passes postcard transport count reader)
      have sized : ∀ chunk, (transport (passes postcard transport count reader).recv).1 =
          .ok (some chunk) → chunk.length ≤ readSize := by
        rw [recv]
        exact fills reads
      rw [passes_succ]
      exact (passed.refills sized).bounded ih

private theorem readCall_of_runsOut {transport : Transport S} (reader : Reader S)
    (runsOut : RunsOut transport reader.recv) :
    ∃ result after, ReadCall postcard transport reader result after := by
  obtain ⟨total, ends⟩ := runsOut
  induction total generalizing reader with
  | zero =>
      cases result : (readPass postcard transport reader).returned with
      | some value => exact ⟨value, _, .returned result⟩
      | none =>
          obtain ⟨chunk, nonempty, answered, _⟩ :=
            (readPass_passed postcard transport reader).goesOn result
          exact absurd (congrArg Prod.fst answered) (ends 0 le_rfl chunk nonempty)
  | succ total ih =>
      cases result : (readPass postcard transport reader).returned with
      | some value => exact ⟨value, _, .returned result⟩
      | none =>
          obtain ⟨_, _, answered, _⟩ := (readPass_passed postcard transport reader).goesOn result
          have next : (readPass postcard transport reader).after.recv =
              behind transport 1 reader.recv := (congrArg Prod.snd answered).symm
          have later : ∃ value after, ReadCall postcard transport
              (readPass postcard transport reader).after value after := by
            refine ih _ fun reads late => ?_
            rw [next, ← behind_add]
            exact ends (reads + 1) (Nat.succ_le_succ late)
          obtain ⟨value, after, call⟩ := later
          exact ⟨value, after, .again result call⟩

theorem ReadCall.passes {result : Except (AnyhowError E) (Option T)} {after : Reader S}
    (call : ReadCall postcard transport reader result after) :
    ∃ count, after = passes postcard transport count reader := by
  induction call with
  | returned _ => exact ⟨1, rfl⟩
  | again _ _ ih =>
      obtain ⟨count, rfl⟩ := ih
      exact ⟨count + 1, (Function.iterate_succ_apply _ _ _).symm⟩

/-! ## The streams of the model -/

/-- The reads of a stream one after another. Behind its end it stays as it is. -/
def RecvStream.read : Transport RecvStream
  | ⟨[], some error⟩ => (.error error, ⟨[], some error⟩)
  | ⟨[], none⟩ => (.ok none, ⟨[], none⟩)
  | ⟨chunk :: chunks, lost⟩ => (.ok (some chunk), ⟨chunks, lost⟩)

private theorem behind_recvStream (recv : RecvStream) (reads : Nat) :
    behind RecvStream.read reads recv = ⟨recv.chunks.drop reads, recv.lost⟩ := by
  induction reads generalizing recv with
  | zero => rfl
  | succ reads ih =>
      rw [behind_add, ih]
      match recv with
      | ⟨[], some error⟩ | ⟨[], none⟩ => simp [behind, RecvStream.read]
      | ⟨chunk :: chunks, lost⟩ => rfl

private theorem fills_recvStream {recv : RecvStream}
    (sizes : ∀ chunk ∈ recv.chunks, chunk.length ≤ readSize) : Fills RecvStream.read recv := by
  intro reads chunk answered
  rw [behind_recvStream] at answered
  match rest : recv.chunks.drop reads, lost : recv.lost with
  | [], some error | [], none =>
      rw [rest, lost] at answered
      cases answered
  | next :: chunks, _ =>
      rw [rest] at answered
      cases answered
      exact sizes chunk (List.mem_of_mem_drop (rest ▸ List.mem_cons_self))

private theorem runsOut_recvStream (recv : RecvStream) : RunsOut RecvStream.read recv := by
  refine ⟨recv.chunks.length, fun reads late chunk _ => ?_⟩
  rw [behind_recvStream, List.drop_eq_nil_of_le late]
  cases recv.lost <;> exact fun answered => by cases answered

def Reader.leaves (after : Reader RecvStream) (msg : T) : T × Bytes × RecvStream :=
  (msg, after.buf, after.recv)

theorem map_atEnd {α β : Type} (f : α → β) (buf : Bytes) :
    (atEnd buf : Except (AnyhowError E) (Option α)).map (Option.map f) = atEnd buf := by
  unfold atEnd
  split <;> rfl

/-- The recursion of the model takes the passes of the loop. -/
theorem readFrom_pass (reader : Reader RecvStream) :
    readFrom postcard reader.recv.lost reader.recv.chunks reader.buf =
      match (readPass postcard RecvStream.read reader).returned with
      | some result => result.map (Option.map (readPass postcard RecvStream.read reader).after.leaves)
      | none =>
          let after := (readPass postcard RecvStream.read reader).after
          readFrom postcard after.recv.lost after.recv.chunks after.buf := by
  obtain ⟨buf, ⟨chunks, lost⟩⟩ := reader
  cases chunks with
  | nil =>
      unfold readPass readFrom
      rcases decodeFrame postcard buf with (_ | _ | _) | ⟨_, _⟩
      · rfl
      · cases lost with
        | some error => rfl
        | none => exact (map_atEnd _ buf).symm
      · rfl
      · rfl
  | cons chunk chunks =>
      simp only [readFrom, readPass]
      rcases decodeFrame postcard buf with (_ | _ | _) | ⟨_, _⟩
      · rfl
      · by_cases empty : chunk = []
        · simp only [RecvStream.read, empty, if_true]
          exact (map_atEnd _ buf).symm
        · simp only [RecvStream.read, empty, if_false]
      · rfl
      · rfl

variable {postcard} in
theorem ReadCall.readMessage {reader after : Reader RecvStream}
    {result : Except (AnyhowError E) (Option T)}
    (call : ReadCall postcard RecvStream.read reader result after) :
    Conn.readMessage postcard reader.recv reader.buf = result.map (Option.map after.leaves) ∧
      Host.readMessage postcard reader.recv reader.buf = result.map (Option.map after.leaves) := by
  have read : readFrom postcard reader.recv.lost reader.recv.chunks reader.buf =
      result.map (Option.map after.leaves) := by
    induction call with
    | returned last =>
        rw [readFrom_pass, last]
    | again goesOn _ ih =>
        rw [readFrom_pass, goesOn]
        exact ih
  exact ⟨read, read⟩

theorem link_reached {W : Type} {postcard : Postcard (StructureMessage W) E}
    {debug : StructureMessage W → Str} {endpoint : Endpoint} {n : Nat} {addr : SocketAddr}
    {resumeSessionId : Option Str} {link : Link}
    (connected : connect postcard debug endpoint n addr resumeSessionId = .ok link) :
    ∃ stream count, endpoint n addr = .opened stream ∧
      passes postcard RecvStream.read count ⟨[], stream.recv⟩ = ⟨link.buf, link.recv⟩ := by
  obtain ⟨_, stream, dialled, msg, _, read⟩ := connect_eq_ok connected
  obtain ⟨result, after, call⟩ := readCall_of_runsOut postcard ⟨[], stream.recv⟩
    (runsOut_recvStream stream.recv)
  have returned := read.symm.trans call.readMessage.1
  obtain ⟨count, same⟩ := call.passes
  refine ⟨stream, count, dialled, same.symm.trans ?_⟩
  cases result with
  | error e => cases returned
  | ok msg? =>
      cases msg? with
      | none => cases returned
      | some other =>
          have left : (msg, link.buf, link.recv) = after.leaves other :=
            Option.some.inj (Except.ok.inj returned)
          rw [Reader.leaves, Prod.mk.injEq, Prod.mk.injEq] at left
          rw [left.2.1, left.2.2]

/-- The reader task, too, begins within the bound and keeps it. -/
theorem link_progresses {W : Type} {postcard : Postcard (StructureMessage W) E}
    {debug : StructureMessage W → Str} {endpoint : Endpoint} {n : Nat} {addr : SocketAddr}
    {resumeSessionId : Option Str} {link : Link}
    (sizes : ∀ stream, endpoint n addr = .opened stream →
      ∀ chunk ∈ stream.recv.chunks, chunk.length ≤ readSize)
    (connected : connect postcard debug endpoint n addr resumeSessionId = .ok link) (count : Nat) :
    Progresses postcard RecvStream.read
      (passes postcard RecvStream.read count ⟨link.buf, link.recv⟩) := by
  obtain ⟨stream, earlier, opened, reached⟩ := link_reached connected
  have within := passes_bounded postcard ⟨[], stream.recv⟩
    (fills_recvStream (sizes stream opened)) (Nat.zero_le _) (count + earlier)
  rw [passes_add, reached] at within
  exact progresses_of_bounded postcard within

/-! ## Whatever the peer sends -/

/-- In any number of calls on one buffer, over any stream and however it is cut into
reads, the buffer stays within a frame and a read and every pass gets on; and where the
stream runs out every call returns. -/
theorem receive_progresses (transport : Transport S) (recv : S) (fills : Fills transport recv) :
    (∀ count, Progresses postcard transport (passes postcard transport count ⟨[], recv⟩)) ∧
      (RunsOut transport recv → ∀ count, ∃ result after,
        ReadCall postcard transport (passes postcard transport count ⟨[], recv⟩) result after) := by
  constructor
  · intro count
    exact progresses_of_bounded postcard
      (passes_bounded postcard ⟨[], recv⟩ fills (Nat.zero_le _) count)
  · intro runsOut count
    obtain ⟨reads, left⟩ := passes_reads postcard transport ⟨[], recv⟩ count
    refine readCall_of_runsOut postcard _ ?_
    rw [left]
    exact runsOut.rest reads

theorem sampleChunks_progress :
    (∀ count, Progresses (StructureMessage.postcard Library.Postcard.Format.f32) RecvStream.read
        (passes (StructureMessage.postcard Library.Postcard.Format.f32) RecvStream.read count
          ⟨[], ⟨sampleChunks, none⟩⟩)) ∧
      ∀ count, ∃ result after,
        ReadCall (StructureMessage.postcard Library.Postcard.Format.f32) RecvStream.read
          (passes (StructureMessage.postcard Library.Postcard.Format.f32) RecvStream.read count
            ⟨[], ⟨sampleChunks, none⟩⟩) result after := by
  have fills : Fills RecvStream.read ⟨sampleChunks, none⟩ :=
    fills_recvStream sampleChunks_division.sizes
  obtain ⟨progresses, returns⟩ := receive_progresses
    (StructureMessage.postcard Library.Postcard.Format.f32) RecvStream.read ⟨sampleChunks, none⟩ fills
  exact ⟨progresses, returns (runsOut_recvStream _)⟩

end Simulboot
