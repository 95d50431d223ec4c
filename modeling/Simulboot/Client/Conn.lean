import Simulboot.Channel
import Simulboot.Library.Run
import Simulboot.Library.SocketAddr
import Simulboot.Wire.Format

/-!
# Connections to hosts

The compositor dials a host, reads the announce from the structure stream, and
leaves the stream with what is already buffered of it to a reader task.
-/

set_option autoImplicit false

namespace Simulboot

open Library Library.Framing

structure BiStream where
  recv : RecvStream
  writeAll : Bytes → Except Str Unit

inductive Dialled where
  | notStarted (error : Str)
  | refused (error : Str)
  | noStream (error : Str)
  | opened (stream : BiStream)

/-- What comes of each dial, counted from the first: a host may answer otherwise
when it is dialled again. -/
abbrev Endpoint := Nat → SocketAddr → Dialled

/-- A live connection to one host. The reader task goes on with the buffer and
the stream that the announce was read from. -/
structure Link where
  announce : SurfaceAnnounce
  hostAddr : SocketAddr
  buf : Bytes
  recv : RecvStream

variable {W E : Type}

def dial (endpoint : Endpoint) (n : Nat) (addr : SocketAddr) : Except (AnyhowError E) BiStream :=
  match endpoint n addr with
  | .notStarted error => .error (.context [.text "starting QUIC connection".toList] (.std error))
  | .refused error =>
      .error (.context [.text ("connecting to host ".toList ++ addr.display)] (.std error))
  | .noStream error => .error (.context [.text "accepting structure stream".toList] (.std error))
  | .opened stream => .ok stream

variable (postcard : Postcard (StructureMessage W) E) (debug : StructureMessage W → Str)

/-- The first message must be an announce, of a new or of a reconnected host. -/
def readAnnounce (recv : RecvStream) :
    Except (AnyhowError E) (SurfaceAnnounce × Bytes × RecvStream) := do
  match ← Conn.readMessage postcard recv [] with
  | some (.announce a, rest) => .ok (a, rest)
  | some (.reconnectOk a, rest) => .ok (a, rest)
  | some (other, _) =>
      .error (.message [.text ("expected Announce from host, got ".toList ++ debug other)])
  | none =>
      .error (.message [.text "host closed structure stream before announcing".toList])

/-- Nudge the host to reconnect its surface into the session that is resumed. -/
def sendReconnect (stream : BiStream) : Option Str → Except (AnyhowError E) Unit
  | none => .ok ()
  | some sessionId => do
      let frame ← (encodeFrame postcard (.reconnect sessionId)).mapError .wire
      withContext [.text "sending Reconnect".toList] ((stream.writeAll frame).mapError .std)

/-- Dial a host and bring up a link; `resumeSessionId` is the session that is
being resumed, if any. -/
def connect (endpoint : Endpoint) (n : Nat) (addr : SocketAddr) (resumeSessionId : Option Str) :
    Except (AnyhowError E) Link := do
  let stream ← dial endpoint n addr
  let (announce, buf, recv) ← readAnnounce postcard debug stream.recv
  sendReconnect postcard stream resumeSessionId
  return { announce, hostAddr := addr, buf, recv }

/-! ## What a link came from -/

variable {postcard debug}

theorem dial_eq_ok {endpoint : Endpoint} {n : Nat} {addr : SocketAddr} {stream : BiStream} :
    dial (E := E) endpoint n addr = .ok stream ↔ endpoint n addr = .opened stream := by
  unfold dial
  cases endpoint n addr <;> simp

theorem readAnnounce_eq_ok {recv : RecvStream} {announce : SurfaceAnnounce}
    {rest : Bytes × RecvStream} :
    readAnnounce postcard debug recv = .ok (announce, rest) ↔
      Conn.readMessage postcard recv [] = .ok (some (.announce announce, rest)) ∨
        Conn.readMessage postcard recv [] = .ok (some (.reconnectOk announce, rest)) := by
  unfold readAnnounce
  rcases Conn.readMessage postcard recv [] with e | _ | ⟨msg, other⟩
  · simp [bind, Except.bind]
  · simp [bind, Except.bind]
  · cases msg <;> simp [bind, Except.bind]

/-- A link records whom it dialled, and behind the message that announced it
the stream goes to the reader task. -/
theorem connect_eq_ok {endpoint : Endpoint} {n : Nat} {addr : SocketAddr}
    {resumeSessionId : Option Str} {link : Link}
    (connected : connect postcard debug endpoint n addr resumeSessionId = .ok link) :
    link.hostAddr = addr ∧ ∃ stream, endpoint n addr = .opened stream ∧
      ∃ msg, (msg = .announce link.announce ∨ msg = .reconnectOk link.announce) ∧
        Conn.readMessage postcard stream.recv [] = .ok (some (msg, link.buf, link.recv)) := by
  obtain ⟨stream, dialled, connected⟩ := bind_eq_ok connected
  obtain ⟨⟨announce, buf, recv⟩, announced, connected⟩ := bind_eq_ok connected
  obtain ⟨_, _, connected⟩ := bind_eq_ok connected
  cases connected
  refine ⟨rfl, stream, dial_eq_ok.mp dialled, ?_⟩
  rcases readAnnounce_eq_ok.mp announced with read | read
  · exact ⟨_, .inl rfl, read⟩
  · exact ⟨_, .inr rfl, read⟩

/-! ## Reassembly -/

/-- A division of a stream into what reads can return. -/
structure Division (bytes : Bytes) (chunks : List Bytes) : Prop where
  whole : chunks.flatten = bytes
  nonempty : ∀ chunk ∈ chunks, chunk ≠ []
  sizes : ∀ chunk ∈ chunks, chunk.length ≤ readSize

/-- However a transport divides a stream, both readers return the frames of the
whole, and the reader task those behind the announce. -/
theorem reassembly_ignores_division {bytes : Bytes} {chunks : List Bytes}
    (division : Division bytes chunks) (lost : Option Str) :
    (∀ msgs ending, Reads (Conn.readMessage postcard) ⟨chunks, lost⟩ [] msgs ending ↔
        decodeStream postcard lost bytes = (msgs, ending)) ∧
      (∀ msgs ending, Reads (Host.readMessage postcard) ⟨chunks, lost⟩ [] msgs ending ↔
        decodeStream postcard lost bytes = (msgs, ending)) ∧
      ∀ (endpoint : Endpoint) (n : Nat) (addr : SocketAddr) (resumeSessionId : Option Str)
        (writeAll : Bytes → Except Str Unit) (link : Link),
        endpoint n addr = .opened ⟨⟨chunks, lost⟩, writeAll⟩ →
        connect postcard debug endpoint n addr resumeSessionId = .ok link →
          ∃ first, (first = .announce link.announce ∨ first = .reconnectOk link.announce) ∧
            ∀ msgs ending, Reads (Conn.readMessage postcard) link.recv link.buf msgs ending ↔
              decodeStream postcard lost bytes = (first :: msgs, ending) := by
  have readers : ∀ read : RecvStream → Bytes →
        Except (AnyhowError E) (Option (StructureMessage W × Bytes × RecvStream)),
      (∀ recv buf, read recv buf = readFrom postcard recv.lost recv.chunks buf) →
      ∀ msgs ending, Reads read ⟨chunks, lost⟩ [] msgs ending ↔
        decodeStream postcard lost bytes = (msgs, ending) := by
    intro read reader msgs ending
    rw [reads_iff reader division.nonempty, List.nil_append, division.whole]
  refine ⟨readers _ fun _ _ => rfl, readers _ fun _ _ => rfl, ?_⟩
  intro endpoint n addr resumeSessionId writeAll link opened connected
  obtain ⟨_, stream, dialled, first, announces, read⟩ := connect_eq_ok connected
  rw [opened] at dialled
  cases dialled
  refine ⟨first, announces, fun msgs ending => ?_⟩
  rw [← readers (Conn.readMessage postcard) fun _ _ => rfl]
  constructor
  · exact .message read
  · intro whole
    cases whole with
    | message again later =>
        rw [read] at again
        cases again
        exact later

/-! ## An announce in three reads -/

def sampleAnnounce : SurfaceAnnounce :=
  { id := ⟨List.replicate 32 7, rfl⟩
    name := "macOS".toList, width := 960, height := 540, codec := .h265
    provenance :=
      { os := .macOS, machineName := "Aleth-MacBook".toList, tailscaleAddr := "127.0.0.1".toList
        captureDescription := "window:Safari".toList } }

def sampleFrame : Bytes :=
  toBeBytes 83 ++ (0 :: List.replicate 32 7 ++ (5 :: utf8 "macOS".toList) ++ [192, 7, 156, 4, 0, 0] ++
    (13 :: utf8 "Aleth-MacBook".toList) ++ (9 :: utf8 "127.0.0.1".toList) ++
    (13 :: utf8 "window:Safari".toList))

/-- The announce and an acknowledgement, cut inside the prefix and the body. -/
def sampleChunks : List Bytes :=
  [sampleFrame.take 2, (sampleFrame.drop 2).take 50,
    (sampleFrame.drop 2).drop 50 ++ (toBeBytes 1 ++ [1])]

private theorem sampleFrame_encoded :
    Encoded (StructureMessage.postcard Library.Postcard.Format.f32)
      [.announce sampleAnnounce, .suspendAck] [sampleFrame, toBeBytes 1 ++ [1]] :=
  .cons (by decide) (.cons rfl .nil)

private theorem sampleFrame_fits :
    Fits (StructureMessage.postcard Library.Postcard.Format.f32)
      [.announce sampleAnnounce, .suspendAck] := by
  intro msg member body serialised
  rcases List.mem_cons.mp member with rfl | member
  · have size : ((StructureMessage.postcard Library.Postcard.Format.f32).toStdvec
        (.announce sampleAnnounce)).map List.length = .ok 83 := by decide
    rw [serialised] at size
    have size : body.length = 83 := Except.ok.inj size
    rw [size]
    decide
  · obtain rfl := List.mem_singleton.mp member
    cases serialised
    decide

theorem sampleChunks_division :
    Division (sampleFrame ++ (toBeBytes 1 ++ [1])) sampleChunks where
  whole := by decide
  nonempty := by decide
  sizes := by decide

private theorem sampleStream :
    decodeStream (StructureMessage.postcard Library.Postcard.Format.f32) none
        (sampleFrame ++ (toBeBytes 1 ++ [1])) =
      ([.announce sampleAnnounce, .suspendAck], .ok ()) := by
  have stream := decodeStream_encoded (StructureMessage.postcard_inverts _) sampleFrame_encoded
    sampleFrame_fits
  rwa [List.flatten_cons, List.flatten_cons, List.flatten_nil, List.append_nil] at stream

def sampleHost : Dialled :=
  .opened ⟨⟨sampleChunks, none⟩, fun _ => .ok ()⟩

/-- A host that announces its surface first, and takes what is written to it, is connected. -/
theorem connect_of_reads {postcard : Postcard (StructureMessage W) E}
    {debug : StructureMessage W → Str} {endpoint : Endpoint} {n : Nat} {addr : SocketAddr}
    {announce : SurfaceAnnounce} {recv : RecvStream} {msgs : List (StructureMessage W)}
    {ending : Except (AnyhowError E) Unit} {resumeSessionId : Option Str}
    (whole : Reads (Conn.readMessage postcard) recv [] (.announce announce :: msgs) ending)
    (answers : endpoint n addr = .opened ⟨recv, fun _ => .ok ()⟩)
    (carries : ∀ sessionId ∈ resumeSessionId,
      ∃ body, postcard.toStdvec (.reconnect sessionId) = .ok body) :
    ∃ link, connect postcard debug endpoint n addr resumeSessionId = .ok link ∧
      link.announce = announce ∧ link.hostAddr = addr := by
  cases whole with
  | @message _ behind _ buf _ _ _ read _ =>
      refine ⟨{ announce, hostAddr := addr, buf, recv := behind }, ?_, rfl, rfl⟩
      have announced : readAnnounce postcard debug recv = .ok (announce, buf, behind) :=
        readAnnounce_eq_ok.mpr (.inl read)
      have nudged : sendReconnect postcard ⟨recv, fun _ => .ok ()⟩ resumeSessionId = .ok () := by
        cases resumeSessionId with
        | none => rfl
        | some sessionId =>
            obtain ⟨body, serialised⟩ := carries sessionId rfl
            simp only [sendReconnect, encodeFrame, serialised, Except.mapError, bind, Except.bind]
            rfl
      simp only [connect, dial_eq_ok.mpr answers, bind, Except.bind, announced, nudged]
      rfl

/-- Every dial of it brings up a link, with the acknowledgement left to read. -/
theorem sampleHost_connects (endpoint : Endpoint) {n : Nat} {addr : SocketAddr}
    (answers : endpoint n addr = sampleHost) (resumeSessionId : Option Str)
    (short : ∀ sessionId ∈ resumeSessionId, (utf8 sessionId).length < 2 ^ 64) :
    ∃ link, connect (StructureMessage.postcard Library.Postcard.Format.f32) (fun _ => []) endpoint n
        addr resumeSessionId = .ok link ∧ link.announce = sampleAnnounce ∧ link.hostAddr = addr := by
  have whole : Reads (Conn.readMessage (StructureMessage.postcard Library.Postcard.Format.f32))
      ⟨sampleChunks, none⟩ [] [.announce sampleAnnounce, .suspendAck] (.ok ()) :=
    (reads_iff (fun _ _ => rfl) sampleChunks_division.nonempty).mpr sampleStream
  refine connect_of_reads whole answers fun sessionId present => ?_
  obtain ⟨body, serialised, _⟩ := StructureMessage.write_reconnect Library.Postcard.Format.f32
    (short sessionId present)
  exact ⟨body, serialised⟩

theorem sampleChunks_reassembled :
    ∃ link, connect (StructureMessage.postcard Library.Postcard.Format.f32) (fun _ => [])
          (fun _ _ => sampleHost) 0 (.v4 ⟨127, 0, 0, 1⟩ 7001) none = .ok link ∧
      Reads (Conn.readMessage (StructureMessage.postcard Library.Postcard.Format.f32)) link.recv
        link.buf [.suspendAck] (.ok ()) := by
  obtain ⟨link, connected, announced, _⟩ := sampleHost_connects
    (fun _ _ => sampleHost) (n := 0) rfl none (by simp)
  refine ⟨link, connected, ?_⟩
  obtain ⟨first, announces, handedOver⟩ :=
    (reassembly_ignores_division sampleChunks_division none).2.2 _ _ _ _ _ _ rfl connected
  rw [announced] at announces
  rw [sampleStream] at handedOver
  rcases announces with rfl | rfl
  · exact (handedOver _ _).mpr rfl
  · cases (handedOver _ _).mp (reads_readAll (fun _ _ => rfl) link.recv.lost link.buf
      link.recv.chunks)

end Simulboot
