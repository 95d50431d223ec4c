import Simulboot.Channel
import Simulboot.Library.Bounded
import Simulboot.Library.Lane

/-!
# One link and its host

A compositor and a host on the two directions of the structure stream: the calls
on a link, the tasks behind it and the loop that serves the connection, taking
steps in any order. Reads and writes move any number of bytes at a time. The
histories record what the steps did, and no step depends on them.
-/

set_option autoImplicit false

namespace Simulboot

open Library

/-! ## States -/

/-- What is asked of a link: its methods, or a message put on its control
channel directly. -/
inductive Request (F : Type) where
  | input (event : InputEvent F)
  | suspend
  | post (msg : StructureMessage F)
  deriving DecidableEq

/-- A caller of the link. One that awaits an acknowledgement holds the number of
its message on the control channel. -/
inductive Call (F : Type) where
  | idle
  | sending (request : Request F)
  | awaitingAck (ticket : Nat)
  deriving DecidableEq

inductive WriterTask (F : Type) where
  | receiving
  | writing (msg : StructureMessage F)
  | ended
  deriving DecidableEq

inductive Task where
  | running
  | ended
  deriving DecidableEq

/-- `connect`, and the writer and the reader that it leaves behind. -/
inductive ClientTask (F : Type) where
  | connecting
  | nudging (announce : SurfaceAnnounce)
  | connected (announce : SurfaceAnnounce) (writer : WriterTask F) (reader : Task)
  | failed
  deriving DecidableEq

/-- `serve_connection`. -/
inductive HostTask (F : Type) where
  | starting
  | writing (request : Option (StructureMessage F)) (msg : StructureMessage F)
  | reading
  /-- An event waits for room in the input channel. -/
  | handing (event : InputEvent F)
  | ended
  deriving DecidableEq

/-- What happened so far; callers are named by `C`. -/
structure History (C F : Type) where
  /-- The events passed to `send_input`, in the order of the calls. -/
  passed : List (C × InputEvent F)
  /-- Those that the control channel took, in its order. -/
  accepted : List (C × InputEvent F)
  /-- Everything that the control channel took. -/
  enqueued : List (StructureMessage F)
  /-- The messages that the host is done with. -/
  processed : List (StructureMessage F)
  sent : List (StructureMessage F)
  /-- The messages that the client read. -/
  received : List (StructureMessage F)
  handed : List (InputEvent F)
  hostIgnored : List (StructureMessage F)
  clientIgnored : List (StructureMessage F)

structure Connection (C F : Type) where
  client : ClientTask F
  calls : C → Call F
  control : Bounded 64 (StructureMessage F)
  suspendAck : Bounded 1 Unit
  /-- From the client to the host. -/
  up : Lane
  /-- From the host to the client. -/
  down : Lane
  host : HostTask F
  input : Bounded 64 (InputEvent F)
  backend : Task
  history : History C F

def History.empty {C F : Type} : History C F :=
  ⟨[], [], [], [], [], [], [], [], []⟩

def Connection.initial {C F : Type} : Connection C F :=
  { client := .connecting, calls := fun _ => .idle, control := .empty, suspendAck := .empty
    up := .empty, down := .empty, host := .starting, input := .empty, backend := .running
    history := .empty }

/-! ## Actions -/

/-- The steps of all tasks; reads and writes come with a number of bytes. -/
inductive Action (C F : Type) where
  | hostAnnounces
  | hostWrites (n : Nat)
  | hostWriteFails
  | hostReads (n : Nat)
  | hostTakes
  | hostStopsReading
  | hostHands
  | hostHandFails
  | backendTakes
  | backendEnds
  | clientReads (n : Nat)
  | clientTakes
  | clientStopsReading
  | clientWrites (n : Nat)
  | clientWriteFails
  | writerTakes
  | calls (c : C) (request : Request F)
  | enqueues (c : C)
  | refused (c : C)
  | acked (c : C)
  | unacked (c : C)
  deriving DecidableEq

variable {C F E : Type}

def Request.message (announce : SurfaceAnnounce) : Request F → StructureMessage F
  | .input event => .inputEvent announce.id event
  | .suspend => .suspend
  | .post msg => msg

def Request.event? : Request F → Option (InputEvent F)
  | .input event => some event
  | .suspend | .post _ => none

namespace Connection

section

variable (postcard : Postcard (StructureMessage F) E)

def incomplete (buf : Bytes) : Bool :=
  match decodeFrame postcard buf with
  | .error (.incomplete _ _) => true
  | .ok _ | .error (.postcard _) | .error (.tooLarge _ _) => false

/-- Whether there is no message at the front of a buffer: `read_message` then
returns without one where the stream ends or breaks, or the frame is refused. -/
def undecodable (buf : Bytes) : Bool :=
  match decodeFrame postcard buf with
  | .ok _ => false
  | .error _ => true

abbrev Readable (lane : Lane) (n : Nat) : Prop :=
  0 < n ∧ n ≤ readSize ∧ n ≤ lane.wire.length

abbrev Writable (lane : Lane) (n : Nat) : Prop :=
  0 < n ∧ n ≤ lane.unsent.length

/-! ### The host -/

variable (announce : SurfaceAnnounce)

def hostAnnounces (s : Connection C F) : Except Disabled (Connection C F) :=
  match s.host with
  | .starting =>
      match encodeFrame postcard (.announce announce) with
      | .ok frame =>
          .ok { s with host := .writing none (.announce announce), down := s.down.start frame }
      | .error _ => .ok { s with host := .ended }
  | _ => .error .disabled

/-- A write of `send_message`; the last one lets the host go on. -/
def hostWrites (n : Nat) (s : Connection C F) : Except Disabled (Connection C F) :=
  match s.host with
  | .writing request msg =>
      onlyIf (Writable s.down n)
        (if n = s.down.unsent.length then
          { s with
            host := .reading, down := s.down.push n
            history.sent := s.history.sent ++ [msg]
            history.processed := s.history.processed ++ request.toList }
        else { s with down := s.down.push n })
  | _ => .error .disabled

def hostWriteFails (s : Connection C F) : Except Disabled (Connection C F) :=
  match s.host with
  | .writing _ _ => .ok { s with host := .ended }
  | _ => .error .disabled

def hostReads (n : Nat) (s : Connection C F) : Except Disabled (Connection C F) :=
  match s.host with
  | .reading =>
      onlyIf (incomplete postcard s.up.buf ∧ Readable s.up n) { s with up := s.up.pull n }
  | _ => .error .disabled

def process (msg : StructureMessage F) (s : Connection C F) : Connection C F :=
  { s with history.processed := s.history.processed ++ [msg] }

def answer (request reply : StructureMessage F) (s : Connection C F) : Connection C F :=
  match encodeFrame postcard reply with
  | .ok frame => { s with host := .writing (some request) reply, down := s.down.start frame }
  | .error _ => { s with host := .ended }

def serve (msg : StructureMessage F) (s : Connection C F) : Connection C F :=
  match msg with
  | .inputEvent sid event =>
      if sid = announce.id then { s with host := .handing event } else s.process msg
  | .resize _ _ _ => s.process msg
  | .suspend => s.answer postcard msg .suspendAck
  | .reconnect _ => s.answer postcard msg (.reconnectOk announce)
  | .disconnect => { s.process msg with host := .ended }
  | other =>
      { s.process other with history.hostIgnored := s.history.hostIgnored ++ [other] }

def hostTakes (s : Connection C F) : Except Disabled (Connection C F) :=
  match s.host, decodeFrame postcard s.up.buf with
  | .reading, .ok (msg, consumed) =>
      .ok ({ s with up := s.up.consume consumed }.serve postcard announce msg)
  | _, _ => .error .disabled

/-- The loop ends with the stream or with an error; a failure to start the
capture behind the announce ends it as well. -/
def hostStopsReading (s : Connection C F) : Except Disabled (Connection C F) :=
  match s.host with
  | .reading => onlyIf (undecodable postcard s.up.buf) { s with host := .ended }
  | _ => .error .disabled

def hostHands (s : Connection C F) : Except Disabled (Connection C F) :=
  match s.host, s.backend with
  | .handing event, .running =>
      match s.input.trySend event with
      | some input =>
          .ok { s with
            host := .reading, input
            history.handed := s.history.handed ++ [event]
            history.processed := s.history.processed ++ [.inputEvent announce.id event] }
      | none => .error .disabled
  | _, _ => .error .disabled

def hostHandFails (s : Connection C F) : Except Disabled (Connection C F) :=
  match s.host, s.backend with
  | .handing _, .ended => .ok { s with host := .ended }
  | _, _ => .error .disabled

def backendTakes (s : Connection C F) : Except Disabled (Connection C F) :=
  match s.backend, s.input.tryRecv with
  | .running, some (_, input) => .ok { s with input }
  | _, _ => .error .disabled

def backendEnds (s : Connection C F) : Except Disabled (Connection C F) :=
  .ok { s with backend := .ended }

/-! ### The client -/

def clientReading : ClientTask F → Bool
  | .connecting | .connected _ _ .running => true
  | .nudging _ | .connected _ _ .ended | .failed => false

def clientReads (n : Nat) (s : Connection C F) : Except Disabled (Connection C F) :=
  onlyIf (clientReading s.client ∧ incomplete postcard s.down.buf ∧ Readable s.down n)
    { s with down := s.down.pull n }

/-- `connect` behind the announce: the Reconnect, where a session is resumed. -/
def nudge (resume : Option Str) (announce : SurfaceAnnounce) (s : Connection C F) :
    Connection C F :=
  match resume with
  | none => { s with client := .connected announce .receiving .running }
  | some sessionId =>
      match encodeFrame postcard (.reconnect sessionId) with
      | .ok frame => { s with client := .nudging announce, up := s.up.start frame }
      | .error _ => { s with client := .failed }

def announced (resume : Option Str) (msg : StructureMessage F) (s : Connection C F) :
    Connection C F :=
  match msg with
  | .announce announce => s.nudge postcard resume announce
  | .reconnectOk announce => s.nudge postcard resume announce
  | _ => { s with client := .failed }

def absorb (msg : StructureMessage F) (s : Connection C F) : Connection C F :=
  match msg with
  | .suspendAck => { s with suspendAck := (s.suspendAck.trySend ()).getD s.suspendAck }
  | .reconnectOk _ => s
  | .reconnectFail _ => s
  | other => { s with history.clientIgnored := s.history.clientIgnored ++ [other] }

def clientTakes (resume : Option Str) (s : Connection C F) : Except Disabled (Connection C F) :=
  match decodeFrame postcard s.down.buf with
  | .ok (msg, consumed) =>
      let read :=
        { s with
          down := s.down.consume consumed
          history.received := s.history.received ++ [msg] }
      match s.client with
      | .connecting => .ok (read.announced postcard resume msg)
      | .connected _ _ .running => .ok (read.absorb msg)
      | _ => .error .disabled
  | .error _ => .error .disabled

def clientStopsReading (s : Connection C F) : Except Disabled (Connection C F) :=
  match s.client with
  | .connecting => onlyIf (undecodable postcard s.down.buf) { s with client := .failed }
  | .connected announce writer .running =>
      onlyIf (undecodable postcard s.down.buf)
        { s with client := .connected announce writer .ended }
  | _ => .error .disabled

def wrote : StructureMessage F → WriterTask F
  | .disconnect => .ended
  | _ => .receiving

def clientWrites (n : Nat) (s : Connection C F) : Except Disabled (Connection C F) :=
  match s.client with
  | .nudging announce =>
      onlyIf (Writable s.up n)
        (if n = s.up.unsent.length then
          { s with client := .connected announce .receiving .running, up := s.up.push n }
        else { s with up := s.up.push n })
  | .connected announce (.writing msg) reader =>
      onlyIf (Writable s.up n)
        (if n = s.up.unsent.length then
          { s with client := .connected announce (wrote msg) reader, up := s.up.push n }
        else { s with up := s.up.push n })
  | _ => .error .disabled

def clientWriteFails (s : Connection C F) : Except Disabled (Connection C F) :=
  match s.client with
  | .nudging _ => .ok { s with client := .failed }
  | .connected announce (.writing _) reader =>
      .ok { s with client := .connected announce .ended reader }
  | _ => .error .disabled

/-- The writer takes a message; one that cannot be encoded is left out. -/
def writerTakes (s : Connection C F) : Except Disabled (Connection C F) :=
  match s.client, s.control.tryRecv with
  | .connected announce .receiving reader, some (msg, control) =>
      match encodeFrame postcard msg with
      | .ok frame =>
          .ok { s with
            client := .connected announce (.writing msg) reader, control, up := s.up.start frame }
      | .error _ => .ok { s with control }
  | _, _ => .error .disabled

/-! ### The calls -/

variable [DecidableEq C]

def setCall (c : C) (call : Call F) (s : Connection C F) : Connection C F :=
  { s with calls := Function.update s.calls c call }

def calling (c : C) (request : Request F) (s : Connection C F) : Except Disabled (Connection C F) :=
  match s.client, s.calls c with
  | .connected _ _ _, .idle =>
      .ok { s.setCall c (.sending request) with
        history.passed := s.history.passed ++ (request.event?.map (c, ·)).toList }
  | _, _ => .error .disabled

def openLink? : ClientTask F → Option SurfaceAnnounce
  | .connected announce .receiving _ | .connected announce (.writing _) _ => some announce
  | _ => none

/-- `suspend` goes on to wait for the acknowledgement of the message, the other
calls return. -/
def sentOn (ticket : Nat) : Request F → Call F
  | .suspend => .awaitingAck ticket
  | .input _ | .post _ => .idle

/-- The control channel takes the message of a call. -/
def enqueues (c : C) (s : Connection C F) : Except Disabled (Connection C F) :=
  match openLink? s.client, s.calls c with
  | some announce, .sending request =>
      match s.control.trySend (request.message announce) with
      | some control =>
          .ok { s.setCall c (sentOn (s.history.enqueued.length + 1) request) with
            control
            history.accepted := s.history.accepted ++ (request.event?.map (c, ·)).toList
            history.enqueued := s.history.enqueued ++ [request.message announce] }
      | none => .error .disabled
  | _, _ => .error .disabled

def refused (c : C) (s : Connection C F) : Except Disabled (Connection C F) :=
  match s.client, s.calls c with
  | .connected _ .ended _, .sending _ => .ok (s.setCall c .idle)
  | _, _ => .error .disabled

def acked (c : C) (s : Connection C F) : Except Disabled (Connection C F) :=
  match s.calls c, s.suspendAck.tryRecv with
  | .awaitingAck _, some ((), suspendAck) => .ok { s.setCall c .idle with suspendAck }
  | _, _ => .error .disabled

/-- `suspend` returns false: its time is over, or the reader has ended. -/
def unacked (c : C) (s : Connection C F) : Except Disabled (Connection C F) :=
  match s.calls c with
  | .awaitingAck _ => .ok (s.setCall c .idle)
  | _ => .error .disabled

/-! ### Runs -/

/-- One step of a host that announces `announce` and of a client that resumes
`resume`, if any session. -/
def step (resume : Option Str) (s : Connection C F) :
    Action C F → Except Disabled (Connection C F)
  | .hostAnnounces => s.hostAnnounces postcard announce
  | .hostWrites n => s.hostWrites n
  | .hostWriteFails => s.hostWriteFails
  | .hostReads n => s.hostReads postcard n
  | .hostTakes => s.hostTakes postcard announce
  | .hostStopsReading => s.hostStopsReading postcard
  | .hostHands => s.hostHands announce
  | .hostHandFails => s.hostHandFails
  | .backendTakes => s.backendTakes
  | .backendEnds => s.backendEnds
  | .clientReads n => s.clientReads postcard n
  | .clientTakes => s.clientTakes postcard resume
  | .clientStopsReading => s.clientStopsReading postcard
  | .clientWrites n => s.clientWrites n
  | .clientWriteFails => s.clientWriteFails
  | .writerTakes => s.writerTakes postcard
  | .calls c request => s.calling c request
  | .enqueues c => s.enqueues c
  | .refused c => s.refused c
  | .acked c => s.acked c
  | .unacked c => s.unacked c

def run (resume : Option Str) (actions : List (Action C F)) :
    Except Disabled (Connection C F) :=
  actions.foldlM (step postcard announce resume) .initial

end

end Connection

end Simulboot
