import Simulboot.Connection

/-!
# What the two ends know of each other

Where every message of a connection is, in any state that can be reached: the
requests between the control channel and the host, the replies between the host
and the reader task.
-/

set_option autoImplicit false

namespace Simulboot

open Library Library.Framing

variable {C F E : Type}

/-! ## Frames -/

/-- A body that is cut off anywhere is refused. -/
def Postcard.RefusesTruncated {T E : Type} (postcard : Postcard T E) : Prop :=
  ∀ msg body, postcard.toStdvec msg = .ok body →
    ∀ n < body.length, ∃ error, postcard.fromBytes (body.take n) = .error error

private theorem encodeFrame_ne_nil {postcard : Postcard (StructureMessage F) E} {msg : StructureMessage F}
    {frame : Bytes} (encoded : encodeFrame postcard msg = .ok frame) : frame ≠ [] := by
  obtain ⟨body, _, rfl⟩ := encodeFrame_eq_ok encoded
  exact List.cons_ne_nil _ _

/-- Even a frame whose length does not fit its prefix is not mistaken for another. -/
theorem frames_faithful {postcard : Postcard (StructureMessage F) E} (inverts : postcard.Inverts)
    (refuses : postcard.RefusesTruncated) :
    Lane.Faithful (encodeFrame postcard) (frameDecoder postcard) := by
  intro msg frame buf rest value consumed encoded front decoded
  obtain ⟨more, whole⟩ := front
  have decoded := verdict_eq_message.mp ((frameDecoder postcard).message_append more decoded)
  rw [whole] at decoded
  obtain ⟨body, serialised, rfl⟩ := encodeFrame_eq_ok encoded
  rw [List.append_assoc] at decoded
  obtain ⟨small, consumes⟩ := consumed_behind_prefix decoded
  unfold toBeBytes at decoded
  rw [List.cons_append, List.cons_append, List.cons_append, List.cons_append, List.nil_append,
    decodeFrame_prefixed] at decoded
  have enough : ¬ (body ++ rest).length < body.length % 2 ^ 32 := by
    have := Nat.mod_le body.length (2 ^ 32)
    rw [List.length_append]
    omega
  have within : body.length % 2 ^ 32 ≤ body.length := Nat.mod_le _ _
  simp only [fromBeBytes_toBeBytes, if_neg (Nat.not_lt.mpr small), if_neg enough,
    List.take_append_of_le_length within] at decoded
  by_cases short : body.length % 2 ^ 32 < body.length
  · obtain ⟨error, refused⟩ := refuses msg body serialised _ short
    rw [refused] at decoded
    cases decoded
  · have same : body.length % 2 ^ 32 = body.length := by omega
    rw [same, List.take_length, inverts msg body serialised] at decoded
    cases decoded
    rw [List.length_append, length_toBeBytes]
    exact ⟨rfl, rfl⟩

namespace Connection

/-! ## Histories -/

/-- The answer that the host owes to a message. -/
def replyTo (announce : SurfaceAnnounce) : StructureMessage F → Option (StructureMessage F)
  | .suspend => some .suspendAck
  | .reconnect _ => some (.reconnectOk announce)
  | _ => none

/-- The event of a message that is meant for the host's surface. -/
def eventFor (id : SurfaceId) : StructureMessage F → Option (InputEvent F)
  | .inputEvent sid event => if sid = id then some event else none
  | _ => none

/-- The messages that only hosts send. -/
def fromHost : StructureMessage F → Bool
  | .announce _ | .suspendAck | .reconnectOk _ | .reconnectFail _ => true
  | _ => false

/-- The messages that a host sends behind its announce. -/
def isReply : StructureMessage F → Bool
  | .suspendAck | .reconnectOk _ | .reconnectFail _ => true
  | _ => false

/-- The Reconnect that a client sends before anything else. -/
def nudges (resume : Option Str) : List (StructureMessage F) :=
  (resume.map .reconnect).toList

def encodes (postcard : Postcard (StructureMessage F) E) (msg : StructureMessage F) : Bool :=
  (encodeFrame postcard msg).isOk

structure InFlight (F : Type) where
  /-- Taken by the host, which is not done with it. -/
  inHand : List (StructureMessage F)
  up : List (StructureMessage F)
  writing : Option (StructureMessage F)
  /-- Left in the control channel, or lost with its receiver. -/
  waiting : List (StructureMessage F)
  /-- The Reconnect, once the client has encoded it. -/
  nudged : List (StructureMessage F)
  down : List (StructureMessage F)
  /-- What the host is writing. -/
  answering : Option (StructureMessage F)

section

variable (announce : SurfaceAnnounce)

/-- The host has announced itself and answered what it is done with. -/
def Answered (sent processed : List (StructureMessage F)) : Prop :=
  sent = .announce announce :: processed.filterMap (replyTo announce)

inductive HostHolds (sent processed inHand : List (StructureMessage F))
    (answering : Option (StructureMessage F)) : HostTask F → Prop where
  | starting : sent = [] → processed = [] → inHand = [] → answering = none →
      HostHolds sent processed inHand answering .starting
  | announcing : sent = [] → processed = [] → inHand = [] →
      answering = some (.announce announce) →
      HostHolds sent processed inHand answering (.writing none (.announce announce))
  | answering {request reply} : Answered announce sent processed → inHand = [request] →
      replyTo announce request = some reply → answering = some reply →
      HostHolds sent processed inHand answering (.writing (some request) reply)
  | reading : Answered announce sent processed → inHand = [] → answering = none →
      HostHolds sent processed inHand answering .reading
  | handing {event} : Answered announce sent processed →
      inHand = [.inputEvent announce.id event] → answering = none →
      HostHolds sent processed inHand answering (.handing event)
  | ended : Answered announce sent processed ∨ sent = [] ∧ processed = [] →
      HostHolds sent processed inHand answering .ended

variable (postcard : Postcard (StructureMessage F) E) (resume : Option Str)

inductive ClientHolds (received enqueued items : List (StructureMessage F))
    (writing : Option (StructureMessage F)) (waiting nudged : List (StructureMessage F)) :
    ClientTask F → Prop where
  | connecting : received = [] → enqueued = [] → items = [] → writing = none → waiting = [] →
      nudged = [] → ClientHolds received enqueued items writing waiting nudged .connecting
  | nudging {msg} : received ≠ [] → enqueued = [] → items = [] → nudges resume = [msg] →
      writing = some msg → waiting = [] → nudged = nudges resume →
      ClientHolds received enqueued items writing waiting nudged (.nudging announce)
  | receiving {reader} : received ≠ [] → writing = none →
      waiting = items.filter (encodes postcard) → nudged = nudges resume →
      ClientHolds received enqueued items writing waiting nudged
        (.connected announce .receiving reader)
  | writing {msg reader} : received ≠ [] → writing = some msg →
      waiting = items.filter (encodes postcard) → nudged = nudges resume →
      ClientHolds received enqueued items writing waiting nudged
        (.connected announce (.writing msg) reader)
  | writerEnded {reader} : received ≠ [] → nudged = nudges resume →
      ClientHolds received enqueued items writing waiting nudged
        (.connected announce .ended reader)
  | failed : enqueued = [] → nudged <+: nudges resume →
      ClientHolds received enqueued items writing waiting nudged .failed

/-- Every message is where the tasks take it to be. -/
structure Coherent (s : Connection C F) (g : InFlight F) : Prop where
  up : Lane.Carries (encodeFrame postcard) g.up g.writing s.up
  down : Lane.Carries (encodeFrame postcard) g.down g.answering s.down
  requests : s.history.processed ++ g.inHand ++ g.up ++ g.writing.toList ++ g.waiting =
    g.nudged ++ s.history.enqueued.filter (encodes postcard)
  replies : s.history.received ++ g.down = s.history.sent
  host : HostHolds announce s.history.sent s.history.processed g.inHand g.answering s.host
  client : ClientHolds announce postcard resume s.history.received s.history.enqueued
    s.control.items g.writing g.waiting g.nudged s.client
  handed : s.history.handed = s.history.processed.filterMap (eventFor announce.id)
  hostIgnored : s.history.hostIgnored = s.history.processed.filter fromHost
  clientIgnored : s.history.clientIgnored = s.history.received.tail.filter fun msg => !isReply msg

variable {announce postcard resume}

theorem coherent_initial :
    Coherent announce postcard resume (.initial : Connection C F)
      ⟨[], [], none, [], [], [], none⟩ where
  up := Lane.carries_empty
  down := Lane.carries_empty
  requests := rfl
  replies := rfl
  host := .starting rfl rfl rfl rfl
  client := .connecting rfl rfl rfl rfl rfl rfl
  handed := rfl
  hostIgnored := rfl
  clientIgnored := rfl

private theorem Answered.reply {sent processed : List (StructureMessage F)}
    {request reply : StructureMessage F} (answered : Answered announce sent processed)
    (owed : replyTo announce request = some reply) :
    Answered announce (sent ++ [reply]) (processed ++ [request]) := by
  unfold Answered at answered ⊢
  rw [answered, List.filterMap_append, List.cons_append, List.filterMap_cons_some owed]
  rfl

private theorem Answered.silent {sent processed : List (StructureMessage F)} {msg : StructureMessage F}
    (answered : Answered announce sent processed) (nothing : replyTo announce msg = none) :
    Answered announce sent (processed ++ [msg]) := by
  unfold Answered at answered ⊢
  rw [List.filterMap_append, List.filterMap_cons_none nothing, List.filterMap_nil, List.append_nil]
  exact answered

private theorem request_of_owed {request reply : StructureMessage F}
    (owed : replyTo announce request = some reply) :
    eventFor announce.id request = none ∧ fromHost request = false := by
  cases request <;> first | exact ⟨rfl, rfl⟩ | cases owed

/-! ## Steps of the host -/

variable {s s' : Connection C F} {g : InFlight F}

/-- Nothing is sent or done before the announce. -/
theorem Coherent.answered_or_silent (coherent : Coherent announce postcard resume s g) :
    Answered announce s.history.sent s.history.processed ∨
      s.history.sent = [] ∧ s.history.processed = [] := by
  have holds := coherent.host
  generalize s.host = task at holds
  cases holds with
  | starting unsent fresh => exact .inr ⟨unsent, fresh⟩
  | announcing unsent fresh => exact .inr ⟨unsent, fresh⟩
  | answering answered => exact .inl answered
  | reading answered => exact .inl answered
  | handing answered => exact .inl answered
  | ended either => exact either

private theorem Coherent.hostEnds (coherent : Coherent announce postcard resume s g) :
    Coherent announce postcard resume { s with host := .ended } g :=
  { coherent with host := .ended coherent.answered_or_silent }

private theorem Coherent.hostAnnounces (coherent : Coherent announce postcard resume s g)
    (stepped : s.hostAnnounces postcard announce = .ok s') :
    ∃ g', Coherent announce postcard resume s' g' := by
  unfold Connection.hostAnnounces at stepped
  split at stepped
  · rename_i starting
    have holds := coherent.host
    rw [starting] at holds
    cases holds with
    | starting unsent fresh nothing quiet =>
        split at stepped
        · rename_i frame encoded
          cases stepped
          have down := coherent.down
          rw [quiet] at down
          exact ⟨{ g with answering := some (.announce announce) },
            { coherent with
              down := down.start encoded (encodeFrame_ne_nil encoded)
              host := .announcing unsent fresh nothing rfl }⟩
        · cases stepped
          exact ⟨g, coherent.hostEnds⟩
  · cases stepped

private theorem Coherent.wrote {request : Option (StructureMessage F)} {msg : StructureMessage F} {n : Nat}
    (coherent : Coherent announce postcard resume s g) (writing : s.host = .writing request msg)
    (last : n = s.down.unsent.length) :
    ∃ g', Coherent announce postcard resume
      { s with
        host := .reading, down := s.down.push n
        history.sent := s.history.sent ++ [msg]
        history.processed := s.history.processed ++ request.toList } g' := by
  have holds := coherent.host
  rw [writing] at holds
  have down := coherent.down
  have replies : s.history.received ++ (g.down ++ [msg]) = s.history.sent ++ [msg] := by
    rw [← List.append_assoc, coherent.replies]
  cases holds with
  | announcing unsent fresh nothing current =>
      rw [current] at down
      refine ⟨{ g with down := g.down ++ [.announce announce], answering := none },
        { coherent with
          down := down.push_rest last
          requests := ?_, replies, host := .reading ?_ nothing rfl, handed := ?_
          hostIgnored := ?_ }⟩
      · simpa using coherent.requests
      · rw [unsent, fresh]
        rfl
      · simpa using coherent.handed
      · simpa using coherent.hostIgnored
  | @answering request msg answered inHand owed current =>
      rw [current] at down
      obtain ⟨noEvent, fromClient⟩ := request_of_owed owed
      refine ⟨{ g with inHand := [], down := g.down ++ [msg], answering := none },
        { coherent with
          down := down.push_rest last
          requests := ?_, replies, host := .reading (answered.reply owed) rfl rfl, handed := ?_
          hostIgnored := ?_ }⟩
      · simpa [inHand] using coherent.requests
      · simpa [noEvent] using coherent.handed
      · simpa [fromClient] using coherent.hostIgnored

private theorem Coherent.hostWrites {n : Nat} (coherent : Coherent announce postcard resume s g)
    (stepped : s.hostWrites n = .ok s') : ∃ g', Coherent announce postcard resume s' g' := by
  unfold Connection.hostWrites at stepped
  split at stepped
  · rename_i request msg writing
    obtain ⟨⟨_, fits⟩, stepped⟩ := onlyIf_eq_ok.mp stepped
    split at stepped
    · rename_i last
      cases stepped
      exact coherent.wrote writing last
    · rename_i more
      cases stepped
      have holds := coherent.host
      rw [writing] at holds
      have current : g.answering = some msg := by
        cases holds with
        | announcing _ _ _ current => exact current
        | answering _ _ _ current => exact current
      have down := coherent.down
      rw [current] at down
      have down := down.push_part (Nat.lt_of_le_of_ne fits more)
      rw [← current] at down
      exact ⟨g, { coherent with down }⟩
  · cases stepped

private theorem Coherent.hostWriteFails (coherent : Coherent announce postcard resume s g)
    (stepped : s.hostWriteFails = .ok s') : ∃ g', Coherent announce postcard resume s' g' := by
  unfold Connection.hostWriteFails at stepped
  split at stepped
  · cases stepped
    exact ⟨g, coherent.hostEnds⟩
  · cases stepped

private theorem Coherent.hostReads {n : Nat} (coherent : Coherent announce postcard resume s g)
    (stepped : s.hostReads postcard n = .ok s') : ∃ g', Coherent announce postcard resume s' g' := by
  unfold Connection.hostReads at stepped
  split at stepped
  · obtain ⟨_, rfl⟩ := onlyIf_eq_ok.mp stepped
    exact ⟨g, { coherent with up := coherent.up.pull n }⟩
  · cases stepped

private theorem Coherent.hostStopsReading (coherent : Coherent announce postcard resume s g)
    (stepped : s.hostStopsReading postcard = .ok s') :
    ∃ g', Coherent announce postcard resume s' g' := by
  unfold Connection.hostStopsReading at stepped
  split at stepped
  · obtain ⟨_, rfl⟩ := onlyIf_eq_ok.mp stepped
    exact ⟨g, coherent.hostEnds⟩
  · cases stepped

private theorem Coherent.process {msg : StructureMessage F} {handed : List (InputEvent F)}
    {hostIgnored : List (StructureMessage F)}
    (coherent : Coherent announce postcard resume s g)
    (answered : Answered announce s.history.sent s.history.processed)
    (inHand : g.inHand = [msg]) (idle : g.answering = none) (nothing : replyTo announce msg = none)
    (noted : handed = s.history.handed ++ (eventFor announce.id msg).toList)
    (ignored : hostIgnored = s.history.hostIgnored ++ [msg].filter fromHost) :
    Coherent announce postcard resume
      { s with
        host := .reading
        history.processed := s.history.processed ++ [msg]
        history.handed := handed
        history.hostIgnored := hostIgnored }
      { g with inHand := [] } := by
  refine { coherent with
    requests := ?_, host := .reading (answered.silent nothing) rfl idle, handed := ?_
    hostIgnored := ?_ }
  · simpa [inHand] using coherent.requests
  · rw [List.filterMap_append, ← coherent.handed]
    change handed = _
    rw [noted]
    cases event : eventFor announce.id msg with
    | none => rw [List.filterMap_cons_none event, List.filterMap_nil, Option.toList_none]
    | some _ => rw [List.filterMap_cons_some event, List.filterMap_nil, Option.toList_some]
  · rw [List.filter_append, ← coherent.hostIgnored]
    exact ignored

private theorem Coherent.answer {request reply : StructureMessage F}
    (coherent : Coherent announce postcard resume s g)
    (answered : Answered announce s.history.sent s.history.processed)
    (inHand : g.inHand = [request]) (idle : g.answering = none)
    (owed : replyTo announce request = some reply) :
    ∃ g', Coherent announce postcard resume (s.answer postcard request reply) g' := by
  unfold Connection.answer
  split
  · rename_i frame encoded
    have down := coherent.down
    rw [idle] at down
    exact ⟨{ g with answering := some reply },
      { coherent with
        down := down.start encoded (encodeFrame_ne_nil encoded)
        host := .answering answered inHand owed rfl }⟩
  · exact ⟨g, { coherent with host := .ended (.inl answered) }⟩

/-- The body of the host's loop, from the message in hand to its outcome. -/
theorem Coherent.serve {msg : StructureMessage F}
    (coherent : Coherent announce postcard resume { s with host := .ended } g)
    (answered : Answered announce s.history.sent s.history.processed)
    (inHand : g.inHand = [msg]) (idle : g.answering = none) (reading : s.host = .reading) :
    ∃ g', Coherent announce postcard resume (s.serve postcard announce msg) g' := by
  obtain ⟨client, calls, control, suspendAck, up, down, host, input, backend, history⟩ := s
  cases reading
  have kept := (List.append_nil history.handed).symm
  have heeded := (List.append_nil history.hostIgnored).symm
  cases msg with
  | announce _ => exact ⟨_, coherent.process answered inHand idle rfl kept rfl⟩
  | suspendAck => exact ⟨_, coherent.process answered inHand idle rfl kept rfl⟩
  | reconnectOk _ => exact ⟨_, coherent.process answered inHand idle rfl kept rfl⟩
  | reconnectFail _ => exact ⟨_, coherent.process answered inHand idle rfl kept rfl⟩
  | inputEvent sid event =>
      change ∃ g', Coherent announce postcard resume (if sid = announce.id then _ else _) g'
      split
      · rename_i own
        subst own
        exact ⟨g, { coherent with host := .handing answered inHand idle }⟩
      · rename_i foreign
        have none : eventFor announce.id (.inputEvent sid event) = Option.none := if_neg foreign
        refine ⟨_, coherent.process answered inHand idle rfl ?_ heeded⟩
        rw [none]
        exact kept
  | resize _ _ _ => exact ⟨_, coherent.process answered inHand idle rfl kept heeded⟩
  | suspend => exact coherent.answer answered inHand idle rfl
  | reconnect _ => exact coherent.answer answered inHand idle rfl
  | disconnect => exact ⟨_, (coherent.process answered inHand idle rfl kept heeded).hostEnds⟩

private theorem Coherent.hostTakes (faithful : Lane.Faithful (encodeFrame postcard) (frameDecoder postcard))
    (coherent : Coherent announce postcard resume s g)
    (stepped : s.hostTakes postcard announce = .ok s') :
    ∃ g', Coherent announce postcard resume s' g' := by
  unfold Connection.hostTakes at stepped
  split at stepped
  · rename_i msg consumed reading decoded
    cases stepped
    have holds := coherent.host
    rw [reading] at holds
    obtain ⟨later, queued, up⟩ := coherent.up.consume faithful (verdict_eq_message.mpr decoded)
    cases holds with
    | reading answered nothing idle =>
        have taken : Coherent announce postcard resume
            { s with host := .ended, up := s.up.consume consumed }
            { g with inHand := [msg], up := later } := by
          refine { coherent with up, requests := ?_, host := .ended (.inl answered) }
          simpa [nothing, queued] using coherent.requests
        exact Coherent.serve (s := { s with up := s.up.consume consumed }) taken answered rfl idle
          reading
  · cases stepped

private theorem Coherent.hostHands (coherent : Coherent announce postcard resume s g)
    (stepped : s.hostHands announce = .ok s') :
    ∃ g', Coherent announce postcard resume s' g' := by
  unfold Connection.hostHands at stepped
  split at stepped
  · rename_i event handing _
    have holds := coherent.host
    rw [handing] at holds
    split at stepped
    · rename_i input _
      cases stepped
      have given : eventFor announce.id (.inputEvent announce.id event) = some event := if_pos rfl
      have waiting : Coherent announce postcard resume { s with input } g := { coherent with }
      cases holds with
      | handing answered inHand idle =>
          refine ⟨_, waiting.process answered inHand idle rfl ?_ (List.append_nil _).symm⟩
          rw [given]
          rfl
    · cases stepped
  · cases stepped

private theorem Coherent.hostHandFails (coherent : Coherent announce postcard resume s g)
    (stepped : s.hostHandFails = .ok s') : ∃ g', Coherent announce postcard resume s' g' := by
  unfold Connection.hostHandFails at stepped
  split at stepped
  · cases stepped
    exact ⟨g, coherent.hostEnds⟩
  · cases stepped

private theorem Coherent.backendTakes (coherent : Coherent announce postcard resume s g)
    (stepped : s.backendTakes = .ok s') : ∃ g', Coherent announce postcard resume s' g' := by
  unfold Connection.backendTakes at stepped
  split at stepped
  · cases stepped
    exact ⟨g, { coherent with }⟩
  · cases stepped

/-! ## Steps of the client -/

private theorem Coherent.clientReads {n : Nat} (coherent : Coherent announce postcard resume s g)
    (stepped : s.clientReads postcard n = .ok s') :
    ∃ g', Coherent announce postcard resume s' g' := by
  obtain ⟨_, rfl⟩ := onlyIf_eq_ok.mp stepped
  exact ⟨g, { coherent with down := coherent.down.pull n }⟩

/-- What the client reads is the next message that the host has sent. -/
theorem Coherent.read (faithful : Lane.Faithful (encodeFrame postcard) (frameDecoder postcard))
    (coherent : Coherent announce postcard resume s g) {msg : StructureMessage F} {consumed : Nat}
    (decoded : decodeFrame postcard s.down.buf = .ok (msg, consumed)) :
    ∃ later, s.history.received ++ [msg] ++ later = s.history.sent ∧
      Lane.Carries (encodeFrame postcard) later g.answering (s.down.consume consumed) := by
  obtain ⟨later, queued, down⟩ := coherent.down.consume faithful (verdict_eq_message.mpr decoded)
  refine ⟨later, ?_, down⟩
  have replies := coherent.replies
  rw [queued] at replies
  rw [List.append_assoc]
  exact replies

private theorem Coherent.nudge (coherent : Coherent announce postcard resume s g)
    (connecting : s.client = .connecting) {received later : List (StructureMessage F)} {down : Lane}
    (read : received ++ later = s.history.sent) (fresh : received ≠ [])
    (first : received.tail = [])
    (carries : Lane.Carries (encodeFrame postcard) later g.answering down) :
    ∃ g', Coherent announce postcard resume
      ({ s with down, history.received := received }.nudge postcard resume announce) g' := by
  have holds := coherent.client
  rw [connecting] at holds
  have ignored : s.history.clientIgnored = received.tail.filter fun msg => !isReply msg := by
    cases holds with
    | connecting unread => rw [coherent.clientIgnored, unread, first, List.tail_nil]
  cases holds with
  | connecting unread unused empty idle nothing unnudged =>
      unfold Connection.nudge
      split
      · exact ⟨{ g with down := later },
          { coherent with
            down := carries, replies := read, clientIgnored := ignored
            client := .receiving fresh idle (by rw [nothing, empty]; rfl) unnudged }⟩
      · rename_i sessionId
        split
        · rename_i frame encoded
          have requests := coherent.requests
          rw [idle, nothing, unnudged, unused] at requests
          have up := coherent.up
          rw [idle] at up
          refine ⟨{ g with
              down := later, writing := some (.reconnect sessionId), nudged := [.reconnect sessionId] },
            { coherent with
              up := up.start encoded (encodeFrame_ne_nil encoded)
              down := carries, replies := read, clientIgnored := ignored, requests := ?_
              client := .nudging fresh unused empty rfl rfl nothing rfl }⟩
          have none : s.history.processed ++ g.inHand ++ g.up = [] := by simpa using requests
          change s.history.processed ++ g.inHand ++ g.up ++ [.reconnect sessionId] ++ g.waiting =
            [.reconnect sessionId] ++ s.history.enqueued.filter (encodes postcard)
          rw [none, nothing, unused]
          rfl
        · exact ⟨{ g with down := later },
            { coherent with
              down := carries, replies := read, clientIgnored := ignored
              client := .failed unused (by rw [unnudged]; exact List.nil_prefix) }⟩

private theorem Coherent.received {writer : WriterTask F} {linked : SurfaceAnnounce}
    (coherent : Coherent announce postcard resume s g)
    (connected : s.client = .connected linked writer .running) {msg : StructureMessage F}
    {later clientIgnored : List (StructureMessage F)} {down : Lane}
    (suspendAck : Bounded 1 Unit)
    (read : s.history.received ++ [msg] ++ later = s.history.sent)
    (carries : Lane.Carries (encodeFrame postcard) later g.answering down)
    (ignored : clientIgnored = s.history.clientIgnored ++ [msg].filter fun msg => !isReply msg) :
    ∃ g', Coherent announce postcard resume
      { s with
        down, suspendAck, history.received := s.history.received ++ [msg]
        history.clientIgnored := clientIgnored } g' := by
  have holds := coherent.client
  rw [connected] at holds
  have fresh : s.history.received ++ [msg] ≠ [] := by simp
  have announced : s.history.received ≠ [] := by
    cases holds with
    | receiving announced => exact announced
    | writing announced => exact announced
    | writerEnded announced => exact announced
  refine ⟨{ g with down := later },
    { coherent with down := carries, replies := read, clientIgnored := ?_, client := ?_ }⟩
  · change ClientHolds announce postcard resume (s.history.received ++ [msg]) _ _ _ _ _ s.client
    rw [connected]
    cases holds with
    | receiving _ idle waiting nudged => exact .receiving fresh idle waiting nudged
    | writing _ current waiting nudged => exact .writing fresh current waiting nudged
    | writerEnded _ nudged => exact .writerEnded fresh nudged
  · change clientIgnored = (s.history.received ++ [msg]).tail.filter _
    rw [List.tail_append_of_ne_nil announced, List.filter_append, ← coherent.clientIgnored, ignored]

private theorem Coherent.clientTakes
    (faithful : Lane.Faithful (encodeFrame postcard) (frameDecoder postcard))
    (coherent : Coherent announce postcard resume s g)
    (stepped : s.clientTakes postcard resume = .ok s') :
    ∃ g', Coherent announce postcard resume s' g' := by
  unfold Connection.clientTakes at stepped
  split at stepped
  · rename_i msg consumed decoded
    obtain ⟨later, read, down⟩ := coherent.read faithful decoded
    dsimp only at stepped
    split at stepped
    · rename_i connecting
      cases stepped
      have unread : s.history.received = [] := by
        have holds := coherent.client
        rw [connecting] at holds
        cases holds with
        | connecting unread => exact unread
      have first : msg :: later = s.history.sent := by
        rw [← read, unread]
        rfl
      cases coherent.answered_or_silent with
      | inr silent =>
          rw [silent.1] at first
          cases first
      | inl answered =>
          unfold Answered at answered
          rw [answered] at first
          obtain ⟨rfl, _⟩ := List.cons.inj first
          exact coherent.nudge connecting read (by simp) (by rw [unread]; rfl) down
    · rename_i connected
      cases stepped
      have kept := (List.append_nil s.history.clientIgnored).symm
      cases msg with
      | suspendAck => exact coherent.received connected _ read down kept
      | reconnectOk _ => exact coherent.received connected _ read down kept
      | reconnectFail _ => exact coherent.received connected _ read down kept
      | announce _ => exact coherent.received connected _ read down rfl
      | inputEvent _ _ => exact coherent.received connected _ read down rfl
      | resize _ _ _ => exact coherent.received connected _ read down rfl
      | suspend => exact coherent.received connected _ read down rfl
      | reconnect _ => exact coherent.received connected _ read down rfl
      | disconnect => exact coherent.received connected _ read down rfl
    · cases stepped
  · cases stepped

private theorem Coherent.clientFails (coherent : Coherent announce postcard resume s g)
    (waiting : s.client = .connecting ∨ ∃ linked, s.client = .nudging linked) :
    Coherent announce postcard resume { s with client := .failed } g := by
  have holds := coherent.client
  refine { coherent with client := ?_ }
  rcases waiting with connecting | ⟨linked, nudging⟩
  · rw [connecting] at holds
    cases holds with
    | connecting _ unused _ _ _ unnudged =>
        exact .failed unused (unnudged.symm ▸ List.nil_prefix)
  · rw [nudging] at holds
    cases holds with
    | nudging _ unused _ _ _ _ nudged => exact .failed unused (nudged.symm ▸ List.prefix_rfl)

private theorem Coherent.clientStopsReading (coherent : Coherent announce postcard resume s g)
    (stepped : s.clientStopsReading postcard = .ok s') :
    ∃ g', Coherent announce postcard resume s' g' := by
  unfold Connection.clientStopsReading at stepped
  split at stepped
  · rename_i connecting
    obtain ⟨_, rfl⟩ := onlyIf_eq_ok.mp stepped
    exact ⟨g, coherent.clientFails (.inl connecting)⟩
  · rename_i linked writer connected
    obtain ⟨_, rfl⟩ := onlyIf_eq_ok.mp stepped
    have holds := coherent.client
    rw [connected] at holds
    refine ⟨g, { coherent with client := ?_ }⟩
    cases holds with
    | receiving fresh idle waiting nudged => exact .receiving fresh idle waiting nudged
    | writing fresh current waiting nudged => exact .writing fresh current waiting nudged
    | writerEnded fresh nudged => exact .writerEnded fresh nudged
  · cases stepped

private theorem Coherent.clientWrote {msg : StructureMessage F} {n : Nat} {client : ClientTask F}
    (coherent : Coherent announce postcard resume s g) (current : g.writing = some msg)
    (last : n = s.up.unsent.length)
    (holds : ClientHolds announce postcard resume s.history.received s.history.enqueued
      s.control.items none g.waiting g.nudged client) :
    ∃ g', Coherent announce postcard resume { s with client, up := s.up.push n } g' := by
  have up := coherent.up
  rw [current] at up
  refine ⟨{ g with up := g.up ++ [msg], writing := none },
    { coherent with up := up.push_rest last, requests := ?_, client := holds }⟩
  simpa [current] using coherent.requests

private theorem Coherent.clientPushes {msg : StructureMessage F} {n : Nat}
    (coherent : Coherent announce postcard resume s g) (current : g.writing = some msg)
    (part : n < s.up.unsent.length) :
    Coherent announce postcard resume { s with up := s.up.push n } g := by
  have up := coherent.up
  rw [current] at up
  have up := up.push_part part
  rw [← current] at up
  exact { coherent with up }

private theorem Coherent.clientWrites {n : Nat} (coherent : Coherent announce postcard resume s g)
    (stepped : s.clientWrites n = .ok s') : ∃ g', Coherent announce postcard resume s' g' := by
  unfold Connection.clientWrites at stepped
  split at stepped
  · rename_i linked nudging
    obtain ⟨⟨_, fits⟩, stepped⟩ := onlyIf_eq_ok.mp stepped
    have holds := coherent.client
    rw [nudging] at holds
    cases holds with
    | nudging fresh unused empty _ current nothing nudged =>
        split at stepped
        · rename_i last
          cases stepped
          exact coherent.clientWrote current last
            (.receiving fresh rfl (by rw [nothing, empty]; rfl) nudged)
        · rename_i more
          cases stepped
          exact ⟨g, coherent.clientPushes current (Nat.lt_of_le_of_ne fits more)⟩
  · rename_i linked msg reader writing
    obtain ⟨⟨_, fits⟩, stepped⟩ := onlyIf_eq_ok.mp stepped
    have holds := coherent.client
    rw [writing] at holds
    cases holds with
    | writing fresh current waiting nudged =>
        split at stepped
        · rename_i last
          cases stepped
          refine coherent.clientWrote current last ?_
          cases msg with
          | disconnect => exact .writerEnded fresh nudged
          | announce _ => exact .receiving fresh rfl waiting nudged
          | suspendAck => exact .receiving fresh rfl waiting nudged
          | reconnectOk _ => exact .receiving fresh rfl waiting nudged
          | reconnectFail _ => exact .receiving fresh rfl waiting nudged
          | inputEvent _ _ => exact .receiving fresh rfl waiting nudged
          | resize _ _ _ => exact .receiving fresh rfl waiting nudged
          | suspend => exact .receiving fresh rfl waiting nudged
          | reconnect _ => exact .receiving fresh rfl waiting nudged
        · rename_i more
          cases stepped
          exact ⟨g, coherent.clientPushes current (Nat.lt_of_le_of_ne fits more)⟩
  · cases stepped

private theorem Coherent.clientWriteFails (coherent : Coherent announce postcard resume s g)
    (stepped : s.clientWriteFails = .ok s') : ∃ g', Coherent announce postcard resume s' g' := by
  unfold Connection.clientWriteFails at stepped
  split at stepped
  · rename_i linked nudging
    cases stepped
    exact ⟨g, coherent.clientFails (.inr ⟨linked, nudging⟩)⟩
  · rename_i writing
    cases stepped
    have holds := coherent.client
    rw [writing] at holds
    cases holds with
    | writing fresh _ _ nudged =>
        exact ⟨g, { coherent with client := .writerEnded fresh nudged }⟩
  · cases stepped

private theorem Coherent.writerTakes (coherent : Coherent announce postcard resume s g)
    (stepped : s.writerTakes postcard = .ok s') :
    ∃ g', Coherent announce postcard resume s' g' := by
  unfold Connection.writerTakes at stepped
  split at stepped
  · rename_i linked reader msg control receiving taken
    have items := Bounded.items_of_tryRecv taken
    have holds := coherent.client
    rw [receiving, items] at holds
    cases holds with
    | receiving fresh idle waiting nudged =>
        split at stepped
        · rename_i frame encoded
          cases stepped
          have written : encodes postcard msg = true := by
            unfold encodes
            rw [encoded]
            rfl
          rw [List.filter_cons_of_pos written] at waiting
          have up := coherent.up
          rw [idle] at up
          refine ⟨{ g with
              writing := some msg, waiting := control.items.filter (encodes postcard) },
            { coherent with
              up := up.start encoded (encodeFrame_ne_nil encoded), requests := ?_
              client := .writing fresh rfl rfl nudged }⟩
          simpa [idle, waiting] using coherent.requests
        · rename_i error refused
          cases stepped
          have skipped : ¬ encodes postcard msg = true := by
            unfold encodes
            rw [refused]
            exact Bool.false_ne_true
          rw [List.filter_cons_of_neg skipped] at waiting
          refine ⟨g, { coherent with client := ?_ }⟩
          change ClientHolds announce postcard resume _ _ control.items _ _ _ s.client
          rw [receiving]
          exact .receiving fresh idle waiting nudged
  · cases stepped

/-! ## Steps of the calls -/

variable [DecidableEq C]

theorem openLink?_eq_some {client : ClientTask F} {linked : SurfaceAnnounce}
    (opened : openLink? client = some linked) :
    (∃ reader, client = .connected linked .receiving reader) ∨
      ∃ msg reader, client = .connected linked (.writing msg) reader := by
  unfold openLink? at opened
  split at opened
  · cases opened
    exact .inl ⟨_, rfl⟩
  · cases opened
    exact .inr ⟨_, _, rfl⟩
  · cases opened

private theorem Coherent.calling {c : C} {request : Request F}
    (coherent : Coherent announce postcard resume s g)
    (stepped : s.calling c request = .ok s') : ∃ g', Coherent announce postcard resume s' g' := by
  unfold Connection.calling at stepped
  split at stepped
  · cases stepped
    exact ⟨g, { coherent with }⟩
  · cases stepped

private theorem Coherent.enqueues {c : C} (coherent : Coherent announce postcard resume s g)
    (stepped : s.enqueues c = .ok s') : ∃ g', Coherent announce postcard resume s' g' := by
  unfold Connection.enqueues at stepped
  split at stepped
  · rename_i linked request opened sending
    split at stepped
    · rename_i control sent
      cases stepped
      have items := Bounded.items_of_trySend sent
      refine ⟨{ g with
          waiting := g.waiting ++ [request.message linked].filter (encodes postcard) },
        { coherent with requests := ?_, client := ?_ }⟩
      · change s.history.processed ++ g.inHand ++ g.up ++ g.writing.toList ++
            (g.waiting ++ [request.message linked].filter (encodes postcard)) =
          g.nudged ++ (s.history.enqueued ++ [request.message linked]).filter (encodes postcard)
        rw [List.filter_append, ← List.append_assoc, ← List.append_assoc, coherent.requests]
      · have holds := coherent.client
        change ClientHolds announce postcard resume _ _ control.items _ _ _ s.client
        rw [items]
        rcases openLink?_eq_some opened with ⟨reader, receiving⟩ | ⟨msg, reader, writing⟩
        · rw [receiving] at holds ⊢
          cases holds with
          | receiving fresh idle waiting nudged =>
              exact .receiving fresh idle (by rw [waiting, List.filter_append]) nudged
        · rw [writing] at holds ⊢
          cases holds with
          | writing fresh current waiting nudged =>
              exact .writing fresh current (by rw [waiting, List.filter_append]) nudged
    · cases stepped
  · cases stepped

private theorem Coherent.refused {c : C} (coherent : Coherent announce postcard resume s g)
    (stepped : s.refused c = .ok s') : ∃ g', Coherent announce postcard resume s' g' := by
  unfold Connection.refused at stepped
  split at stepped
  · cases stepped
    exact ⟨g, { coherent with }⟩
  · cases stepped

private theorem Coherent.acked {c : C} (coherent : Coherent announce postcard resume s g)
    (stepped : s.acked c = .ok s') : ∃ g', Coherent announce postcard resume s' g' := by
  unfold Connection.acked at stepped
  split at stepped
  · cases stepped
    exact ⟨g, { coherent with }⟩
  · cases stepped

private theorem Coherent.unacked {c : C} (coherent : Coherent announce postcard resume s g)
    (stepped : s.unacked c = .ok s') : ∃ g', Coherent announce postcard resume s' g' := by
  unfold Connection.unacked at stepped
  split at stepped
  · cases stepped
    exact ⟨g, { coherent with }⟩
  · cases stepped

/-! ## Runs -/

/-- Every step keeps track of every message. -/
theorem Coherent.step (faithful : Lane.Faithful (encodeFrame postcard) (frameDecoder postcard))
    {action : Action C F} (coherent : Coherent announce postcard resume s g)
    (stepped : s.step postcard announce resume action = .ok s') :
    ∃ g', Coherent announce postcard resume s' g' := by
  cases action with
  | hostAnnounces => exact coherent.hostAnnounces stepped
  | hostWrites n => exact coherent.hostWrites stepped
  | hostWriteFails => exact coherent.hostWriteFails stepped
  | hostReads n => exact coherent.hostReads stepped
  | hostTakes => exact coherent.hostTakes faithful stepped
  | hostStopsReading => exact coherent.hostStopsReading stepped
  | hostHands => exact coherent.hostHands stepped
  | hostHandFails => exact coherent.hostHandFails stepped
  | backendTakes => exact coherent.backendTakes stepped
  | backendEnds =>
      cases stepped
      exact ⟨g, { coherent with }⟩
  | clientReads n => exact coherent.clientReads stepped
  | clientTakes => exact coherent.clientTakes faithful stepped
  | clientStopsReading => exact coherent.clientStopsReading stepped
  | clientWrites n => exact coherent.clientWrites stepped
  | clientWriteFails => exact coherent.clientWriteFails stepped
  | writerTakes => exact coherent.writerTakes stepped
  | calls c request => exact coherent.calling stepped
  | enqueues c => exact coherent.enqueues stepped
  | refused c => exact coherent.refused stepped
  | acked c => exact coherent.acked stepped
  | unacked c => exact coherent.unacked stepped

variable (announce postcard resume) in
/-- Every message of a connection is somewhere. -/
def Accounted (s : Connection C F) : Prop :=
  ∃ g, Coherent announce postcard resume s g

theorem accounted_of_run (faithful : Lane.Faithful (encodeFrame postcard) (frameDecoder postcard))
    {actions : List (Action C F)} (reached : run postcard announce resume actions = .ok s) :
    Accounted announce postcard resume s := by
  have start : Accounted announce postcard resume (.initial : Connection C F) :=
    ⟨_, coherent_initial⟩
  refine Run.invariant ?_ start reached
  intro action _ before after ⟨_, coherent⟩ stepped
  exact coherent.step faithful stepped

end

end Connection

end Simulboot
