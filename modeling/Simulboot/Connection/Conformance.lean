import Mathlib.Data.List.Infix
import Simulboot.Client.Conn
import Simulboot.Connection.Calls
import Simulboot.Connection.Coherence

/-!
# The session that a link and its host keep up

However calls, tasks and deliveries interleave, the host announces itself first
and answers every request in turn, the input events arrive in order, and neither
side meets a message that it has to ignore.
-/

set_option autoImplicit false

namespace Simulboot

open Library

variable {C F E : Type}

/-- What the connection relies on of postcard. -/
structure Postcard.Documented (postcard : Postcard (StructureMessage F) E) : Prop where
  inverts : postcard.Inverts
  refusesTruncated : postcard.RefusesTruncated
  /-- Messages without text are always serialised. -/
  suspend : ∃ body, postcard.toStdvec .suspend = .ok body
  inputEvent : ∀ id event, ∃ body, postcard.toStdvec (.inputEvent id event) = .ok body

namespace Connection

/-! ## The calls of a session -/

def eventsOf [DecidableEq C] (c : C) (events : List (C × InputEvent F)) : List (InputEvent F) :=
  (events.filter fun passed => passed.1 = c).map Prod.snd

/-- The event of a call that has not returned yet. -/
def pending : Call F → List (InputEvent F)
  | .sending request => request.event?.toList
  | .idle | .awaitingAck _ => []

variable [DecidableEq C]

private theorem eventsOf_append (c : C) (left right : List (C × InputEvent F)) :
    eventsOf c (left ++ right) = eventsOf c left ++ eventsOf c right := by
  unfold eventsOf
  rw [List.filter_append, List.map_append]

private theorem eventsOf_own (c : C) (event? : Option (InputEvent F)) :
    eventsOf c (event?.map (c, ·)).toList = event?.toList := by
  cases event? <;> simp [eventsOf]

private theorem eventsOf_other {c other : C} (different : c ≠ other) (event? : Option (InputEvent F)) :
    eventsOf c (event?.map (other, ·)).toList = [] := by
  cases event? <;> simp [eventsOf, different.symm]

section

variable (announce : SurfaceAnnounce) (postcard : Postcard (StructureMessage F) E)

/-- Nothing but the methods of the link is used, and the control channel takes the
events of every caller as the caller passes them. -/
structure Ordered (s : Connection C F) : Prop where
  methods : ∀ c msg, s.calls c ≠ .sending (.post msg)
  ofClient : ∀ msg ∈ s.history.enqueued, fromHost msg = false ∧ encodes postcard msg = true
  events : s.history.enqueued.filterMap (eventFor announce.id) = s.history.accepted.map Prod.snd
  underWay : closed s.client = false → ∀ c,
    eventsOf c s.history.passed = eventsOf c s.history.accepted ++ pending (s.calls c)
  accepted : ∀ c, eventsOf c s.history.accepted <+: eventsOf c s.history.passed

variable {announce postcard} {resume : Option Str} {s s' : Connection C F} {g : InFlight F}

theorem ordered_initial : Ordered announce postcard (.initial : Connection C F) where
  methods := nofun
  ofClient := nofun
  events := rfl
  underWay _ _ := rfl
  accepted _ := List.prefix_rfl

private theorem Ordered.task (ordered : Ordered announce postcard s) (task : TaskStep s s') :
    Ordered announce postcard s' := by
  refine ⟨?_, ?_, ?_, ?_, ?_⟩
  · rw [task.calls]
    exact ordered.methods
  · rw [task.enqueued]
    exact ordered.ofClient
  · rw [task.enqueued, task.accepted]
    exact ordered.events
  · intro opened c
    rw [task.passed, task.accepted, task.calls]
    refine ordered.underWay ?_ c
    cases shut : closed s.client with
    | false => rfl
    | true =>
        rw [task.shut shut] at opened
        cases opened
  · rw [task.passed, task.accepted]
    exact ordered.accepted

private theorem Ordered.setCall {c : C} {call : Call F} {suspendAck : Bounded 1 Unit}
    (ordered : Ordered announce postcard s) (method : ∀ msg, call ≠ .sending (.post msg))
    (same : closed s.client = false → pending call = pending (s.calls c)) :
    Ordered announce postcard { s.setCall c call with suspendAck } := by
  refine { ordered with methods := ?_, underWay := ?_ }
  · intro other msg
    change Function.update s.calls c call other ≠ _
    by_cases own : other = c
    · rw [own, Function.update_self]
      exact method msg
    · rw [Function.update_of_ne own]
      exact ordered.methods other msg
  · intro opened other
    change eventsOf other s.history.passed = eventsOf other s.history.accepted ++
      pending (Function.update s.calls c call other)
    rw [ordered.underWay opened other]
    by_cases own : other = c
    · rw [own, Function.update_self, same opened]
    · rw [Function.update_of_ne own]

private theorem Ordered.calling {c : C} {request : Request F} (ordered : Ordered announce postcard s)
    (method : ∀ msg, request ≠ .post msg) (stepped : s.calling c request = .ok s') :
    Ordered announce postcard s' := by
  unfold Connection.calling at stepped
  split at stepped
  · rename_i idle
    cases stepped
    refine { ordered with methods := ?_, underWay := ?_, accepted := ?_ }
    · intro other msg
      change Function.update s.calls c (.sending request) other ≠ _
      by_cases own : other = c
      · rw [own, Function.update_self]
        intro posted
        cases posted
        exact method msg rfl
      · rw [Function.update_of_ne own]
        exact ordered.methods other msg
    · intro opened other
      change eventsOf other (s.history.passed ++ (request.event?.map (c, ·)).toList) =
        eventsOf other s.history.accepted ++
          pending (Function.update s.calls c (.sending request) other)
      rw [eventsOf_append, ordered.underWay opened other]
      by_cases own : other = c
      · rw [own, Function.update_self, idle, eventsOf_own]
        exact congrArg (· ++ _) (List.append_nil _)
      · rw [Function.update_of_ne own, eventsOf_other own, List.append_nil]
    · intro other
      change _ <+: eventsOf other (s.history.passed ++ _)
      rw [eventsOf_append]
      exact (ordered.accepted other).trans (List.prefix_append _ _)
  · cases stepped

theorem closed_of_openLink? {client : ClientTask F} {linked : SurfaceAnnounce}
    (opened : openLink? client = some linked) : closed client = false := by
  rcases openLink?_eq_some opened with ⟨_, rfl⟩ | ⟨_, _, rfl⟩ <;> rfl

omit [DecidableEq C] in
/-- A link carries the announce of its host. -/
theorem Coherent.linked {linked : SurfaceAnnounce}
    (coherent : Coherent announce postcard resume s g)
    (opened : openLink? s.client = some linked) : linked = announce := by
  have holds := coherent.client
  rcases openLink?_eq_some opened with ⟨_, receiving⟩ | ⟨_, _, writing⟩
  · rw [receiving] at holds
    cases holds
    rfl
  · rw [writing] at holds
    cases holds
    rfl

theorem encodes_of_toStdvec {msg : StructureMessage F}
    (serialised : ∃ body, postcard.toStdvec msg = .ok body) : encodes postcard msg = true := by
  obtain ⟨body, serialised⟩ := serialised
  unfold encodes encodeFrame
  rw [serialised]
  rfl

private theorem request_message (announce : SurfaceAnnounce) {request : Request F}
    (method : ∀ msg, request ≠ .post msg) (documented : postcard.Documented) :
    (fromHost (request.message announce) = false ∧
      encodes postcard (request.message announce) = true) ∧
    [request.message announce].filterMap (eventFor announce.id) = request.event?.toList := by
  cases request with
  | input event =>
      have own : eventFor announce.id (.inputEvent announce.id event) = some event := if_pos rfl
      exact ⟨⟨rfl, encodes_of_toStdvec (documented.inputEvent _ _)⟩,
        List.filterMap_cons_some own⟩
  | suspend => exact ⟨⟨rfl, encodes_of_toStdvec documented.suspend⟩, rfl⟩
  | post msg => exact absurd rfl (method msg)

private theorem pending_sentOn (ticket : Nat) (request : Request F) :
    pending (sentOn ticket request) = [] := by
  cases request <;> rfl

private theorem Ordered.enqueues {c : C} (documented : postcard.Documented)
    (coherent : Coherent announce postcard resume s g) (ordered : Ordered announce postcard s)
    (stepped : s.enqueues c = .ok s') : Ordered announce postcard s' := by
  unfold Connection.enqueues at stepped
  split at stepped
  · rename_i linked request opened sending
    obtain rfl := coherent.linked opened
    split at stepped
    · cases stepped
      have method : ∀ msg, request ≠ .post msg := by
        rintro msg rfl
        exact ordered.methods c msg sending
      obtain ⟨ofClient, event⟩ := request_message linked method documented
      have underWay := ordered.underWay (closed_of_openLink? opened)
      have taken : ∀ other, eventsOf other s.history.passed =
          eventsOf other (s.history.accepted ++ (request.event?.map (c, ·)).toList) ++
            pending (Function.update s.calls c
              (sentOn (s.history.enqueued.length + 1) request) other) := by
        intro other
        rw [underWay other, eventsOf_append]
        by_cases own : other = c
        · rw [own, Function.update_self, sending, eventsOf_own, pending_sentOn, List.append_nil]
          rfl
        · rw [Function.update_of_ne own, eventsOf_other own, List.append_nil]
      refine ⟨?_, ?_, ?_, fun _ => taken, ?_⟩
      · intro other msg
        change Function.update s.calls c (sentOn _ request) other ≠ _
        by_cases own : other = c
        · rw [own, Function.update_self]
          cases request <;> nofun
        · rw [Function.update_of_ne own]
          exact ordered.methods other msg
      · intro msg member
        rcases List.mem_append.mp member with before | now
        · exact ordered.ofClient msg before
        · rw [List.mem_singleton.mp now]
          exact ofClient
      · change (s.history.enqueued ++ [request.message linked]).filterMap _ =
          (s.history.accepted ++ (request.event?.map (c, ·)).toList).map Prod.snd
        rw [List.filterMap_append, ordered.events, event, List.map_append]
        cases request.event? <;> rfl
      · intro other
        exact ⟨_, (taken other).symm⟩
    · cases stepped
  · cases stepped

/-! ## Conformance -/

/-- Nothing but `send_input` and `suspend` is called. -/
def MethodsOnly (actions : List (Action C F)) : Prop :=
  ∀ c msg, .calls c (.post msg) ∉ actions

theorem Ordered.step {action : Action C F} (documented : postcard.Documented)
    (coherent : Coherent announce postcard resume s g) (ordered : Ordered announce postcard s)
    (method : ∀ c msg, action ≠ .calls c (.post msg))
    (stepped : s.step postcard announce resume action = .ok s') :
    Ordered announce postcard s' := by
  cases task : ofCaller action with
  | false => exact ordered.task (taskStep_of_step task stepped)
  | true =>
      cases action with
      | calls c request =>
          refine ordered.calling ?_ stepped
          rintro msg rfl
          exact method c msg rfl
      | enqueues c => exact ordered.enqueues documented coherent stepped
      | refused c =>
          change s.refused c = .ok s' at stepped
          unfold Connection.refused at stepped
          split at stepped <;> cases stepped
          rename_i ended _
          refine ordered.setCall nofun ?_
          rw [ended]
          nofun
      | acked c =>
          change s.acked c = .ok s' at stepped
          unfold Connection.acked at stepped
          split at stepped <;> cases stepped
          rename_i awaiting _
          exact ordered.setCall nofun fun _ => by rw [awaiting]; rfl
      | unacked c =>
          change s.unacked c = .ok s' at stepped
          unfold Connection.unacked at stepped
          split at stepped <;> cases stepped
          rename_i awaiting
          exact ordered.setCall nofun fun _ => by rw [awaiting]; rfl
      | _ => cases task

variable (announce postcard resume) in
structure InSession (s : Connection C F) : Prop where
  accounted : Accounted announce postcard resume s
  ordered : Ordered announce postcard s

theorem inSession_of_run (documented : postcard.Documented) {actions : List (Action C F)}
    (methods : MethodsOnly actions) (reached : run postcard announce resume actions = .ok s) :
    InSession announce postcard resume s := by
  have faithful := frames_faithful documented.inverts documented.refusesTruncated
  have start : InSession announce postcard resume (.initial : Connection C F) :=
    ⟨⟨_, coherent_initial⟩, ordered_initial⟩
  refine Run.invariant ?_ start reached
  rintro action member before after ⟨⟨g, coherent⟩, ordered⟩ stepped
  refine ⟨coherent.step faithful stepped, ordered.step documented coherent ?_ stepped⟩
  rintro c msg rfl
  exact methods c msg member

variable (announce resume) in
/-- What the two ends have done so far is the beginning of one session. -/
structure Conforms (s : Connection C F) : Prop where
  /-- The host announces itself first. -/
  announced : ∀ msg ∈ s.history.sent.head?, msg = .announce announce
  /-- Behind that it answers each Suspend and each Reconnect, in turn. -/
  replied : s.history.sent.tail = s.history.processed.filterMap (replyTo announce)
  received : s.history.received <+: s.history.sent
  processed : s.history.processed <+: nudges resume ++ s.history.enqueued
  /-- The backend is handed the events that were accepted, those of each caller in
  the order of its calls. -/
  handed : s.history.handed <+: s.history.accepted.map Prod.snd
  accepted : ∀ c, eventsOf c s.history.accepted <+: eventsOf c s.history.passed
  oneCaller : ∀ c, (∀ passed ∈ s.history.passed, passed.1 = c) →
    s.history.handed <+: s.history.passed.map Prod.snd
  hostHeeds : s.history.hostIgnored = []
  clientHeeds : s.history.clientIgnored = []

omit [DecidableEq C] in
/-- A client that has a link has nudged its host, and no other has enqueued anything. -/
theorem Coherent.script (coherent : Coherent announce postcard resume s g) :
    s.history.processed <+: nudges resume ++ s.history.enqueued.filter (encodes postcard) := by
  have begun : s.history.processed <+:
      g.nudged ++ s.history.enqueued.filter (encodes postcard) := by
    rw [← coherent.requests, List.append_assoc, List.append_assoc, List.append_assoc]
    exact List.prefix_append _ _
  refine begun.trans ?_
  have holds := coherent.client
  generalize s.client = task at holds
  cases holds with
  | connecting _ unused _ _ _ unnudged =>
      rw [unused, unnudged]
      exact List.nil_prefix
  | nudging _ _ _ _ _ _ nudged => exact nudged ▸ List.prefix_rfl
  | receiving _ _ _ nudged => exact nudged ▸ List.prefix_rfl
  | writing _ _ _ nudged => exact nudged ▸ List.prefix_rfl
  | writerEnded _ nudged => exact nudged ▸ List.prefix_rfl
  | failed unused begun =>
      rw [unused, List.filter_nil, List.append_nil, List.append_nil]
      exact begun

omit [DecidableEq C] in
/-- The Reconnect is no event, and only clients send it. -/
theorem nudges_ofClient (announce : SurfaceAnnounce) (resume : Option Str) :
    (∀ msg ∈ nudges resume, fromHost (F := F) msg = false) ∧
      (nudges resume).filterMap (eventFor (F := F) announce.id) = [] := by
  cases resume with
  | none => exact ⟨nofun, rfl⟩
  | some sessionId =>
      refine ⟨fun msg member => ?_, rfl⟩
      rw [List.mem_singleton.mp member]
      rfl

omit [DecidableEq C] in
private theorem isReply_of_owed {request reply : StructureMessage F}
    (owed : replyTo announce request = some reply) : isReply reply = true := by
  cases request <;> cases owed <;> rfl

private theorem eventsOf_all {c : C} {events : List (C × InputEvent F)}
    (one : ∀ passed ∈ events, passed.1 = c) : eventsOf c events = events.map Prod.snd := by
  have all : (events.filter fun passed => passed.1 = c) = events :=
    List.filter_eq_self.mpr fun passed member => decide_eq_true (one passed member)
  unfold eventsOf
  rw [all]

private theorem Ordered.oneCaller (ordered : Ordered announce postcard s) {c : C}
    (one : ∀ passed ∈ s.history.passed, passed.1 = c) :
    s.history.accepted.map Prod.snd <+: s.history.passed.map Prod.snd := by
  have same : ∀ accepted ∈ s.history.accepted, accepted.1 = c := by
    intro accepted member
    have own : accepted.2 ∈ eventsOf accepted.1 s.history.accepted :=
      List.mem_map_of_mem (List.mem_filter.mpr ⟨member, decide_eq_true rfl⟩)
    obtain ⟨passed, ofCaller, _⟩ :=
      List.mem_map.mp ((ordered.accepted accepted.1).subset own)
    obtain ⟨among, caller⟩ := List.mem_filter.mp ofCaller
    rw [← of_decide_eq_true caller]
    exact one passed among
  rw [← eventsOf_all same, ← eventsOf_all one]
  exact ordered.accepted c

/-- In every state that any interleaving reaches, the session conforms. -/
theorem session_conforms (documented : postcard.Documented) {actions : List (Action C F)}
    (methods : MethodsOnly actions) (reached : run postcard announce resume actions = .ok s) :
    Conforms announce resume s := by
  obtain ⟨⟨g, coherent⟩, ordered⟩ := inSession_of_run documented methods reached
  have encoded : s.history.enqueued.filter (encodes postcard) = s.history.enqueued :=
    List.filter_eq_self.mpr fun msg member => (ordered.ofClient msg member).2
  have processed := coherent.script
  rw [encoded] at processed
  have received : s.history.received <+: s.history.sent := ⟨g.down, coherent.replies⟩
  obtain ⟨fromClient, noEvent⟩ := nudges_ofClient (F := F) announce resume
  have handed : s.history.handed <+: s.history.accepted.map Prod.snd := by
    have events := processed.filterMap (eventFor announce.id)
    rw [List.filterMap_append, noEvent, List.nil_append, ordered.events] at events
    rw [coherent.handed]
    exact events
  have replied : s.history.sent.tail = s.history.processed.filterMap (replyTo announce) ∧
      ∀ msg ∈ s.history.sent.head?, msg = .announce announce := by
    cases coherent.answered_or_silent with
    | inl answered =>
        rw [answered]
        exact ⟨rfl, fun msg head => (Option.some.inj head).symm⟩
    | inr silent =>
        rw [silent.1, silent.2]
        exact ⟨rfl, nofun⟩
  refine
    { announced := replied.2, replied := replied.1, received, processed, handed
      accepted := ordered.accepted
      oneCaller := fun c one => handed.trans (ordered.oneCaller one), hostHeeds := ?_
      clientHeeds := ?_ }
  · rw [coherent.hostIgnored, List.filter_eq_nil_iff]
    intro msg member ignored
    have heeded : fromHost msg = false := by
      cases List.mem_append.mp (processed.subset member) with
      | inl nudge => exact fromClient msg nudge
      | inr enqueued => exact (ordered.ofClient msg enqueued).1
    rw [heeded] at ignored
    cases ignored
  · rw [coherent.clientIgnored, List.filter_eq_nil_iff]
    intro msg member ignored
    have later := List.IsPrefix.drop received 1
    rw [List.drop_one, List.drop_one, replied.1] at later
    have sent := later.subset member
    obtain ⟨request, _, owed⟩ := List.mem_filterMap.mp sent
    rw [isReply_of_owed owed] at ignored
    cases ignored

end

/-! ## A session that is resumed -/

theorem documented_f32 : (StructureMessage.postcard Library.Postcard.Format.f32).Documented where
  inverts := StructureMessage.postcard_inverts _
  refusesTruncated _ _ serialised _ short :=
    StructureMessage.postcard_refuses Library.Postcard.Format.selfDelimiting_f32 serialised short
  suspend := ⟨_, rfl⟩
  inputEvent := StructureMessage.write_inputEvent Library.Postcard.Format.total_f32

def sampleSession : List (Action Unit UInt32) :=
  [.hostAnnounces, .hostWrites 87, .clientReads 50, .clientReads 37, .clientTakes,
    .clientWrites 14, .calls () (.input (.keyDown 30)), .enqueues (), .calls () .suspend,
    .enqueues (), .writerTakes, .clientWrites 39, .writerTakes, .clientWrites 5, .hostReads 58,
    .hostTakes, .hostWrites 87, .hostTakes, .hostHands, .hostTakes, .hostWrites 5,
    .clientReads 92, .clientTakes, .clientTakes, .acked ()]

theorem sampleSession_conforms :
    ∃ s, run (StructureMessage.postcard Library.Postcard.Format.f32) sampleAnnounce
        (some "sha256:0".toList) sampleSession = .ok s ∧
      s.history.handed = [.keyDown 30] ∧
      s.history.sent = [.announce sampleAnnounce, .reconnectOk sampleAnnounce, .suspendAck] ∧
      Conforms sampleAnnounce (some "sha256:0".toList) s := by
  have done : (run (StructureMessage.postcard Library.Postcard.Format.f32) sampleAnnounce
      (some "sha256:0".toList) sampleSession).map
        (fun s => (s.history.handed, s.history.sent)) =
      .ok ([.keyDown 30],
        [.announce sampleAnnounce, .reconnectOk sampleAnnounce, .suspendAck]) := by decide
  cases reached : run (StructureMessage.postcard Library.Postcard.Format.f32) sampleAnnounce
      (some "sha256:0".toList) sampleSession with
  | error e =>
      rw [reached] at done
      cases done
  | ok s =>
      rw [reached] at done
      obtain ⟨handed, sent⟩ := Prod.mk.inj (Except.ok.inj done)
      have methods : MethodsOnly sampleSession := by
        intro c msg member
        simp [sampleSession] at member
      exact ⟨s, rfl, handed, sent, session_conforms documented_f32 methods reached⟩

end Connection

end Simulboot
