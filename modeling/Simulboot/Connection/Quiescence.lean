import Simulboot.Connection.Work

/-!
# A connection at rest

Where neither side has anything left to do and nothing has broken off, everything that
was asked for is done. The bounded channels hold up nothing for good.
-/

set_option autoImplicit false

namespace Simulboot.Connection

open Library Library.Framing

variable {C F E : Type}

/-! ## What is said on a link -/

section

variable (announce : SurfaceAnnounce) (resume : Option Str)

/-- What the methods of a link and a resumed session ask of the host. -/
inductive Asks : StructureMessage F → Prop where
  | suspend : Asks .suspend
  | inputEvent (event : InputEvent F) : Asks (.inputEvent announce.id event)
  | reconnect {sessionId} : resume = some sessionId → Asks (.reconnect sessionId)

variable (postcard : Postcard (StructureMessage F) E)

def Fitting (msg : StructureMessage F) : Prop :=
  ∃ body, postcard.toStdvec msg = .ok body ∧ body.length ≤ maxFrameLen

/-- The messages of a session are within the limit of the decoder. -/
structure Carriable : Prop where
  asked : ∀ msg, Asks announce resume msg → Fitting postcard msg
  announced : Fitting postcard (.announce announce)
  reconnectOk : Fitting postcard (.reconnectOk announce)
  suspendAck : Fitting postcard .suspendAck

end

/-! ## What can still happen -/

/-- The steps by which the two ends go on; the others are calls, time-outs and failures. -/
def goesOn : Action C F → Bool
  | .hostAnnounces | .hostWrites _ | .hostReads _ | .hostTakes | .hostHands | .backendTakes => true
  | .clientReads _ | .clientTakes | .clientWrites _ | .writerTakes => true
  | .enqueues _ | .acked _ => true
  | .hostWriteFails | .hostStopsReading | .hostHandFails | .backendEnds => false
  | .clientStopsReading | .clientWriteFails => false
  | .calls _ _ | .refused _ | .unacked _ => false

def undisturbed : ClientTask F → Bool
  | .connecting | .nudging _ => true
  | .connected _ .receiving .running | .connected _ (.writing _) .running => true
  | .connected _ .receiving .ended | .connected _ (.writing _) .ended => false
  | .connected _ .ended _ | .failed => false

/-- Nothing has broken off. -/
structure Intact (s : Connection C F) : Prop where
  host : s.host ≠ .ended
  backend : s.backend = .running
  client : undisturbed s.client = true

section

variable (postcard : Postcard (StructureMessage F) E) (announce : SurfaceAnnounce)
  (resume : Option Str)

section

variable [DecidableEq C]

/-- Neither side can go on. -/
def AtRest (s : Connection C F) : Prop :=
  Run.Rest (step postcard announce resume) goesOn s

/-- Everything that was asked for is done, and nothing is on its way. -/
structure Done (s : Connection C F) : Prop where
  client : s.client = .connected announce .receiving .running
  host : s.host = .reading
  up : s.up = .empty
  down : s.down = .empty
  control : s.control.items = []
  input : s.input.items = []
  processed : s.history.processed = nudges resume ++ s.history.enqueued
  sent : s.history.sent = .announce announce :: s.history.processed.filterMap (replyTo announce)
  received : s.history.received = s.history.sent
  /-- The backend was handed every event that was passed to the link. -/
  handed : s.history.handed = s.history.accepted.map Prod.snd
  accepted : ∀ c, eventsOf c s.history.accepted = eventsOf c s.history.passed
  calls : ∀ c request, s.calls c ≠ .sending request
  acks : ∀ c ticket, s.calls c = .awaitingAck ticket → s.suspendAck.items = []

end

variable {postcard announce resume} {s s' : Connection C F} {g : InFlight F}

/-! ## Lanes -/

private theorem incomplete_iff {buf : Bytes} :
    incomplete postcard buf = true ↔ (frameDecoder postcard).decode buf = .incomplete := by
  change incomplete postcard buf = true ↔ verdict (decodeFrame postcard buf) = .incomplete
  unfold incomplete
  rcases decodeFrame postcard buf with (_ | _ | _) | ⟨_, _⟩ <;> simp [verdict]

private theorem Fitting.accepted {msg : StructureMessage F} (fitting : Fitting postcard msg)
    (inverts : postcard.Inverts) (frame rest : Bytes) (encoded : encodeFrame postcard msg = .ok frame) :
    ∃ value consumed, (frameDecoder postcard).decode (frame ++ rest) = .message value consumed := by
  obtain ⟨body, serialised, fits⟩ := fitting
  obtain ⟨same, serialised', rfl⟩ := encodeFrame_eq_ok encoded
  rw [serialised] at serialised'
  cases serialised'
  exact ⟨_, _, verdict_eq_message.mpr (decodeFrame_encodeFrame inverts serialised fits rest)⟩

private theorem Fitting.encoded {msg : StructureMessage F} (fitting : Fitting postcard msg) :
    ∃ frame, encodeFrame postcard msg = .ok frame := by
  obtain ⟨body, serialised, _⟩ := fitting
  unfold encodeFrame
  rw [serialised]
  exact ⟨_, rfl⟩

/-! ## The host comes to read -/

section

variable [DecidableEq C]

private theorem AtRest.hostReading (rest : AtRest postcard announce resume s) (intact : Intact s)
    (coherent : Coherent announce postcard resume s g) : s.host = .reading := by
  have holds := coherent.host
  cases task : s.host with
  | reading => rfl
  | ended => exact absurd task intact.host
  | starting =>
      have announces : ∃ s', s.step postcard announce resume .hostAnnounces = .ok s' := by
        change ∃ s', s.hostAnnounces postcard announce = .ok s'
        unfold hostAnnounces
        rw [task]
        dsimp only
        split <;> exact ⟨_, rfl⟩
      obtain ⟨s', stepped⟩ := announces
      exact absurd stepped (rest _ _ rfl)
  | writing request msg =>
      rw [task] at holds
      have current : ∃ msg, g.answering = some msg := by
        cases holds with
        | announcing _ _ _ answering => exact ⟨_, answering⟩
        | answering _ _ _ answering => exact ⟨_, answering⟩
      obtain ⟨msg, answering⟩ := current
      have down := coherent.down
      rw [answering] at down
      have some := List.length_pos_of_ne_nil down.unsent_ne_nil
      have writes : ∃ s', s.step postcard announce resume (.hostWrites 1) = .ok s' := by
        change ∃ s', s.hostWrites 1 = .ok s'
        unfold hostWrites
        rw [task]
        exact ⟨_, onlyIf_eq_ok.mpr ⟨⟨Nat.one_pos, some⟩, rfl⟩⟩
      obtain ⟨s', stepped⟩ := writes
      exact absurd stepped (rest _ _ rfl)
  | handing event =>
      by_cases room : s.input.items.length < 64
      · obtain ⟨input, sent⟩ := Bounded.trySend_of_lt room event
        have hands : ∃ s', s.step postcard announce resume .hostHands = .ok s' := by
          change ∃ s', s.hostHands announce = .ok s'
          unfold hostHands
          rw [task, intact.backend]
          dsimp only
          rw [sent]
          exact ⟨_, rfl⟩
        obtain ⟨s', stepped⟩ := hands
        exact absurd stepped (rest _ _ rfl)
      · have full : s.input.items ≠ [] := by
          intro none
          rw [none] at room
          exact room (Nat.succ_pos 63)
        obtain ⟨taken, received⟩ := Bounded.tryRecv_of_ne_nil full
        have takes : ∃ s', s.step postcard announce resume .backendTakes = .ok s' := by
          change ∃ s', s.backendTakes = .ok s'
          unfold backendTakes
          rw [intact.backend, received]
          exact ⟨_, rfl⟩
        obtain ⟨s', stepped⟩ := takes
        exact absurd stepped (rest _ _ rfl)

/-! ## The client comes to wait -/

private theorem readable_of_fitting {msg : StructureMessage F} {later : List (StructureMessage F)}
    {current : Option (StructureMessage F)} {lane : Lane} (inverts : postcard.Inverts)
    (fitting : Fitting postcard msg)
    (carries : Lane.Carries (encodeFrame postcard) (msg :: later) current lane) :
    (∃ msg consumed, decodeFrame postcard lane.buf = .ok (msg, consumed)) ∨
      incomplete postcard lane.buf = true ∧ Readable lane 1 := by
  rcases carries.readable (frameDecoder postcard) (fitting.accepted inverts) with
    ⟨value, consumed, decoded⟩ | ⟨decoded, wire⟩
  · exact .inl ⟨value, consumed, verdict_eq_message.mp decoded⟩
  · exact .inr ⟨incomplete_iff.mpr decoded, Nat.one_pos, by decide, List.length_pos_of_ne_nil wire⟩

private theorem AtRest.downEmpty (rest : AtRest postcard announce resume s) (inverts : postcard.Inverts)
    (coherent : Coherent announce postcard resume s g)
    (reading : s.client = .connecting ∨ ∃ linked writer, s.client = .connected linked writer .running)
    (fitting : ∀ msg ∈ g.down, Fitting postcard msg) : g.down = [] := by
  cases queued : g.down with
  | nil => rfl
  | cons msg later =>
      have down := coherent.down
      rw [queued] at fitting down
      rcases readable_of_fitting inverts (fitting msg (by simp)) down with
        ⟨msg, consumed, decoded⟩ | ⟨more, readable⟩
      · have takes : ∃ s', s.step postcard announce resume .clientTakes = .ok s' := by
          change ∃ s', s.clientTakes postcard resume = .ok s'
          unfold clientTakes
          rw [decoded]
          rcases reading with connecting | ⟨linked, writer, connected⟩
          · rw [connecting]
            exact ⟨_, rfl⟩
          · rw [connected]
            exact ⟨_, rfl⟩
        obtain ⟨s', stepped⟩ := takes
        exact absurd stepped (rest _ _ rfl)
      · have reader : clientReading s.client = true := by
          rcases reading with connecting | ⟨linked, writer, connected⟩
          · rw [connecting]
            rfl
          · rw [connected]
            rfl
        have reads : s.step postcard announce resume (.clientReads 1) = .ok _ :=
          onlyIf_eq_ok.mpr ⟨⟨reader, more, readable⟩, rfl⟩
        exact absurd reads (rest _ _ rfl)

private theorem AtRest.upEmpty (rest : AtRest postcard announce resume s) (inverts : postcard.Inverts)
    (coherent : Coherent announce postcard resume s g) (reading : s.host = .reading)
    (fitting : ∀ msg ∈ g.up, Fitting postcard msg) : g.up = [] := by
  cases queued : g.up with
  | nil => rfl
  | cons msg later =>
      have up := coherent.up
      rw [queued] at fitting up
      rcases readable_of_fitting inverts (fitting msg (by simp)) up with
        ⟨msg, consumed, decoded⟩ | ⟨more, readable⟩
      · have takes : ∃ s', s.step postcard announce resume .hostTakes = .ok s' := by
          change ∃ s', s.hostTakes postcard announce = .ok s'
          unfold hostTakes
          rw [reading, decoded]
          exact ⟨_, rfl⟩
        obtain ⟨s', stepped⟩ := takes
        exact absurd stepped (rest _ _ rfl)
      · have reads : ∃ s', s.step postcard announce resume (.hostReads 1) = .ok s' := by
          change ∃ s', s.hostReads postcard 1 = .ok s'
          unfold hostReads
          rw [reading]
          exact ⟨_, onlyIf_eq_ok.mpr ⟨⟨more, readable⟩, rfl⟩⟩
        obtain ⟨s', stepped⟩ := reads
        exact absurd stepped (rest _ _ rfl)

private theorem AtRest.notWriting (rest : AtRest postcard announce resume s)
    (coherent : Coherent announce postcard resume s g) {msg : StructureMessage F}
    (current : g.writing = some msg) :
    (∀ linked, s.client ≠ .nudging linked) ∧
      ∀ linked msg reader, s.client ≠ .connected linked (.writing msg) reader := by
  have up := coherent.up
  rw [current] at up
  have some := List.length_pos_of_ne_nil up.unsent_ne_nil
  constructor
  · intro linked nudging
    have writes : ∃ s', s.step postcard announce resume (.clientWrites 1) = .ok s' := by
      change ∃ s', s.clientWrites 1 = .ok s'
      unfold clientWrites
      rw [nudging]
      exact ⟨_, onlyIf_eq_ok.mpr ⟨⟨Nat.one_pos, some⟩, rfl⟩⟩
    obtain ⟨s', stepped⟩ := writes
    exact rest _ _ rfl stepped
  · intro linked msg reader writing
    have writes : ∃ s', s.step postcard announce resume (.clientWrites 1) = .ok s' := by
      change ∃ s', s.clientWrites 1 = .ok s'
      unfold clientWrites
      rw [writing]
      exact ⟨_, onlyIf_eq_ok.mpr ⟨⟨Nat.one_pos, some⟩, rfl⟩⟩
    obtain ⟨s', stepped⟩ := writes
    exact rest _ _ rfl stepped

private theorem AtRest.controlEmpty (rest : AtRest postcard announce resume s) {linked : SurfaceAnnounce}
    {reader : Task} (receiving : s.client = .connected linked .receiving reader) :
    s.control.items = [] := by
  by_contra some
  obtain ⟨⟨msg, control⟩, taken⟩ := Bounded.tryRecv_of_ne_nil some
  have takes : ∃ s', s.step postcard announce resume .writerTakes = .ok s' := by
    change ∃ s', s.writerTakes postcard = .ok s'
    unfold writerTakes
    rw [receiving, taken]
    dsimp only
    split <;> exact ⟨_, rfl⟩
  obtain ⟨s', stepped⟩ := takes
  exact rest _ _ rfl stepped

/-! ## Messages of a session -/

variable (announce postcard resume) in
/-- A session of the link's methods, and what was asked in it. -/
structure Underway (s : Connection C F) : Prop where
  session : InSession announce postcard resume s
  asked : ∀ msg ∈ s.history.enqueued, Asks announce resume msg

private theorem asked_enqueues {c : C} (ordered : Ordered announce postcard s)
    (linked : ∀ linked, openLink? s.client = some linked → linked = announce)
    (asked : ∀ msg ∈ s.history.enqueued, Asks announce resume msg)
    (stepped : s.enqueues c = .ok s') : ∀ msg ∈ s'.history.enqueued, Asks announce resume msg := by
  unfold enqueues at stepped
  split at stepped
  · rename_i opener request opened sending
    split at stepped
    · cases stepped
      obtain rfl := linked opener opened
      intro msg member
      cases List.mem_append.mp member with
      | inl earlier => exact asked msg earlier
      | inr own =>
          rw [List.mem_singleton.mp own]
          cases request with
          | suspend => exact .suspend
          | input event => exact .inputEvent event
          | post msg => exact absurd sending (ordered.methods c msg)
    · cases stepped
  · cases stepped

private theorem asked_step {action : Action C F} (session : InSession announce postcard resume s)
    (asked : ∀ msg ∈ s.history.enqueued, Asks announce resume msg)
    (stepped : s.step postcard announce resume action = .ok s') :
    ∀ msg ∈ s'.history.enqueued, Asks announce resume msg := by
  obtain ⟨⟨g, coherent⟩, ordered⟩ := session
  cases task : ofCaller action with
  | false =>
      rw [(taskStep_of_step task stepped).enqueued]
      exact asked
  | true =>
      cases action with
      | enqueues c =>
          exact asked_enqueues ordered (fun linked opened => coherent.linked opened) asked stepped
      | calls c request =>
          change s.calling c request = .ok s' at stepped
          unfold calling at stepped
          split at stepped <;> cases stepped
          exact asked
      | refused c =>
          change s.refused c = .ok s' at stepped
          unfold refused at stepped
          split at stepped <;> cases stepped
          exact asked
      | acked c =>
          change s.acked c = .ok s' at stepped
          unfold acked at stepped
          split at stepped <;> cases stepped
          exact asked
      | unacked c =>
          change s.unacked c = .ok s' at stepped
          unfold unacked at stepped
          split at stepped <;> cases stepped
          exact asked
      | _ => cases task

theorem Underway.step {action : Action C F} (documented : postcard.Documented)
    (underway : Underway postcard announce resume s)
    (method : ∀ c msg, action ≠ .calls c (.post msg))
    (stepped : s.step postcard announce resume action = .ok s') :
    Underway postcard announce resume s' := by
  have faithful := frames_faithful documented.inverts documented.refusesTruncated
  obtain ⟨session, asked⟩ := underway
  refine ⟨?_, asked_step session asked stepped⟩
  obtain ⟨⟨g, coherent⟩, ordered⟩ := session
  exact ⟨coherent.step faithful stepped, ordered.step documented coherent method stepped⟩

theorem underway_of_run (documented : postcard.Documented) {actions : List (Action C F)}
    (methods : MethodsOnly actions) (reached : run postcard announce resume actions = .ok s) :
    Underway postcard announce resume s := by
  have start : Underway postcard announce resume (.initial : Connection C F) :=
    ⟨⟨⟨_, coherent_initial⟩, ordered_initial⟩, nofun⟩
  refine Run.invariant ?_ start reached
  intro action member before after underway stepped
  refine underway.step documented ?_ stepped
  rintro c msg rfl
  exact methods c msg member

omit [DecidableEq C] in
private theorem Coherent.nudged_subset (coherent : Coherent announce postcard resume s g) :
    ∀ msg ∈ g.nudged, Asks announce resume msg := by
  have among : ∀ msg ∈ g.nudged, msg ∈ nudges resume := by
    have holds := coherent.client
    generalize s.client = task at holds
    cases holds with
    | connecting _ _ _ _ _ nudged =>
        rw [nudged]
        exact nofun
    | nudging _ _ _ _ _ _ nudged | receiving _ _ _ nudged | writing _ _ _ nudged
    | writerEnded _ nudged =>
        rw [nudged]
        exact fun _ member => member
    | failed _ begun => exact fun _ member => begun.subset member
  intro msg member
  obtain ⟨sessionId, resumes, rfl⟩ := List.mem_map.mp (by
    have listed := among msg member
    rwa [nudges, Option.toList_map] at listed)
  exact .reconnect (Option.mem_toList.mp resumes)

omit [DecidableEq C] in
private theorem Coherent.asked (coherent : Coherent announce postcard resume s g)
    (asked : ∀ msg ∈ s.history.enqueued, Asks announce resume msg) :
    ∀ msg ∈ s.history.processed ++ g.inHand ++ g.up ++ g.writing.toList ++ g.waiting,
      Asks announce resume msg := by
  rw [coherent.requests]
  intro msg member
  cases List.mem_append.mp member with
  | inl nudge => exact coherent.nudged_subset msg nudge
  | inr enqueued => exact asked msg (List.mem_of_mem_filter enqueued)

omit [DecidableEq C] in
/-- What the host has sent is within the limit. -/
theorem Coherent.sent_fitting (coherent : Coherent announce postcard resume s g)
    (carriable : Carriable announce resume postcard) :
    ∀ msg ∈ s.history.sent, Fitting postcard msg := by
  intro msg member
  cases coherent.answered_or_silent with
  | inr silent =>
      rw [silent.1] at member
      cases member
  | inl answered =>
      rw [answered] at member
      cases member with
      | head => exact carriable.announced
      | tail _ reply =>
          obtain ⟨request, _, owed⟩ := List.mem_filterMap.mp reply
          cases request with
          | suspend =>
              cases owed
              exact carriable.suspendAck
          | reconnect _ =>
              cases owed
              exact carriable.reconnectOk
          | _ => cases owed

/-! ## At rest -/

/-- A link at rest is up, and both its tasks wait. -/
theorem AtRest.clientWaiting (rest : AtRest postcard announce resume s) (intact : Intact s)
    (inverts : postcard.Inverts) (carriable : Carriable announce resume postcard)
    (coherent : Coherent announce postcard resume s g) :
    s.client = .connected announce .receiving .running ∧ g.down = [] := by
  have fitting : ∀ msg ∈ g.down, Fitting postcard msg := fun msg member =>
    coherent.sent_fitting carriable msg (coherent.replies ▸ List.mem_append_right _ member)
  have holds := coherent.client
  have going := intact.client
  have empty := rest.downEmpty inverts coherent
  cases task : s.client with
  | failed =>
      rw [task] at going
      cases going
  | connecting =>
      have nothing := empty (.inl task) fitting
      have hosted := coherent.host
      rw [rest.hostReading intact coherent] at hosted
      rw [task] at holds
      cases hosted with
      | reading answered _ _ =>
          cases holds with
          | connecting unread _ _ _ _ _ =>
              have replies := coherent.replies
              rw [unread, nothing, answered] at replies
              cases replies
  | nudging linked =>
      rw [task] at holds
      cases holds with
      | nudging _ _ _ _ current _ _ => exact absurd task ((rest.notWriting coherent current).1 _)
  | connected linked writer reader =>
      rw [task] at holds going
      cases writer with
      | ended => cases going
      | writing msg =>
          cases holds with
          | writing _ current _ _ => exact absurd task ((rest.notWriting coherent current).2 _ _ _)
      | receiving =>
          cases reader with
          | ended => cases going
          | running =>
              cases holds with
              | receiving _ _ _ _ => exact ⟨rfl, empty (.inr ⟨_, _, task⟩) fitting⟩

/-- Nothing is left undone where nothing can go on and nothing has broken off. -/
theorem Underway.done (underway : Underway postcard announce resume s)
    (documented : postcard.Documented) (carriable : Carriable announce resume postcard)
    (intact : Intact s) (rest : AtRest postcard announce resume s) :
    Done announce resume s := by
  obtain ⟨⟨⟨g, coherent⟩, ordered⟩, asked⟩ := underway
  have inverts := documented.inverts
  have reading := rest.hostReading intact coherent
  obtain ⟨client, down⟩ := rest.clientWaiting intact inverts carriable coherent
  have up : g.up = [] := rest.upEmpty inverts coherent reading fun msg member =>
    carriable.asked msg (coherent.asked asked msg (by simp [member]))
  have control := rest.controlEmpty client
  have opened : openLink? s.client = some announce := by
    rw [client]
    rfl
  have hosted := coherent.host
  have linked := coherent.client
  rw [reading] at hosted
  rw [client] at linked
  cases hosted with
  | reading answered inHand answering =>
      cases linked with
      | receiving _ writing waiting nudged =>
          rw [control, List.filter_nil] at waiting
          have requests := coherent.requests
          have encoded : s.history.enqueued.filter (encodes postcard) = s.history.enqueued :=
            List.filter_eq_self.mpr fun msg member => (ordered.ofClient msg member).2
          rw [inHand, up, writing, waiting, nudged, encoded] at requests
          simp only [Option.toList_none, List.append_nil] at requests
          have upLane := coherent.up
          have downLane := coherent.down
          rw [up, writing] at upLane
          rw [down, answering] at downLane
          have replies := coherent.replies
          rw [down, List.append_nil] at replies
          have sending : ∀ c request, s.calls c ≠ .sending request := by
            intro c request sending
            have room : s.control.items.length < 64 := by
              rw [control]
              exact Nat.succ_pos 63
            obtain ⟨after, sent⟩ := Bounded.trySend_of_lt room (request.message announce)
            have enqueues : ∃ s', s.step postcard announce resume (.enqueues c) = .ok s' := by
              change ∃ s', s.enqueues c = .ok s'
              unfold enqueues
              rw [opened, sending]
              dsimp only
              rw [sent]
              exact ⟨_, rfl⟩
            obtain ⟨s', stepped⟩ := enqueues
            exact rest _ _ rfl stepped
          refine
            { client, host := reading, up := upLane.eq_empty, down := downLane.eq_empty, control
              input := ?_, processed := requests, sent := answered, received := replies
              handed := ?_, accepted := ?_, calls := sending, acks := ?_ }
          · by_contra some
            obtain ⟨taken, received⟩ := Bounded.tryRecv_of_ne_nil some
            have takes : ∃ s', s.step postcard announce resume .backendTakes = .ok s' := by
              change ∃ s', s.backendTakes = .ok s'
              unfold backendTakes
              rw [intact.backend, received]
              exact ⟨_, rfl⟩
            obtain ⟨s', stepped⟩ := takes
            exact rest _ _ rfl stepped
          · rw [coherent.handed, requests, List.filterMap_append,
              (nudges_ofClient announce resume).2, List.nil_append, ordered.events]
          · intro c
            have underWay := ordered.underWay (closed_of_openLink? opened) c
            have none : pending (s.calls c) = [] := by
              cases call : s.calls c with
              | sending request => exact absurd call (sending c request)
              | idle | awaitingAck _ => rfl
            rw [none, List.append_nil] at underWay
            exact underWay.symm
          · intro c ticket awaiting
            by_contra some
            obtain ⟨⟨⟨⟩, after⟩, received⟩ := Bounded.tryRecv_of_ne_nil some
            have acks : ∃ s', s.step postcard announce resume (.acked c) = .ok s' := by
              change ∃ s', s.acked c = .ok s'
              unfold acked
              rw [awaiting, received]
              exact ⟨_, rfl⟩
            obtain ⟨s', stepped⟩ := acks
            exact rest _ _ rfl stepped

/-! ## Going on -/

omit [DecidableEq C] in
private theorem Intact.serve {msg : StructureMessage F} {up : Lane} (intact : Intact s)
    (carriable : Carriable announce resume postcard) (asks : Asks announce resume msg) :
    Intact (({ s with up }).serve postcard announce msg) := by
  cases asks with
  | suspend =>
      obtain ⟨frame, encoded⟩ := carriable.suspendAck.encoded
      unfold Connection.serve answer
      rw [encoded]
      exact { intact with host := nofun }
  | inputEvent event =>
      have own : ({ s with up }).serve postcard announce (.inputEvent announce.id event) =
          { s with up, host := .handing event } := if_pos rfl
      rw [own]
      exact { intact with host := nofun }
  | reconnect _ =>
      obtain ⟨frame, encoded⟩ := carriable.reconnectOk.encoded
      unfold Connection.serve answer
      rw [encoded]
      exact { intact with host := nofun }

omit [DecidableEq C] in
private theorem Intact.clientTakes (intact : Intact s) (carriable : Carriable announce resume postcard)
    (faithful : Lane.Faithful (encodeFrame postcard) (frameDecoder postcard))
    (coherent : Coherent announce postcard resume s g)
    (stepped : s.clientTakes postcard resume = .ok s') : Intact s' := by
  unfold Connection.clientTakes at stepped
  split at stepped
  · rename_i msg consumed decoded
    obtain ⟨later, queued, _⟩ := coherent.down.consume faithful (verdict_eq_message.mpr decoded)
    dsimp only at stepped
    split at stepped
    · rename_i connecting
      cases stepped
      have first : msg = .announce announce := by
        have holds := coherent.client
        rw [connecting] at holds
        cases holds with
        | connecting unread _ _ _ _ _ =>
            have replies := coherent.replies
            rw [unread, queued, List.nil_append] at replies
            cases coherent.answered_or_silent with
            | inl answered =>
                rw [answered] at replies
                exact (List.cons.inj replies).1
            | inr silent =>
                rw [silent.1] at replies
                cases replies
      rw [first]
      unfold announced nudge
      cases resumes : resume with
      | none => exact { intact with client := rfl }
      | some sessionId =>
          obtain ⟨frame, encoded⟩ := (carriable.asked _ (.reconnect resumes)).encoded
          dsimp only
          rw [encoded]
          exact { intact with client := rfl }
    · rename_i connected
      cases stepped
      cases msg with
      | _ => exact { intact with }
    · cases stepped
  · cases stepped

omit [DecidableEq C] in
private theorem Intact.clientWrites {n : Nat} (intact : Intact s)
    (coherent : Coherent announce postcard resume s g)
    (asked : ∀ msg ∈ s.history.enqueued, Asks announce resume msg)
    (stepped : s.clientWrites n = .ok s') : Intact s' := by
  unfold Connection.clientWrites at stepped
  split at stepped
  · obtain ⟨_, rfl⟩ := onlyIf_eq_ok.mp stepped
    split
    · exact { intact with client := rfl }
    · exact { intact with }
  · rename_i linked msg reader writing
    obtain ⟨_, rfl⟩ := onlyIf_eq_ok.mp stepped
    have going := intact.client
    have holds := coherent.client
    rw [writing] at going holds
    split
    · cases reader with
      | ended => cases going
      | running =>
          have asks : Asks announce resume msg := by
            cases holds with
            | writing _ current _ _ => exact coherent.asked asked msg (by simp [current])
          cases asks <;> exact { intact with client := rfl }
    · exact { intact with }
  · cases stepped

/-- Nothing breaks off of itself. -/
theorem Intact.step {action : Action C F} (intact : Intact s) (documented : postcard.Documented)
    (carriable : Carriable announce resume postcard)
    (underway : Underway postcard announce resume s) (going : goesOn action = true)
    (stepped : s.step postcard announce resume action = .ok s') : Intact s' := by
  have faithful := frames_faithful documented.inverts documented.refusesTruncated
  obtain ⟨⟨⟨g, coherent⟩, ordered⟩, asked⟩ := underway
  cases action with
  | hostAnnounces =>
      change s.hostAnnounces postcard announce = .ok s' at stepped
      obtain ⟨frame, encoded⟩ := carriable.announced.encoded
      unfold hostAnnounces at stepped
      rw [encoded] at stepped
      split at stepped <;> cases stepped
      exact { intact with host := nofun }
  | hostWrites n =>
      change s.hostWrites n = .ok s' at stepped
      unfold hostWrites at stepped
      split at stepped
      · obtain ⟨_, rfl⟩ := onlyIf_eq_ok.mp stepped
        split
        · exact { intact with host := nofun }
        · exact { intact with }
      · cases stepped
  | hostReads n =>
      change s.hostReads postcard n = .ok s' at stepped
      unfold hostReads at stepped
      split at stepped
      · obtain ⟨_, rfl⟩ := onlyIf_eq_ok.mp stepped
        exact { intact with }
      · cases stepped
  | hostTakes =>
      change s.hostTakes postcard announce = .ok s' at stepped
      unfold hostTakes at stepped
      split at stepped
      · rename_i msg consumed _ decoded
        cases stepped
        obtain ⟨later, queued, _⟩ := coherent.up.consume faithful (verdict_eq_message.mpr decoded)
        exact intact.serve carriable (coherent.asked asked msg (by simp [queued]))
      · cases stepped
  | hostHands =>
      change s.hostHands announce = .ok s' at stepped
      unfold hostHands at stepped
      split at stepped
      · split at stepped <;> cases stepped
        exact { intact with host := nofun }
      · cases stepped
  | backendTakes =>
      change s.backendTakes = .ok s' at stepped
      unfold backendTakes at stepped
      split at stepped <;> cases stepped
      exact { intact with }
  | clientReads n =>
      obtain ⟨_, rfl⟩ := onlyIf_eq_ok.mp stepped
      exact { intact with }
  | clientTakes => exact intact.clientTakes carriable faithful coherent stepped
  | clientWrites n => exact intact.clientWrites coherent asked stepped
  | writerTakes =>
      change s.writerTakes postcard = .ok s' at stepped
      unfold writerTakes at stepped
      split at stepped
      · rename_i linked reader _ _ receiving _
        have up := intact.client
        rw [receiving] at up
        split at stepped <;> cases stepped
        · cases reader with
          | ended => cases up
          | running => exact { intact with client := rfl }
        · exact { intact with }
      · cases stepped
  | enqueues c =>
      change s.enqueues c = .ok s' at stepped
      unfold enqueues at stepped
      split at stepped
      · split at stepped <;> cases stepped
        exact { intact with }
      · cases stepped
  | acked c =>
      change s.acked c = .ok s' at stepped
      unfold acked at stepped
      split at stepped <;> cases stepped
      exact { intact with }
  | _ => cases going

end

end

end Simulboot.Connection
