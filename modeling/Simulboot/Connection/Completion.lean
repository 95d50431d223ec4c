import Simulboot.Connection.Acknowledgement
import Simulboot.Connection.Quiescence

/-!
# Requests come to an end

From any state in which nothing has broken off the two ends can go on until everything
that was asked for is done, and whichever way they go on, they get there. A Suspend that
is the only one is acknowledged to the call that sent it.
-/

set_option autoImplicit false

namespace Simulboot.Connection

open Library

variable {C F E : Type} [DecidableEq C] {postcard : Postcard (StructureMessage F) E}
  {announce : SurfaceAnnounce} {resume : Option Str} {s s' : Connection C F} {g : InFlight F}

/-! ## Callers -/

private theorem calls_of_step {action : Action C F} {c : C} (other : c ∉ callerOf action)
    (stepped : s.step postcard announce resume action = .ok s') : s'.calls c = s.calls c := by
  have apart : ∀ (d : C) (call : Call F), d ≠ c → (s.setCall d call).calls c = s.calls c := by
    intro d call different
    exact Function.update_of_ne different.symm _ _
  have own : ∀ d, callerOf action = some d → d ≠ c := by
    rintro d caller rfl
    exact other caller
  cases task : ofCaller action with
  | false => rw [(taskStep_of_step task stepped).calls]
  | true =>
      cases action with
      | calls d request =>
          change s.calling d request = .ok s' at stepped
          unfold calling at stepped
          split at stepped <;> cases stepped
          exact apart d _ (own d rfl)
      | enqueues d =>
          change s.enqueues d = .ok s' at stepped
          unfold enqueues at stepped
          split at stepped
          · split at stepped <;> cases stepped
            exact apart d _ (own d rfl)
          · cases stepped
      | refused d =>
          change s.refused d = .ok s' at stepped
          unfold refused at stepped
          split at stepped <;> cases stepped
          exact apart d _ (own d rfl)
      | acked d =>
          change s.acked d = .ok s' at stepped
          unfold acked at stepped
          split at stepped <;> cases stepped
          exact apart d _ (own d rfl)
      | unacked d =>
          change s.unacked d = .ok s' at stepped
          unfold unacked at stepped
          split at stepped <;> cases stepped
          exact apart d _ (own d rfl)
      | _ => cases task

/-- All but these callers are idle. -/
def IdleOutside (callers : Finset C) (s : Connection C F) : Prop :=
  ∀ c ∉ callers, s.calls c = .idle

theorem idleOutside_of_run {actions : List (Action C F)}
    (reached : run postcard announce resume actions = .ok s) :
    IdleOutside (actions.filterMap callerOf).toFinset s := by
  have start : IdleOutside (actions.filterMap callerOf).toFinset (.initial : Connection C F) :=
    fun _ _ => rfl
  refine Run.invariant ?_ start reached
  intro action member before after idle stepped c outside
  rw [calls_of_step ?_ stepped]
  · exact idle c outside
  · intro calls
    exact outside (List.mem_toFinset.mpr (List.mem_filterMap.mpr ⟨action, member, calls⟩))

private theorem IdleOutside.among {callers : Finset C} (idle : IdleOutside callers s) {action : Action C F}
    (going : goesOn action = true) (stepped : s.step postcard announce resume action = .ok s') :
    ∀ c ∈ callerOf action, c ∈ callers := by
  intro c calls
  by_contra outside
  have resting := idle c outside
  cases action with
  | enqueues d =>
      cases calls
      change s.enqueues c = .ok s' at stepped
      unfold enqueues at stepped
      rw [resting] at stepped
      split at stepped
      · rename_i sending
        cases sending
      · cases stepped
  | acked d =>
      cases calls
      change s.acked c = .ok s' at stepped
      unfold acked at stepped
      rw [resting] at stepped
      cases stepped
  | _ => cases going <;> cases calls

/-! ## Going on to the end -/

omit [DecidableEq C] in
private theorem cost_of_goesOn {action : Action C F} (going : goesOn action = true) :
    stepCost postcard announce action = 0 := by
  cases action <;> first | rfl | cases going

omit [DecidableEq C] in
private theorem method_of_goesOn {action : Action C F} (going : goesOn action = true) :
    ∀ c msg, action ≠ .calls c (.post msg) := by
  rintro c msg rfl
  cases going

/-- Where the ends can go on, they come closer to the end. -/
theorem Underway.potential_lt {action : Action C F} {callers : Finset C}
    (underway : Underway postcard announce resume s) (idle : IdleOutside callers s)
    (going : goesOn action = true)
    (stepped : s.step postcard announce resume action = .ok s') :
    potential postcard announce resume callers s' < potential postcard announce resume callers s := by
  obtain ⟨⟨⟨g, coherent⟩, _⟩, _⟩ := underway
  have paid := paid_of_step (idle.among going stepped) (fun linked opened => coherent.linked opened)
    stepped
  rw [cost_of_goesOn going] at paid
  exact paid

theorem IdleOutside.step {action : Action C F} {callers : Finset C} (idle : IdleOutside callers s)
    (going : goesOn action = true)
    (stepped : s.step postcard announce resume action = .ok s') : IdleOutside callers s' := by
  intro c outside
  rw [calls_of_step (fun calls => outside (idle.among going stepped c calls)) stepped]
  exact idle c outside

/-- The ends go on until they are at rest. -/
theorem Underway.exists_rest (documented : postcard.Documented) {callers : Finset C}
    (underway : Underway postcard announce resume s) (idle : IdleOutside callers s) :
    ∃ (more : List (Action C F)) (s' : Connection C F), (∀ action ∈ more, goesOn action = true) ∧
      more.foldlM (Connection.step postcard announce resume) s = .ok s' ∧
        AtRest postcard announce resume s' := by
  refine @Run.exists_rest _ _ _ _
    (fun s => Underway postcard announce resume s ∧ IdleOutside callers s)
    (potential postcard announce resume callers) goesOn ?_ s ⟨underway, idle⟩
  rintro action before after going ⟨underway, idle⟩ stepped
  exact ⟨⟨underway.step documented (method_of_goesOn going) stepped, idle.step going stepped⟩,
    underway.potential_lt idle going stepped⟩

theorem Intact.run (documented : postcard.Documented) (carriable : Carriable announce resume postcard)
    (underway : Underway postcard announce resume s) (intact : Intact s) {more : List (Action C F)}
    (going : ∀ action ∈ more, goesOn action = true)
    (run : more.foldlM (Connection.step postcard announce resume) s = .ok s') :
    Intact s' ∧ Underway postcard announce resume s' := by
  refine @Run.invariant _ _ _ _ (fun s => Intact s ∧ Underway postcard announce resume s) _ _ _ ?_
    ⟨intact, underway⟩ run
  rintro action member before after ⟨intact, underway⟩ stepped
  exact ⟨intact.step documented carriable underway (going action member) stepped,
    underway.step documented (method_of_goesOn (going action member)) stepped⟩

theorem Underway.going_done (documented : postcard.Documented)
    (carriable : Carriable announce resume postcard) (underway : Underway postcard announce resume s)
    (intact : Intact s) {more : List (Action C F)} (going : ∀ action ∈ more, goesOn action = true)
    (run : more.foldlM (Connection.step postcard announce resume) s = .ok s')
    (rest : AtRest postcard announce resume s') : Done announce resume s' := by
  obtain ⟨intact, underway⟩ := intact.run documented carriable underway going run
  exact underway.done documented carriable intact rest

/-- In every state of every run in which nothing has broken off, the two ends can go on until
they are at rest, and however they go on, everything is done once they are. -/
theorem completes (documented : postcard.Documented) (carriable : Carriable announce resume postcard)
    {actions : List (Action C F)} (methods : MethodsOnly actions)
    (reached : Connection.run postcard announce resume actions = .ok s) (intact : Intact s) :
    (∃ more s', (∀ action ∈ more, goesOn action = true) ∧
        Connection.run postcard announce resume (actions ++ more) = .ok s' ∧
          AtRest postcard announce resume s') ∧
      ∀ more s', (∀ action ∈ more, goesOn action = true) →
        Connection.run postcard announce resume (actions ++ more) = .ok s' →
          AtRest postcard announce resume s' → Done announce resume s' := by
  have underway := underway_of_run documented methods reached
  constructor
  · obtain ⟨more, s', going, run, rest⟩ :=
      underway.exists_rest documented (idleOutside_of_run reached)
    exact ⟨more, s', going, Run.append reached run, rest⟩
  · intro more s' going whole rest
    obtain ⟨middle, earlier, run⟩ := Run.append_eq_ok whole
    have same : middle = s := Except.ok.inj (earlier.symm.trans reached)
    subst same
    exact underway.going_done documented carriable intact going run rest

/-! ## The only suspension -/

omit [DecidableEq C] in
/-- No acknowledgement is received without a Suspend that was enqueued. -/
theorem Coherent.acks_le_enqueued (coherent : Coherent announce postcard resume s g) :
    s.history.received.countP isAck ≤ s.history.enqueued.countP isSuspend := by
  have processed := coherent.script.sublist.countP_le (p := isSuspend)
  rw [List.countP_append, nudges_countP, Nat.zero_add] at processed
  exact (coherent.acks_le.trans processed).trans List.filter_sublist.countP_le

/-- One call at most waits for an acknowledgement, and none that was received is lost. -/
structure Lone (s : Connection C F) : Prop where
  owed : s.suspendAck.items.length ≤ s.history.received.countP isAck
  sent : ∀ c ticket, s.calls c = .awaitingAck ticket →
    ∃ earlier later, s.history.enqueued = earlier ++ .suspend :: later ∧ earlier.length + 1 = ticket
  kept : ∀ c ticket, s.calls c = .awaitingAck ticket →
    s.history.received.countP isAck ≤ s.suspendAck.items.length
  single : ∀ c other ticket ticket', s.calls c = .awaitingAck ticket →
    s.calls other = .awaitingAck ticket' → c = other

omit [DecidableEq C] in
private theorem lone_initial : Lone (.initial : Connection C F) :=
  ⟨le_rfl, nofun, nofun, nofun⟩

omit [DecidableEq C] in
private theorem Lone.sent_pos {c : C} {ticket : Nat} (lone : Lone s)
    (awaiting : s.calls c = .awaitingAck ticket) : 0 < s.history.enqueued.countP isSuspend := by
  obtain ⟨earlier, later, enqueued, _⟩ := lone.sent c ticket awaiting
  rw [enqueued]
  exact List.countP_pos_iff.mpr ⟨.suspend, by simp, rfl⟩

omit [DecidableEq C] in
private theorem Lone.unread (lone : Lone s) (calls : s'.calls = s.calls)
    (enqueued : s'.history.enqueued = s.history.enqueued)
    (received : s'.history.received = s.history.received) (acks : s'.suspendAck = s.suspendAck) :
    Lone s' := by
  obtain ⟨owed, sent, kept, single⟩ := lone
  refine ⟨?_, ?_, ?_, ?_⟩
  · rwa [acks, received]
  · rwa [calls, enqueued]
  · rwa [calls, received, acks]
  · rwa [calls]

omit [DecidableEq C] in
private theorem Lone.absorb {msg : StructureMessage F} {down : Lane} (lone : Lone s)
    (few : (s.history.received ++ [msg]).countP isAck ≤ 1) :
    Lone (({ s with
      down, history.received := s.history.received ++ [msg] } : Connection C F).absorb msg) := by
  cases msg with
  | suspendAck =>
      have first : s.history.received.countP isAck = 0 := by
        rw [List.countP_append] at few
        have one : [(.suspendAck : StructureMessage F)].countP isAck = 1 := rfl
        omega
      have none : s.suspendAck.items.length < 1 := by
        have owed := lone.owed
        omega
      obtain ⟨after, taken⟩ := Bounded.trySend_of_lt none ()
      have items := congrArg List.length (Bounded.items_of_trySend taken)
      have counted : (s.history.received ++ [(.suspendAck : StructureMessage F)]).countP isAck = 1 := by
        rw [List.countP_append, first]
        rfl
      rw [List.length_append, List.length_singleton] at items
      unfold Connection.absorb
      dsimp only
      rw [taken]
      exact
        { lone with
          owed := by
            change after.items.length ≤ (s.history.received ++ [_]).countP isAck
            omega
          kept := fun _ _ _ => by
            change (s.history.received ++ [_]).countP isAck ≤ after.items.length
            omega }
  | _ =>
      have same : ∀ other : StructureMessage F, isAck other = false →
          (s.history.received ++ [other]).countP isAck = s.history.received.countP isAck := by
        intro other noAck
        rw [List.countP_append, List.countP_singleton, noAck]
        rfl
      refine { lone with owed := ?_, kept := fun c ticket awaiting => ?_ }
      · change _ ≤ (s.history.received ++ [_]).countP isAck
        rw [same _ rfl]
        exact lone.owed
      · change (s.history.received ++ [_]).countP isAck ≤ _
        rw [same _ rfl]
        exact lone.kept c ticket awaiting

omit [DecidableEq C] in
private theorem Lone.announced {msg : StructureMessage F} (lone : Lone s)
    (unused : s.history.enqueued = []) (calls : s'.calls = s.calls)
    (received : s'.history.received = s.history.received ++ [msg])
    (acks : s'.suspendAck = s.suspendAck) : Lone s' := by
  have nobody : ∀ c ticket, s'.calls c ≠ .awaitingAck ticket := by
    intro c ticket awaiting
    rw [calls] at awaiting
    have sent := lone.sent_pos awaiting
    rw [unused] at sent
    exact Nat.lt_irrefl 0 sent
  refine ⟨?_, fun c ticket awaiting => absurd awaiting (nobody c ticket),
    fun c ticket awaiting => absurd awaiting (nobody c ticket),
    fun c _ ticket _ awaiting => absurd awaiting (nobody c ticket)⟩
  rw [acks, received, List.countP_append]
  exact Nat.le_add_right_of_le lone.owed

omit [DecidableEq C] in
private theorem Lone.clientTakes (lone : Lone s) (coherent : Coherent announce postcard resume s g)
    (stepped : s.clientTakes postcard resume = .ok s')
    (few : s'.history.received.countP isAck ≤ 1) : Lone s' := by
  unfold Connection.clientTakes at stepped
  split at stepped
  · rename_i msg consumed _
    dsimp only at stepped
    split at stepped
    · rename_i connecting
      cases stepped
      have unused : s.history.enqueued = [] := by
        have holds := coherent.client
        rw [connecting] at holds
        cases holds with
        | connecting _ unused _ _ _ _ => exact unused
      unfold Connection.announced
      split
      · unfold nudge
        split
        · exact lone.announced unused rfl rfl rfl
        · split <;> exact lone.announced unused rfl rfl rfl
      · unfold nudge
        split
        · exact lone.announced unused rfl rfl rfl
        · split <;> exact lone.announced unused rfl rfl rfl
      · exact lone.announced unused rfl rfl rfl
    · cases stepped
      refine lone.absorb ?_
      cases msg <;> exact few
    · cases stepped
  · cases stepped

private theorem Lone.setCall {c : C} {call : Call F} {passed : List (C × InputEvent F)} (lone : Lone s)
    (free : ∀ ticket, call ≠ .awaitingAck ticket) :
    Lone { s.setCall c call with history.passed := passed } := by
  have before : ∀ other ticket, (s.setCall c call).calls other = .awaitingAck ticket →
      s.calls other = .awaitingAck ticket := by
    intro other ticket awaiting
    change Function.update s.calls c call other = _ at awaiting
    by_cases own : other = c
    · rw [own, Function.update_self] at awaiting
      exact absurd awaiting (free ticket)
    · rwa [Function.update_of_ne own] at awaiting
  exact
    { owed := lone.owed
      sent := fun other ticket awaiting => lone.sent other ticket (before other ticket awaiting)
      kept := fun other ticket awaiting => lone.kept other ticket (before other ticket awaiting)
      single := fun one other ticket ticket' awaiting also =>
        lone.single one other ticket ticket' (before one ticket awaiting)
          (before other ticket' also) }

private theorem Lone.enqueues {c : C} (lone : Lone s) (ordered : Ordered announce postcard s)
    (coherent : Coherent announce postcard resume s g) (stepped : s.enqueues c = .ok s')
    (few : s'.history.enqueued.countP isSuspend ≤ 1) : Lone s' := by
  unfold Connection.enqueues at stepped
  split at stepped
  · rename_i linked request opened sending
    split at stepped
    · cases stepped
      change (s.history.enqueued ++ [_]).countP isSuspend ≤ 1 at few
      rw [List.countP_append] at few
      cases request with
      | post msg => exact absurd sending (ordered.methods c msg)
      | input event =>
          have set : Lone { s.setCall c .idle with history.passed := s.history.passed } :=
            lone.setCall nofun
          refine { set with sent := fun other ticket awaiting => ?_ }
          obtain ⟨earlier, later, enqueued, numbered⟩ := set.sent other ticket awaiting
          refine ⟨earlier, later ++ [.inputEvent linked.id event], ?_, numbered⟩
          change s.history.enqueued = _ at enqueued
          change s.history.enqueued ++ [.inputEvent linked.id event] = _
          rw [enqueued, List.append_assoc, List.cons_append]
      | suspend =>
          have one : [Request.message linked (.suspend : Request F)].countP isSuspend = 1 := rfl
          have unsent : s.history.enqueued.countP isSuspend = 0 := by omega
          have unread : s.history.received.countP isAck = 0 :=
            Nat.le_zero.mp (coherent.acks_le_enqueued.trans unsent.le)
          have only : ∀ other ticket, Function.update s.calls c
              (sentOn (s.history.enqueued.length + 1) (.suspend : Request F)) other =
                .awaitingAck ticket → other = c := by
            intro other ticket awaiting
            by_contra different
            rw [Function.update_of_ne different] at awaiting
            have sent := lone.sent_pos awaiting
            omega
          refine
            { owed := lone.owed, sent := fun other ticket awaiting => ?_, kept := fun _ _ _ => ?_
              single := fun first other _ _ awaiting also =>
                (only first _ awaiting).trans (only other _ also).symm }
          · change Function.update s.calls c (sentOn (s.history.enqueued.length + 1) .suspend) other =
              _ at awaiting
            rw [only other ticket awaiting, Function.update_self] at awaiting
            cases awaiting
            exact ⟨s.history.enqueued, [], rfl, rfl⟩
          · change s.history.received.countP isAck ≤ _
            rw [unread]
            exact Nat.zero_le _
    · cases stepped
  · cases stepped

private theorem Lone.acked {c : C} (lone : Lone s) (stepped : s.acked c = .ok s') : Lone s' := by
  unfold Connection.acked at stepped
  split at stepped
  · rename_i ticket after awaiting taken
    cases stepped
    have items := congrArg List.length (Bounded.items_of_tryRecv taken)
    rw [List.length_cons] at items
    have fewer : after.items.length ≤ s.suspendAck.items.length := by omega
    have nobody : ∀ other ticket', Function.update s.calls c .idle other ≠ .awaitingAck ticket' := by
      intro other ticket' also
      by_cases own : other = c
      · rw [own, Function.update_self] at also
        cases also
      · rw [Function.update_of_ne own] at also
        exact own (lone.single other c ticket' ticket also awaiting)
    exact ⟨fewer.trans lone.owed, fun other ticket' also => absurd also (nobody other ticket'),
      fun other ticket' also => absurd also (nobody other ticket'),
      fun other _ ticket' _ also => absurd also (nobody other ticket')⟩
  · cases stepped

omit [DecidableEq C] in
private theorem serve_received (msg : StructureMessage F) :
    (s.serve postcard announce msg).history.received = s.history.received ∧
      (s.serve postcard announce msg).suspendAck = s.suspendAck := by
  cases msg with
  | inputEvent sid event =>
      unfold serve
      dsimp only
      split <;> exact ⟨rfl, rfl⟩
  | suspend | reconnect _ =>
      unfold serve answer
      dsimp only
      split <;> exact ⟨rfl, rfl⟩
  | _ => exact ⟨rfl, rfl⟩

private theorem received_of_step {action : Action C F} (task : ofCaller action = false)
    (other : action ≠ .clientTakes)
    (stepped : s.step postcard announce resume action = .ok s') :
    s'.history.received = s.history.received ∧ s'.suspendAck = s.suspendAck := by
  cases action with
  | clientTakes => exact absurd rfl other
  | calls _ _ | enqueues _ | refused _ | acked _ | unacked _ => cases task
  | hostTakes =>
      change s.hostTakes postcard announce = .ok s' at stepped
      unfold hostTakes at stepped
      split at stepped <;> cases stepped
      exact serve_received _
  | hostAnnounces | hostWriteFails | hostHands | hostHandFails | backendTakes | backendEnds
  | clientWriteFails | writerTakes =>
      simp only [Connection.step, hostAnnounces, hostWriteFails, hostHands, hostHandFails,
        backendTakes, backendEnds, clientWriteFails, writerTakes] at stepped
      repeat' split at stepped
      all_goals cases stepped
      all_goals exact ⟨rfl, rfl⟩
  | hostWrites n | hostReads n | hostStopsReading | clientReads n | clientStopsReading
  | clientWrites n =>
      simp only [Connection.step, hostWrites, hostReads, hostStopsReading, clientReads,
        clientStopsReading, clientWrites] at stepped
      repeat' split at stepped
      all_goals first | cases stepped | obtain ⟨_, rfl⟩ := onlyIf_eq_ok.mp stepped
      all_goals exact ⟨rfl, rfl⟩

theorem Lone.step {action : Action C F} (lone : Lone s) (ordered : Ordered announce postcard s)
    (coherent : Coherent announce postcard resume s g)
    (stepped : s.step postcard announce resume action = .ok s')
    (acks : s'.history.received.countP isAck ≤ s'.history.enqueued.countP isSuspend)
    (few : s'.history.enqueued.countP isSuspend ≤ 1) : Lone s' := by
  cases task : ofCaller action with
  | false =>
      have tasks := taskStep_of_step task stepped
      by_cases reads : action = .clientTakes
      · subst reads
        exact lone.clientTakes coherent stepped (acks.trans few)
      · obtain ⟨received, kept⟩ := received_of_step task reads stepped
        exact lone.unread tasks.calls tasks.enqueued received kept
  | true =>
      cases action with
      | calls c request =>
          change s.calling c request = .ok s' at stepped
          unfold calling at stepped
          split at stepped <;> cases stepped
          exact lone.setCall nofun
      | enqueues c => exact lone.enqueues ordered coherent stepped few
      | refused c =>
          change s.refused c = .ok s' at stepped
          unfold refused at stepped
          split at stepped <;> cases stepped
          exact lone.setCall nofun
      | acked c => exact lone.acked stepped
      | unacked c =>
          change s.unacked c = .ok s' at stepped
          unfold unacked at stepped
          split at stepped <;> cases stepped
          exact lone.setCall nofun
      | _ => cases task

private theorem enqueued_of_step {action : Action C F}
    (stepped : s.step postcard announce resume action = .ok s') :
    s.history.enqueued <+: s'.history.enqueued := by
  cases task : ofCaller action with
  | false => exact (taskStep_of_step task stepped).enqueued ▸ List.prefix_rfl
  | true =>
      cases action with
      | calls _ _ | enqueues _ | refused _ | acked _ | unacked _ =>
          simp only [Connection.step, calling, enqueues, refused, acked, unacked] at stepped
          repeat' split at stepped
          all_goals cases stepped
          all_goals first | exact List.prefix_rfl | exact List.prefix_append _ _
      | _ => cases task

/-- Where no more than one Suspend was enqueued, its acknowledgement is not lost. -/
theorem lone_of_run (documented : postcard.Documented) {actions : List (Action C F)}
    (methods : MethodsOnly actions) (reached : run postcard announce resume actions = .ok s)
    (few : s.history.enqueued.countP isSuspend ≤ 1) : Lone s := by
  have faithful := frames_faithful documented.inverts documented.refusesTruncated
  have all : InSession announce postcard resume s ∧
      (s.history.enqueued.countP isSuspend ≤ 1 → Lone s) := by
    refine @Run.invariant _ _ _ _ (fun s : Connection C F => InSession announce postcard resume s ∧
      (s.history.enqueued.countP isSuspend ≤ 1 → Lone s)) _ _ _ ?_
      ⟨⟨⟨_, coherent_initial⟩, ordered_initial⟩, fun _ => lone_initial⟩ reached
    rintro action member before after ⟨⟨⟨g, coherent⟩, ordered⟩, lone⟩ stepped
    have method : ∀ c msg, action ≠ .calls c (.post msg) := by
      rintro c msg rfl
      exact methods c msg member
    obtain ⟨g', coherent'⟩ := coherent.step faithful stepped
    refine ⟨⟨⟨g', coherent'⟩, ordered.step documented coherent method stepped⟩, fun few => ?_⟩
    have earlier : before.history.enqueued.countP isSuspend ≤ 1 :=
      (enqueued_of_step stepped).sublist.countP_le.trans few
    exact (lone earlier).step ordered coherent stepped coherent'.acks_le_enqueued few
  exact all.2 few

omit [DecidableEq C] in
/-- The acknowledgement that the call of the only Suspend takes is its own. -/
theorem Lone.acknowledged (lone : Lone s) (documented : postcard.Documented)
    (coherent : Coherent announce postcard resume s g) {c : C} {ticket : Nat}
    (awaiting : s.calls c = .awaitingAck ticket) (few : s.history.enqueued.countP isSuspend ≤ 1)
    (some : s.suspendAck.items ≠ []) : Acknowledged postcard resume s ticket := by
  obtain ⟨earlier, later, enqueued, numbered⟩ := lone.sent c ticket awaiting
  have one : 0 < s.suspendAck.items.length := List.length_pos_of_ne_nil some
  have processed := one.trans_le (lone.owed.trans coherent.acks_le)
  have first : earlier.countP isSuspend = 0 := by
    rw [enqueued, List.countP_append, List.countP_cons_of_pos rfl] at few
    omega
  have before : (nudges resume ++ earlier.filter (encodes postcard)).countP isSuspend ≤
      earlier.countP isSuspend := by
    rw [List.countP_append, nudges_countP, Nat.zero_add]
    exact List.filter_sublist.countP_le
  refine ⟨earlier, later, enqueued, numbered, processed_of_count coherent.script ?_ (by omega)⟩
  rw [enqueued, List.filter_append,
    List.filter_cons_of_pos (encodes_of_toStdvec documented.suspend), List.append_assoc]
  refine (List.prefix_append_right_inj _).mpr ((List.prefix_append_right_inj _).mpr ?_)
  exact ⟨later.filter (encodes postcard), rfl⟩

/-- A call that waits goes on waiting until it takes an acknowledgement. -/
theorem awaiting_of_going {c : C} {ticket : Nat} {more : List (Action C F)}
    (going : ∀ action ∈ more, goesOn action = true) (untaken : .acked c ∉ more)
    (awaiting : s.calls c = .awaitingAck ticket)
    (run : more.foldlM (Connection.step postcard announce resume) s = .ok s') :
    s'.calls c = .awaitingAck ticket := by
  refine @Run.invariant _ _ _ _ (fun s : Connection C F => s.calls c = .awaitingAck ticket) _ _ _
    ?_ awaiting run
  intro action member before after waiting stepped
  by_cases own : c ∈ callerOf action
  · cases action with
    | enqueues d =>
        cases own
        change before.enqueues c = .ok after at stepped
        unfold enqueues at stepped
        rw [waiting] at stepped
        split at stepped
        · rename_i sending
          cases sending
        · cases stepped
    | acked d =>
        cases own
        exact absurd member untaken
    | calls _ _ | refused _ | unacked _ => cases going _ member
    | _ => cases own
  · rw [calls_of_step own stepped]
    exact waiting

/-- The call that sent the only Suspend returns true, however the two ends go on from a state
in which nothing has broken off. -/
theorem suspend_returns (documented : postcard.Documented)
    (carriable : Carriable announce resume postcard) {actions : List (Action C F)}
    (methods : MethodsOnly actions)
    (reached : Connection.run postcard announce resume actions = .ok s) (intact : Intact s) {c : C}
    {ticket : Nat} (awaiting : s.calls c = .awaitingAck ticket) {more : List (Action C F)}
    (going : ∀ action ∈ more, goesOn action = true)
    (whole : Connection.run postcard announce resume (actions ++ more) = .ok s')
    (rest : AtRest postcard announce resume s')
    (few : s'.history.enqueued.countP isSuspend ≤ 1) : .acked c ∈ more := by
  by_contra untaken
  have all : MethodsOnly (actions ++ more) := by
    intro d msg member
    cases List.mem_append.mp member with
    | inl earlier => exact methods d msg earlier
    | inr later => cases going _ later
  have lone := lone_of_run documented all whole few
  obtain ⟨middle, earlier, run⟩ := Run.append_eq_ok whole
  have same : middle = s := Except.ok.inj (earlier.symm.trans reached)
  subst same
  have underway := underway_of_run documented methods reached
  have done := underway.going_done documented carriable intact going run rest
  have waiting := awaiting_of_going going untaken awaiting run
  have sent := lone.sent_pos waiting
  have kept := lone.kept c ticket waiting
  have acks : s'.history.received.countP isAck = s'.history.enqueued.countP isSuspend := by
    rw [done.received, done.sent, List.countP_cons_of_neg Bool.false_ne_true, countP_replies,
      done.processed, List.countP_append, nudges_countP, Nat.zero_add]
  rw [done.acks c ticket waiting, List.length_nil] at kept
  omega

/-! ## A suspension that completes -/

/-- Empty lanes and channels leave nothing to go on with. -/
theorem atRest_of_empty (client : s.client = .connected announce .receiving .running)
    (host : s.host = .reading) (up : s.up = .empty) (down : s.down = .empty)
    (control : s.control.tryRecv = none) (input : s.input.tryRecv = none)
    (idle : ∀ c, s.calls c = .idle) : AtRest postcard announce resume s := by
  have nothing {n : Nat} {lane : Lane} (empty : lane = .empty) : ¬ Readable lane n := by
    rintro ⟨some, _, available⟩
    rw [empty] at available
    exact absurd (Nat.le_zero.mp available) some.ne'
  have undecoded {lane : Lane} (empty : lane = .empty) :
      decodeFrame postcard lane.buf = .error (.incomplete 4 0) := by
    rw [empty]
    rfl
  intro action s' going stepped
  cases action with
  | hostAnnounces | hostWrites _ | hostHands =>
      simp only [Connection.step, hostAnnounces, hostWrites, hostHands, host] at stepped
      cases stepped
  | hostReads n =>
      simp only [Connection.step, hostReads, host] at stepped
      exact nothing up (onlyIf_eq_ok.mp stepped).1.2
  | hostTakes =>
      simp only [Connection.step, hostTakes, host, undecoded up] at stepped
      cases stepped
  | backendTakes =>
      simp only [Connection.step, backendTakes, input] at stepped
      split at stepped
      · rename_i taken
        cases taken
      · cases stepped
  | clientReads n => exact nothing down (onlyIf_eq_ok.mp stepped).1.2.2
  | clientTakes =>
      simp only [Connection.step, clientTakes, undecoded down] at stepped
      cases stepped
  | clientWrites n =>
      simp only [Connection.step, clientWrites, client] at stepped
      cases stepped
  | writerTakes =>
      simp only [Connection.step, writerTakes, client, control] at stepped
      cases stepped
  | enqueues c =>
      simp only [Connection.step, enqueues, idle] at stepped
      split at stepped
      · rename_i sending
        cases sending
      · cases stepped
  | acked c =>
      simp only [Connection.step, acked, idle] at stepped
      cases stepped
  | _ => cases going

theorem carriable_sample : Carriable (F := UInt32) sampleAnnounce none
    (StructureMessage.postcard Library.Postcard.Format.f32) where
  asked msg asks := by
    cases asks with
    | suspend => exact ⟨_, rfl, by decide⟩
    | inputEvent event =>
        obtain ⟨body, serialised⟩ := StructureMessage.write_inputEvent
          Library.Postcard.Format.total_f32 sampleAnnounce.id event
        have short := StructureMessage.length_inputEvent Library.Postcard.Format.atMost_f32 serialised
        exact ⟨body, serialised, short.trans (by decide)⟩
    | reconnect resumes => cases resumes
  announced := ⟨_, rfl, by decide⟩
  reconnectOk := ⟨_, rfl, by decide⟩
  suspendAck := ⟨_, rfl, by decide⟩

theorem suspension_completes :
    ∃ s, run (StructureMessage.postcard Library.Postcard.Format.f32) sampleAnnounce none
        (linking ++ suspending) = .ok s ∧
      ∃ more s', (∀ action ∈ more, goesOn action = true) ∧
        run (StructureMessage.postcard Library.Postcard.Format.f32) sampleAnnounce none
          (linking ++ suspending ++ more) = .ok s' ∧ Done sampleAnnounce none s' := by
  have methods : MethodsOnly (linking ++ suspending) := by
    intro c msg member
    simp [linking, suspending] at member
  have done : (run (StructureMessage.postcard Library.Postcard.Format.f32) sampleAnnounce none
      (linking ++ suspending)).map (fun s => (s.host, s.backend, undisturbed s.client)) =
        .ok (.reading, .running, true) := by decide
  cases reached : run (StructureMessage.postcard Library.Postcard.Format.f32) sampleAnnounce none
      (linking ++ suspending) with
  | error e =>
      rw [reached] at done
      cases done
  | ok s =>
      rw [reached] at done
      obtain ⟨host, done⟩ := Prod.mk.inj (Except.ok.inj done)
      obtain ⟨backend, client⟩ := Prod.mk.inj done
      have intact : Intact s := ⟨host ▸ nofun, backend, client⟩
      obtain ⟨⟨more, s', going, whole, rest⟩, all⟩ :=
        completes documented_f32 carriable_sample methods reached intact
      exact ⟨s, rfl, more, s', going, whole, all more s' going whole rest⟩

/-- What is left of the run when the call of the only Suspend waits. -/
theorem suspension_returns :
    ∃ s s', run (StructureMessage.postcard Library.Postcard.Format.f32) sampleAnnounce none
        (linking ++ suspending) = .ok s ∧
      run (StructureMessage.postcard Library.Postcard.Format.f32) sampleAnnounce none
        (linking ++ suspending ++ (acknowledging ++ [.acked ()])) = .ok s' ∧
      s.calls () = .awaitingAck 1 ∧
      AtRest (StructureMessage.postcard Library.Postcard.Format.f32) sampleAnnounce none s' ∧
      .acked () ∈ acknowledging ++ [.acked ()] := by
  have methods : MethodsOnly (linking ++ suspending) := by
    intro c msg member
    simp [linking, suspending] at member
  have before : (run (StructureMessage.postcard Library.Postcard.Format.f32) sampleAnnounce none
      (linking ++ suspending)).map (fun s => (s.host, s.backend, undisturbed s.client, s.calls ())) =
        .ok (.reading, .running, true, .awaitingAck 1) := by decide
  have ends : (run (StructureMessage.postcard Library.Postcard.Format.f32) sampleAnnounce none
      (linking ++ suspending ++ (acknowledging ++ [.acked ()]))).map
        (fun s => (s.client, s.host, s.up, s.down)) =
      .ok (.connected sampleAnnounce .receiving .running, .reading, .empty, .empty) := by decide
  have channels : (run (StructureMessage.postcard Library.Postcard.Format.f32) sampleAnnounce none
      (linking ++ suspending ++ (acknowledging ++ [.acked ()]))).map
        (fun s => (s.control.tryRecv.isNone, s.input.tryRecv.isNone, s.calls (),
          s.history.enqueued)) =
      .ok (true, true, .idle, [.suspend]) := by decide
  have going : ∀ action ∈ acknowledging ++ [.acked ()], goesOn action = true := by decide
  cases reached : run (StructureMessage.postcard Library.Postcard.Format.f32) sampleAnnounce none
      (linking ++ suspending) with
  | error e =>
      rw [reached] at before
      cases before
  | ok s =>
      cases whole : run (StructureMessage.postcard Library.Postcard.Format.f32) sampleAnnounce none
          (linking ++ suspending ++ (acknowledging ++ [.acked ()])) with
      | error e =>
          rw [whole] at ends
          cases ends
      | ok s' =>
          rw [reached] at before
          rw [whole] at ends channels
          obtain ⟨host, before⟩ := Prod.mk.inj (Except.ok.inj before)
          obtain ⟨backend, before⟩ := Prod.mk.inj before
          obtain ⟨client, awaiting⟩ := Prod.mk.inj before
          obtain ⟨linked, ends⟩ := Prod.mk.inj (Except.ok.inj ends)
          obtain ⟨reading, ends⟩ := Prod.mk.inj ends
          obtain ⟨up, down⟩ := Prod.mk.inj ends
          obtain ⟨control, channels⟩ := Prod.mk.inj (Except.ok.inj channels)
          obtain ⟨input, channels⟩ := Prod.mk.inj channels
          obtain ⟨idle, enqueued⟩ := Prod.mk.inj channels
          have rest : AtRest (StructureMessage.postcard Library.Postcard.Format.f32) sampleAnnounce
              none s' := atRest_of_empty linked reading up down
              (Option.isNone_iff_eq_none.mp control) (Option.isNone_iff_eq_none.mp input)
              fun _ => idle
          have few : s'.history.enqueued.countP isSuspend ≤ 1 := by
            rw [enqueued]
            decide
          exact ⟨s, s', rfl, rfl, awaiting, rest,
            suspend_returns documented_f32 carriable_sample methods reached
              ⟨host ▸ nofun, backend, client⟩ awaiting going whole rest few⟩

end Simulboot.Connection
