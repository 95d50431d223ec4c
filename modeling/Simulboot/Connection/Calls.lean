import Simulboot.Connection

/-!
# Calls and tasks

What the tasks at both ends leave of the calls on a link, and what the calls do:
the events of one caller reach the control channel in the order of its calls.
-/

set_option autoImplicit false

namespace Simulboot.Connection

open Library

variable {C F E : Type}

/-! ## Steps of the tasks -/

/-- Whether the control channel has lost its receiver, or will never have one. -/
def closed : ClientTask F → Bool
  | .connected _ .ended _ | .failed => true
  | .connecting | .nudging _ | .connected _ .receiving _ | .connected _ (.writing _) _ => false

/-- No task touches a call, and only the reader task reads for the client. -/
structure TaskStep (s s' : Connection C F) : Prop where
  calls : s'.calls = s.calls
  passed : s'.history.passed = s.history.passed
  accepted : s'.history.accepted = s.history.accepted
  enqueued : s'.history.enqueued = s.history.enqueued
  shut : closed s.client = true → closed s'.client = true
  reader :
    s'.history.received = s.history.received ∧ s'.suspendAck = s.suspendAck ∨
      ∃ msg, s'.history.received = s.history.received ++ [msg] ∧
        (s'.suspendAck = s.suspendAck ∨ msg = .suspendAck)

variable {postcard : Postcard (StructureMessage F) E} {announce : SurfaceAnnounce}
  {resume : Option Str} {s s' : Connection C F}

theorem TaskStep.ofHost {down up : Lane} {host : HostTask F} {input : Bounded 64 (InputEvent F)}
    {backend : Task} {processed sent hostIgnored : List (StructureMessage F)}
    {handed : List (InputEvent F)} :
    TaskStep s { s with
      down, up, host, input, backend
      history.processed := processed
      history.sent := sent
      history.handed := handed
      history.hostIgnored := hostIgnored } :=
  ⟨rfl, rfl, rfl, rfl, id, .inl ⟨rfl, rfl⟩⟩

theorem taskStep_answer (up : Lane) (request reply : StructureMessage F) :
    TaskStep s ({ s with up }.answer postcard request reply) := by
  unfold answer
  split <;> exact .ofHost

theorem taskStep_serve (up : Lane) (msg : StructureMessage F) :
    TaskStep s ({ s with up }.serve postcard announce msg) := by
  cases msg with
  | inputEvent sid event =>
      change TaskStep s (if sid = announce.id then _ else _)
      split <;> exact .ofHost
  | suspend => exact taskStep_answer ..
  | reconnect _ => exact taskStep_answer ..
  | announce _ | suspendAck | reconnectOk _ | reconnectFail _ | resize _ _ _ | disconnect =>
      exact .ofHost

theorem TaskStep.ofClient {client : ClientTask F} {control : Bounded 64 (StructureMessage F)}
    {up down : Lane} (shuts : closed s.client = true → closed client = true) :
    TaskStep s { s with client, control, up, down } :=
  ⟨rfl, rfl, rfl, rfl, shuts, .inl ⟨rfl, rfl⟩⟩

theorem TaskStep.ofRead {client : ClientTask F} {up down : Lane} {msg : StructureMessage F}
    {suspendAck : Bounded 1 Unit} {clientIgnored : List (StructureMessage F)}
    (shuts : closed s.client = true → closed client = true)
    (noted : suspendAck = s.suspendAck ∨ msg = .suspendAck) :
    TaskStep s { s with
      client, up, down, suspendAck
      history.received := s.history.received ++ [msg]
      history.clientIgnored := clientIgnored } :=
  ⟨rfl, rfl, rfl, rfl, shuts, .inr ⟨msg, rfl, noted⟩⟩

theorem taskStep_clientTakes (stepped : s.clientTakes postcard resume = .ok s') : TaskStep s s' := by
  unfold clientTakes at stepped
  split at stepped
  · rename_i msg consumed _
    dsimp only at stepped
    split at stepped
    · rename_i connecting
      cases stepped
      have shuts {client : ClientTask F} : closed s.client = true → closed client = true := by
        rw [connecting]
        intro shut
        cases shut
      have nudged (linked : SurfaceAnnounce) :
          TaskStep s ({ s with
            down := s.down.consume consumed
            history.received := s.history.received ++ [msg] }.nudge postcard resume linked) := by
        unfold nudge
        split
        · exact .ofRead shuts (.inl rfl)
        · split <;> exact .ofRead shuts (.inl rfl)
      unfold announced
      split
      · exact nudged _
      · exact nudged _
      · exact .ofRead shuts (.inl rfl)
    · cases stepped
      unfold absorb
      split
      · exact .ofRead id (.inr rfl)
      · exact .ofRead id (.inl rfl)
      · exact .ofRead id (.inl rfl)
      · exact .ofRead id (.inl rfl)
    · cases stepped
  · cases stepped

/-- The actions of the callers; all others are those of tasks. -/
def ofCaller : Action C F → Bool
  | .calls _ _ | .enqueues _ | .refused _ | .acked _ | .unacked _ => true
  | _ => false

variable [DecidableEq C]

theorem taskStep_of_step {action : Action C F} (task : ofCaller action = false)
    (stepped : s.step postcard announce resume action = .ok s') : TaskStep s s' := by
  cases action with
  | calls _ _ | enqueues _ | refused _ | acked _ | unacked _ => cases task
  | hostAnnounces =>
      change s.hostAnnounces postcard announce = .ok s' at stepped
      unfold hostAnnounces at stepped
      split at stepped
      · split at stepped <;> cases stepped <;> exact .ofHost
      · cases stepped
  | hostWrites n =>
      change s.hostWrites n = .ok s' at stepped
      unfold hostWrites at stepped
      split at stepped
      · obtain ⟨_, rfl⟩ := onlyIf_eq_ok.mp stepped
        split <;> exact .ofHost
      · cases stepped
  | hostWriteFails =>
      change s.hostWriteFails = .ok s' at stepped
      unfold hostWriteFails at stepped
      split at stepped <;> cases stepped
      exact .ofHost
  | hostReads n =>
      change s.hostReads postcard n = .ok s' at stepped
      unfold hostReads at stepped
      split at stepped
      · obtain ⟨_, rfl⟩ := onlyIf_eq_ok.mp stepped
        exact .ofHost
      · cases stepped
  | hostTakes =>
      change s.hostTakes postcard announce = .ok s' at stepped
      unfold hostTakes at stepped
      split at stepped <;> cases stepped
      exact taskStep_serve ..
  | hostStopsReading =>
      change s.hostStopsReading postcard = .ok s' at stepped
      unfold hostStopsReading at stepped
      split at stepped
      · obtain ⟨_, rfl⟩ := onlyIf_eq_ok.mp stepped
        exact .ofHost
      · cases stepped
  | hostHands =>
      change s.hostHands announce = .ok s' at stepped
      unfold hostHands at stepped
      split at stepped
      · split at stepped <;> cases stepped
        exact .ofHost
      · cases stepped
  | hostHandFails =>
      change s.hostHandFails = .ok s' at stepped
      unfold hostHandFails at stepped
      split at stepped <;> cases stepped
      exact .ofHost
  | backendTakes =>
      change s.backendTakes = .ok s' at stepped
      unfold backendTakes at stepped
      split at stepped <;> cases stepped
      exact .ofHost
  | backendEnds =>
      cases stepped
      exact .ofHost
  | clientReads n =>
      obtain ⟨_, rfl⟩ := onlyIf_eq_ok.mp stepped
      exact .ofClient id
  | clientTakes => exact taskStep_clientTakes stepped
  | clientStopsReading =>
      change s.clientStopsReading postcard = .ok s' at stepped
      unfold clientStopsReading at stepped
      split at stepped
      · obtain ⟨_, rfl⟩ := onlyIf_eq_ok.mp stepped
        exact .ofClient fun _ => rfl
      · rename_i writer connected
        obtain ⟨_, rfl⟩ := onlyIf_eq_ok.mp stepped
        refine .ofClient ?_
        rw [connected]
        cases writer <;> exact id
      · cases stepped
  | clientWrites n =>
      change s.clientWrites n = .ok s' at stepped
      unfold clientWrites at stepped
      split at stepped
      · rename_i nudging
        obtain ⟨_, rfl⟩ := onlyIf_eq_ok.mp stepped
        split
        · refine .ofClient ?_
          rw [nudging]
          exact id
        · exact .ofClient id
      · rename_i writing
        obtain ⟨_, rfl⟩ := onlyIf_eq_ok.mp stepped
        split
        · refine .ofClient ?_
          rw [writing]
          intro shut
          cases shut
        · exact .ofClient id
      · cases stepped
  | clientWriteFails =>
      change s.clientWriteFails = .ok s' at stepped
      unfold clientWriteFails at stepped
      split at stepped <;> cases stepped
      · exact .ofClient fun _ => rfl
      · exact .ofClient fun _ => rfl
  | writerTakes =>
      change s.writerTakes postcard = .ok s' at stepped
      unfold writerTakes at stepped
      split at stepped
      · rename_i receiving _
        split at stepped <;> cases stepped
        · refine .ofClient ?_
          rw [receiving]
          exact id
        · exact .ofClient id
      · cases stepped

end Simulboot.Connection
