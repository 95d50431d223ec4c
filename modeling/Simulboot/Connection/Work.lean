import Mathlib.Algebra.BigOperators.Group.Finset.Basic
import Simulboot.Connection.Conformance

/-!
# The work behind a call

No message keeps the two ends busy for ever. Every step of a connection is paid for by
the call that set it off, so that a run is no longer than its calls allow.
-/

set_option autoImplicit false

namespace Simulboot.Connection

open Library

variable {C F E : Type}

/-! ## Prices -/

section

variable (postcard : Postcard (StructureMessage F) E) (announce : SurfaceAnnounce)

def frameSize (msg : StructureMessage F) : Nat :=
  match encodeFrame postcard msg with
  | .ok frame => frame.length
  | .error _ => 0

/-- What a byte in the buffer of the host can cost: a whole reply, at most. -/
def requestUnit : Nat :=
  4 * (frameSize postcard .suspendAck + frameSize postcard (.reconnectOk announce)) + 4

def messageWork (msg : StructureMessage F) : Nat :=
  (requestUnit postcard announce + 2) * frameSize postcard msg + 1

def callWork : Call F → Nat
  | .idle => 0
  | .sending request => messageWork postcard announce (request.message announce) + 2
  | .awaitingAck _ => 1

def hostWork : HostTask F → Nat
  | .starting => 4 * frameSize postcard (.announce announce) + 4
  | .writing _ _ | .reading => 1
  | .handing _ => 3
  | .ended => 0

def writerWork : WriterTask F → Nat
  | .receiving | .writing _ => 1
  | .ended => 0

def readerWork : Task → Nat
  | .running => 1
  | .ended => 0

/-- What the Reconnect of a resumed session costs. -/
def nudgeWork (resume : Option Str) : Nat :=
  Run.budget (messageWork postcard announce) (nudges resume)

def clientWork (resume : Option Str) : ClientTask F → Nat
  | .connecting => nudgeWork postcard announce resume + 4
  | .nudging _ => 3
  | .connected _ writer reader => writerWork writer + readerWork reader
  | .failed => 0

variable (resume : Option Str)

/-- What is left to do in a state, for all but the calls that are to come. -/
def potential (callers : Finset C) (s : Connection C F) : Nat :=
  clientWork postcard announce resume s.client + hostWork postcard announce s.host +
    s.up.work (requestUnit postcard announce) + s.down.work 2 +
    Run.budget (messageWork postcard announce) s.control.items + s.input.items.length +
    s.suspendAck.items.length + ∑ c ∈ callers, callWork postcard announce (s.calls c)

/-- What a step adds to the work: a call its message, and the end of the backend itself. -/
def stepCost : Action C F → Nat
  | .calls _ request => callWork postcard announce (.sending request) + 1
  | .backendEnds => 1
  | _ => 0

end

def callerOf : Action C F → Option C
  | .calls c _ | .enqueues c | .refused c | .acked c | .unacked c => some c
  | _ => none

variable {postcard : Postcard (StructureMessage F) E} {announce : SurfaceAnnounce}
  {resume : Option Str} {callers : Finset C} {s s' : Connection C F}

private theorem frameSize_of_ok {msg : StructureMessage F} {frame : Bytes}
    (encoded : encodeFrame postcard msg = .ok frame) :
    frameSize postcard msg = frame.length := by
  unfold frameSize
  rw [encoded]

/-! ## Steps of the host -/

private theorem paid_answer (request reply : StructureMessage F)
    (owed : reply = .suspendAck ∨ reply = .reconnectOk announce) (up : Lane)
    (reading : s.host = .reading)
    (used : up.work (requestUnit postcard announce) + requestUnit postcard announce ≤
      s.up.work (requestUnit postcard announce)) :
    potential postcard announce resume callers (({ s with up }).answer postcard request reply) + 1 ≤
      potential postcard announce resume callers s := by
  have small : 4 * frameSize postcard reply + 4 ≤ requestUnit postcard announce := by
    unfold requestUnit
    rcases owed with rfl | rfl <;> omega
  unfold answer
  split
  · rename_i frame encoded
    have started := Lane.work_start s.down 2 frame
    rw [frameSize_of_ok encoded] at small
    simp only [potential, hostWork, reading]
    omega
  · simp only [potential, hostWork, reading]
    omega

private theorem paid_serve {msg : StructureMessage F} {up : Lane} (reading : s.host = .reading)
    (used : up.work (requestUnit postcard announce) + requestUnit postcard announce ≤
      s.up.work (requestUnit postcard announce)) :
    potential postcard announce resume callers (({ s with up }).serve postcard announce msg) + 1 ≤
      potential postcard announce resume callers s := by
  have unit : 4 ≤ requestUnit postcard announce := Nat.le_add_left 4 _
  unfold serve
  cases msg with
  | suspend => exact paid_answer _ _ (.inl rfl) up reading used
  | reconnect sessionId => exact paid_answer _ _ (.inr rfl) up reading used
  | inputEvent sid event =>
      dsimp only
      split <;> simp only [potential, hostWork, process, reading] <;> omega
  | _ =>
      simp only [potential, hostWork, process, reading]
      omega

private theorem paid_hostTakes (stepped : s.hostTakes postcard announce = .ok s') :
    potential postcard announce resume callers s' + 1 ≤
      potential postcard announce resume callers s := by
  unfold hostTakes at stepped
  split at stepped
  · rename_i reading decoded
    cases stepped
    obtain ⟨some, available⟩ := decodeFrame_consumes decoded
    exact paid_serve reading (Lane.work_consume _ some available)
  · cases stepped

private theorem paid_hostAnnounces (stepped : s.hostAnnounces postcard announce = .ok s') :
    potential postcard announce resume callers s' + 1 ≤
      potential postcard announce resume callers s := by
  unfold hostAnnounces at stepped
  split at stepped
  · rename_i starting
    split at stepped
    · rename_i frame encoded
      cases stepped
      have started := Lane.work_start s.down 2 frame
      simp only [potential, hostWork, starting, frameSize_of_ok encoded]
      omega
    · cases stepped
      simp only [potential, hostWork, starting]
      omega
  · cases stepped

private theorem paid_hostWrites {n : Nat} (stepped : s.hostWrites n = .ok s') :
    potential postcard announce resume callers s' + 1 ≤
      potential postcard announce resume callers s := by
  unfold hostWrites at stepped
  split at stepped
  · rename_i writing
    obtain ⟨⟨some, available⟩, rfl⟩ := onlyIf_eq_ok.mp stepped
    have pushed := Lane.work_push 2 available
    split <;> simp only [potential, hostWork, writing] <;> omega
  · cases stepped

private theorem paid_hostHands (stepped : s.hostHands announce = .ok s') :
    potential postcard announce resume callers s' + 1 ≤
      potential postcard announce resume callers s := by
  unfold hostHands at stepped
  split at stepped
  · rename_i handing _
    split at stepped
    · rename_i input sent
      cases stepped
      have items := congrArg List.length (Bounded.items_of_trySend sent)
      rw [List.length_append, List.length_singleton] at items
      simp only [potential, hostWork, handing]
      omega
    · cases stepped
  · cases stepped

private theorem paid_hostWriteFails (stepped : s.hostWriteFails = .ok s') :
    potential postcard announce resume callers s' + 1 ≤
      potential postcard announce resume callers s := by
  unfold hostWriteFails at stepped
  split at stepped
  · rename_i writing
    cases stepped
    simp only [potential, hostWork, writing]
    omega
  · cases stepped

private theorem paid_hostReads {n : Nat} (stepped : s.hostReads postcard n = .ok s') :
    potential postcard announce resume callers s' + 1 ≤
      potential postcard announce resume callers s := by
  unfold hostReads at stepped
  split at stepped
  · obtain ⟨⟨_, some, _, available⟩, rfl⟩ := onlyIf_eq_ok.mp stepped
    have pulled := Lane.work_pull (requestUnit postcard announce) available
    simp only [potential]
    omega
  · cases stepped

private theorem paid_hostStopsReading (stepped : s.hostStopsReading postcard = .ok s') :
    potential postcard announce resume callers s' + 1 ≤
      potential postcard announce resume callers s := by
  unfold hostStopsReading at stepped
  split at stepped
  · rename_i reading
    obtain ⟨_, rfl⟩ := onlyIf_eq_ok.mp stepped
    simp only [potential, hostWork, reading]
    omega
  · cases stepped

private theorem paid_hostHandFails (stepped : s.hostHandFails = .ok s') :
    potential postcard announce resume callers s' + 1 ≤
      potential postcard announce resume callers s := by
  unfold hostHandFails at stepped
  split at stepped
  · rename_i handing _
    cases stepped
    simp only [potential, hostWork, handing]
    omega
  · cases stepped

private theorem paid_backendTakes (stepped : s.backendTakes = .ok s') :
    potential postcard announce resume callers s' + 1 ≤
      potential postcard announce resume callers s := by
  unfold backendTakes at stepped
  split at stepped
  · rename_i taken
    cases stepped
    have items := congrArg List.length (Bounded.items_of_tryRecv taken)
    rw [List.length_cons] at items
    simp only [potential]
    omega
  · cases stepped

/-! ## Steps of the client -/

private theorem paid_nudge (linked : SurfaceAnnounce) {down : Lane} {received : List (StructureMessage F)}
    (connecting : s.client = .connecting) (used : down.work 2 + 2 ≤ s.down.work 2) :
    potential postcard announce resume callers
        (({ s with down, history.received := received }).nudge postcard resume linked) + 1 ≤
      potential postcard announce resume callers s := by
  unfold nudge
  cases resume with
  | none =>
      simp only [potential, clientWork, nudgeWork, writerWork, readerWork, connecting]
      omega
  | some sessionId =>
      dsimp only
      split
      · rename_i frame encoded
        have started := Lane.work_start s.up (requestUnit postcard announce) frame
        simp only [potential, clientWork, nudgeWork, nudges, Option.map_some, Option.toList_some,
          Run.budget, messageWork, frameSize_of_ok encoded, connecting]
        omega
      · simp only [potential, clientWork, connecting]
        omega

private theorem paid_clientReads {n : Nat} (stepped : s.clientReads postcard n = .ok s') :
    potential postcard announce resume callers s' + 1 ≤
      potential postcard announce resume callers s := by
  obtain ⟨⟨_, _, some, _, available⟩, rfl⟩ := onlyIf_eq_ok.mp stepped
  have pulled := Lane.work_pull 2 available
  simp only [potential]
  omega

private theorem paid_absorb {msg : StructureMessage F} {down : Lane} {received : List (StructureMessage F)}
    (used : down.work 2 + 2 ≤ s.down.work 2) :
    potential postcard announce resume callers
        (({ s with down, history.received := received }).absorb msg) + 1 ≤
      potential postcard announce resume callers s := by
  cases msg with
  | suspendAck =>
      have acks : ((s.suspendAck.trySend ()).getD s.suspendAck).items.length ≤
          s.suspendAck.items.length + 1 := by
        cases sent : s.suspendAck.trySend () with
        | none => exact Nat.le_succ _
        | some after =>
            have items := congrArg List.length (Bounded.items_of_trySend sent)
            rw [List.length_append, List.length_singleton] at items
            exact items.le
      simp only [absorb, potential]
      omega
  | _ =>
      simp only [absorb, potential]
      omega

private theorem paid_clientTakes (stepped : s.clientTakes postcard resume = .ok s') :
    potential postcard announce resume callers s' + 1 ≤
      potential postcard announce resume callers s := by
  unfold clientTakes at stepped
  split at stepped
  · rename_i msg consumed decoded
    obtain ⟨some, available⟩ := decodeFrame_consumes decoded
    have used := Lane.work_consume 2 some available
    dsimp only at stepped
    split at stepped
    · rename_i connecting
      cases stepped
      unfold announced
      split
      · exact paid_nudge _ connecting used
      · exact paid_nudge _ connecting used
      · simp only [potential, clientWork, connecting]
        omega
    · cases stepped
      exact paid_absorb used
    · cases stepped
  · cases stepped

private theorem paid_clientStopsReading (stepped : s.clientStopsReading postcard = .ok s') :
    potential postcard announce resume callers s' + 1 ≤
      potential postcard announce resume callers s := by
  unfold clientStopsReading at stepped
  split at stepped
  · rename_i connecting
    obtain ⟨_, rfl⟩ := onlyIf_eq_ok.mp stepped
    simp only [potential, clientWork, connecting]
    omega
  · rename_i connected
    obtain ⟨_, rfl⟩ := onlyIf_eq_ok.mp stepped
    simp only [potential, clientWork, readerWork, connected]
    omega
  · cases stepped

private theorem paid_clientWrites {n : Nat} (stepped : s.clientWrites n = .ok s') :
    potential postcard announce resume callers s' + 1 ≤
      potential postcard announce resume callers s := by
  unfold clientWrites at stepped
  split at stepped
  · rename_i nudging
    obtain ⟨⟨some, available⟩, rfl⟩ := onlyIf_eq_ok.mp stepped
    have pushed := Lane.work_push (requestUnit postcard announce) available
    split <;> simp only [potential, clientWork, writerWork, readerWork, nudging] <;> omega
  · rename_i msg _ writing
    obtain ⟨⟨some, available⟩, rfl⟩ := onlyIf_eq_ok.mp stepped
    have pushed := Lane.work_push (requestUnit postcard announce) available
    have before : writerWork (.writing msg) = 1 := rfl
    have ends : writerWork (wrote msg) ≤ 1 := by
      unfold wrote
      split
      · exact Nat.zero_le 1
      · exact le_rfl
    split <;> simp only [potential, clientWork, writing] <;> omega
  · cases stepped

private theorem paid_clientWriteFails (stepped : s.clientWriteFails = .ok s') :
    potential postcard announce resume callers s' + 1 ≤
      potential postcard announce resume callers s := by
  unfold clientWriteFails at stepped
  split at stepped
  · rename_i nudging
    cases stepped
    simp only [potential, clientWork, nudging]
    omega
  · rename_i writing
    cases stepped
    simp only [potential, clientWork, writerWork, writing]
    omega
  · cases stepped

private theorem paid_writerTakes (stepped : s.writerTakes postcard = .ok s') :
    potential postcard announce resume callers s' + 1 ≤
      potential postcard announce resume callers s := by
  unfold writerTakes at stepped
  split at stepped
  · rename_i receiving taken
    have items := congrArg (Run.budget (messageWork postcard announce))
      (Bounded.items_of_tryRecv taken)
    rw [Run.budget, messageWork] at items
    split at stepped
    · rename_i frame encoded
      cases stepped
      have started := Lane.work_start s.up (requestUnit postcard announce) frame
      rw [frameSize_of_ok encoded] at items
      simp only [potential, clientWork, writerWork, receiving]
      omega
    · cases stepped
      simp only [potential, receiving]
      omega
  · cases stepped

/-! ## Steps of the calls -/

section

variable [DecidableEq C]

/-- Setting one call changes the work by what the call is about. -/
theorem sum_setCall (postcard : Postcard (StructureMessage F) E) (announce : SurfaceAnnounce)
    (s : Connection C F) {c : C} (among : c ∈ callers) (call : Call F) :
    (∑ other ∈ callers, callWork postcard announce (Function.update s.calls c call other)) +
        callWork postcard announce (s.calls c) =
      (∑ other ∈ callers, callWork postcard announce (s.calls other)) +
        callWork postcard announce call := by
  have others : ∀ other ∈ callers.erase c,
      callWork postcard announce (Function.update s.calls c call other) =
        callWork postcard announce (s.calls other) := by
    intro other member
    rw [Function.update_of_ne (Finset.ne_of_mem_erase member)]
  rw [← Finset.add_sum_erase callers _ among, ← Finset.add_sum_erase callers _ among,
    Finset.sum_congr rfl others, Function.update_self]
  omega

private theorem paid_calling {c : C} {request : Request F} (among : c ∈ callers)
    (stepped : s.calling c request = .ok s') :
    potential postcard announce resume callers s' + 1 ≤
      potential postcard announce resume callers s +
        stepCost postcard announce (.calls c request) := by
  unfold calling at stepped
  split at stepped
  · rename_i idle
    cases stepped
    have set := sum_setCall postcard announce s among (.sending request)
    have free : callWork postcard announce (.idle : Call F) = 0 := rfl
    rw [idle, free] at set
    simp only [potential, setCall, stepCost]
    omega
  · cases stepped

private theorem paid_enqueues {c : C} (among : c ∈ callers)
    (linked : ∀ linked, openLink? s.client = some linked → linked = announce)
    (stepped : s.enqueues c = .ok s') :
    potential postcard announce resume callers s' + 1 ≤
      potential postcard announce resume callers s := by
  unfold enqueues at stepped
  split at stepped
  · rename_i opener request opened sending
    split at stepped
    · rename_i control sent
      cases stepped
      obtain rfl := linked opener opened
      have items := congrArg (Run.budget (messageWork postcard opener))
        (Bounded.items_of_trySend sent)
      rw [Run.budget_append, Run.budget, Run.budget] at items
      have set := sum_setCall postcard opener s among
        (sentOn (s.history.enqueued.length + 1) request)
      have waits : callWork postcard opener (sentOn (s.history.enqueued.length + 1) request) ≤ 1 := by
        cases request <;> simp [sentOn, callWork]
      have paying : callWork postcard opener (.sending request) =
        messageWork postcard opener (request.message opener) + 2 := rfl
      rw [sending, paying] at set
      simp only [potential, setCall]
      omega
    · cases stepped
  · cases stepped

/-- A call that returns frees what was left for it. -/
theorem paid_returns {c : C} (among : c ∈ callers)
    (some : 0 < callWork postcard announce (s.calls c)) {suspendAck : Bounded 1 Unit}
    (taken : suspendAck.items.length ≤ s.suspendAck.items.length) :
    potential postcard announce resume callers { s.setCall c .idle with suspendAck } + 1 ≤
      potential postcard announce resume callers s := by
  have set := sum_setCall postcard announce s among .idle
  have free : callWork postcard announce (.idle : Call F) = 0 := rfl
  simp only [potential, setCall]
  omega

private theorem paid_refused {c : C} (among : c ∈ callers) (stepped : s.refused c = .ok s') :
    potential postcard announce resume callers s' + 1 ≤
      potential postcard announce resume callers s := by
  unfold refused at stepped
  split at stepped
  · rename_i sending
    cases stepped
    refine paid_returns among ?_ le_rfl
    rw [sending]
    exact Nat.succ_pos _
  · cases stepped

private theorem paid_acked {c : C} (among : c ∈ callers) (stepped : s.acked c = .ok s') :
    potential postcard announce resume callers s' + 1 ≤
      potential postcard announce resume callers s := by
  unfold acked at stepped
  split at stepped
  · rename_i awaiting taken
    cases stepped
    have items := congrArg List.length (Bounded.items_of_tryRecv taken)
    refine paid_returns among ?_ ?_
    · rw [awaiting]
      exact Nat.one_pos
    · rw [items]
      exact Nat.le_succ _
  · cases stepped

private theorem paid_unacked {c : C} (among : c ∈ callers) (stepped : s.unacked c = .ok s') :
    potential postcard announce resume callers s' + 1 ≤
      potential postcard announce resume callers s := by
  unfold unacked at stepped
  split at stepped
  · rename_i awaiting
    cases stepped
    refine paid_returns among ?_ le_rfl
    rw [awaiting]
    exact Nat.one_pos
  · cases stepped

/-! ## Runs -/

/-- Every step is paid for: by what its action adds, or by what is left to do. -/
theorem paid_of_step {action : Action C F} (among : ∀ c ∈ callerOf action, c ∈ callers)
    (linked : ∀ linked, openLink? s.client = some linked → linked = announce)
    (stepped : s.step postcard announce resume action = .ok s') :
    potential postcard announce resume callers s' + 1 ≤
      potential postcard announce resume callers s + stepCost postcard announce action := by
  cases action with
  | calls c request => exact paid_calling (among c rfl) stepped
  | backendEnds =>
      cases stepped
      exact le_rfl
  | hostAnnounces => exact Nat.le_add_right_of_le (paid_hostAnnounces stepped)
  | hostWrites n => exact Nat.le_add_right_of_le (paid_hostWrites stepped)
  | hostWriteFails => exact Nat.le_add_right_of_le (paid_hostWriteFails stepped)
  | hostReads n => exact Nat.le_add_right_of_le (paid_hostReads stepped)
  | hostTakes => exact Nat.le_add_right_of_le (paid_hostTakes stepped)
  | hostStopsReading => exact Nat.le_add_right_of_le (paid_hostStopsReading stepped)
  | hostHands => exact Nat.le_add_right_of_le (paid_hostHands stepped)
  | hostHandFails => exact Nat.le_add_right_of_le (paid_hostHandFails stepped)
  | backendTakes => exact Nat.le_add_right_of_le (paid_backendTakes stepped)
  | clientReads n => exact Nat.le_add_right_of_le (paid_clientReads stepped)
  | clientTakes => exact Nat.le_add_right_of_le (paid_clientTakes stepped)
  | clientStopsReading => exact Nat.le_add_right_of_le (paid_clientStopsReading stepped)
  | clientWrites n => exact Nat.le_add_right_of_le (paid_clientWrites stepped)
  | clientWriteFails => exact Nat.le_add_right_of_le (paid_clientWriteFails stepped)
  | writerTakes => exact Nat.le_add_right_of_le (paid_writerTakes stepped)
  | enqueues c => exact Nat.le_add_right_of_le (paid_enqueues (among c rfl) linked stepped)
  | refused c => exact Nat.le_add_right_of_le (paid_refused (among c rfl) stepped)
  | acked c => exact Nat.le_add_right_of_le (paid_acked (among c rfl) stepped)
  | unacked c => exact Nat.le_add_right_of_le (paid_unacked (among c rfl) stepped)

omit [DecidableEq C] in
private theorem potential_initial : potential postcard announce resume callers .initial =
    nudgeWork postcard announce resume + 4 + (4 * frameSize postcard (.announce announce) + 4) := by
  have idle : ∑ c ∈ callers, callWork postcard announce ((.initial : Connection C F).calls c) = 0 :=
    Finset.sum_eq_zero fun _ _ => rfl
  unfold potential
  rw [idle]
  rfl

/-- What the tasks do for the announce and, where a session is resumed, the Reconnect. -/
def startWork (postcard : Postcard (StructureMessage F) E) (announce : SurfaceAnnounce)
    (resume : Option Str) : Nat :=
  nudgeWork postcard announce resume + 4 * frameSize postcard (.announce announce) + 8

/-- No run is longer than its calls allow: whatever the order of the steps and wherever the
reads and writes cut the streams, a connection that nobody calls comes to rest. -/
theorem length_le_of_run (documented : postcard.Documented) {actions : List (Action C F)}
    (reached : run postcard announce resume actions = .ok s) :
    actions.length ≤ startWork postcard announce resume +
      Run.budget (stepCost postcard announce) actions := by
  have faithful := frames_faithful documented.inverts documented.refusesTruncated
  let callers := (actions.filterMap callerOf).toFinset
  have start : Accounted announce postcard resume (.initial : Connection C F) :=
    ⟨_, coherent_initial⟩
  have bound := Run.length_le (potential postcard announce resume callers)
    (stepCost postcard announce) ?_ start reached
  · rw [potential_initial] at bound
    unfold startWork
    omega
  · rintro action member before after ⟨g, coherent⟩ stepped
    refine ⟨coherent.step faithful stepped, paid_of_step ?_ ?_ stepped⟩
    · intro c calls
      exact List.mem_toFinset.mpr (List.mem_filterMap.mpr ⟨action, member, calls⟩)
    · exact fun linked opened => coherent.linked opened

end

theorem sampleSession_length_le :
    sampleSession.length ≤ startWork (StructureMessage.postcard Library.Postcard.Format.f32)
        sampleAnnounce (some "sha256:0".toList) +
      Run.budget (stepCost (StructureMessage.postcard Library.Postcard.Format.f32) sampleAnnounce)
        sampleSession := by
  have done : (run (StructureMessage.postcard Library.Postcard.Format.f32) sampleAnnounce
      (some "sha256:0".toList) sampleSession).isOk = true := by decide
  cases reached : run (StructureMessage.postcard Library.Postcard.Format.f32) sampleAnnounce
      (some "sha256:0".toList) sampleSession with
  | error e =>
      rw [reached] at done
      cases done
  | ok s => exact length_le_of_run documented_f32 reached

end Simulboot.Connection
