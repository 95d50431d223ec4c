import Simulboot.Connection.Conformance

/-!
# What the two ends of a connection hold

In any interleaving of the tasks at its two ends, neither end's receive buffer
grows beyond a frame and a read, and no queue beyond its capacity.
-/

set_option autoImplicit false

namespace Simulboot.Connection

open Library Library.Framing

variable {C F E : Type}

/-- What a step does to the two receive buffers. -/
structure BufferStep (s s' : Connection C F) : Prop where
  up : Refills (4 + maxFrameLen) readSize s.up.buf s'.up.buf
  down : Refills (4 + maxFrameLen) readSize s.down.buf s'.down.buf

variable {postcard : Postcard (StructureMessage F) E} {announce : SurfaceAnnounce}
  {resume : Option Str} {s s' : Connection C F}

private theorem BufferStep.kept (up : s'.up.buf = s.up.buf) (down : s'.down.buf = s.down.buf) :
    BufferStep s s' :=
  ⟨.shrinks (congrArg List.length up).le, .shrinks (congrArg List.length down).le⟩

/-! ## Reading and taking -/

private theorem refills_pull {lane : Lane} {n : Nat} (reads : incomplete postcard lane.buf = true)
    (readable : Readable lane n) :
    Refills (4 + maxFrameLen) readSize lane.buf (lane.pull n).buf := by
  have below : lane.buf.length < 4 + maxFrameLen := by
    unfold incomplete at reads
    split at reads
    · rename_i decoded
      exact length_lt_of_incomplete decoded
    all_goals cases reads
  have fits : (lane.wire.take n).length ≤ readSize :=
    (List.length_take_le n lane.wire).trans readable.2.1
  exact .refilled below fits

private theorem refills_consume (lane : Lane) (n : Nat) :
    Refills (4 + maxFrameLen) readSize lane.buf (lane.consume n).buf := by
  refine .shrinks ?_
  change (lane.buf.drop n).length ≤ lane.buf.length
  rw [List.length_drop]
  exact Nat.sub_le ..

private theorem answer_buffers (request reply : StructureMessage F) :
    (s.answer postcard request reply).up = s.up ∧
      (s.answer postcard request reply).down.buf = s.down.buf := by
  unfold answer
  split <;> exact ⟨rfl, rfl⟩

variable (postcard announce s) in
private theorem serve_buffers (msg : StructureMessage F) :
    (s.serve postcard announce msg).up = s.up ∧
      (s.serve postcard announce msg).down.buf = s.down.buf := by
  cases msg with
  | inputEvent sid event =>
      unfold serve
      dsimp only
      split <;> exact ⟨rfl, rfl⟩
  | suspend => exact answer_buffers ..
  | reconnect _ => exact answer_buffers ..
  | announce _ | suspendAck | reconnectOk _ | reconnectFail _ | resize _ _ _ | disconnect =>
      exact ⟨rfl, rfl⟩

variable (postcard resume s) in
private theorem announced_buffers (msg : StructureMessage F) :
    (s.announced postcard resume msg).up.buf = s.up.buf ∧
      (s.announced postcard resume msg).down = s.down := by
  have nudged (linked : SurfaceAnnounce) : (s.nudge postcard resume linked).up.buf = s.up.buf ∧
      (s.nudge postcard resume linked).down = s.down := by
    unfold nudge
    split
    · exact ⟨rfl, rfl⟩
    · split <;> exact ⟨rfl, rfl⟩
  unfold announced
  split
  · exact nudged _
  · exact nudged _
  · exact ⟨rfl, rfl⟩

variable (s) in
private theorem absorb_buffers (msg : StructureMessage F) :
    (s.absorb msg).up = s.up ∧ (s.absorb msg).down = s.down := by
  unfold absorb
  split <;> exact ⟨rfl, rfl⟩

private theorem bufferStep_hostTakes (stepped : s.hostTakes postcard announce = .ok s') :
    BufferStep s s' := by
  unfold hostTakes at stepped
  split at stepped
  · rename_i msg consumed _ _
    cases stepped
    obtain ⟨up, down⟩ := serve_buffers postcard announce
      { s with up := s.up.consume consumed } msg
    refine ⟨?_, .shrinks (congrArg List.length down).le⟩
    rw [up]
    exact refills_consume ..
  · cases stepped

private theorem bufferStep_clientTakes (stepped : s.clientTakes postcard resume = .ok s') :
    BufferStep s s' := by
  unfold clientTakes at stepped
  split at stepped
  · rename_i msg consumed _
    dsimp only at stepped
    split at stepped
    · cases stepped
      obtain ⟨up, down⟩ := announced_buffers postcard resume
        { s with
          down := s.down.consume consumed
          history.received := s.history.received ++ [msg] } msg
      refine ⟨.shrinks (congrArg List.length up).le, ?_⟩
      rw [down]
      exact refills_consume ..
    · cases stepped
      obtain ⟨up, down⟩ := absorb_buffers
        { s with
          down := s.down.consume consumed
          history.received := s.history.received ++ [msg] } msg
      refine ⟨.shrinks ?_, ?_⟩
      · rw [up]
      · rw [down]
        exact refills_consume ..
    · cases stepped
  · cases stepped

/-! ## Any step -/

variable [DecidableEq C]

private theorem bufferStep_of_caller {action : Action C F} (caller : ofCaller action = true)
    (stepped : s.step postcard announce resume action = .ok s') : BufferStep s s' := by
  cases action with
  | calls c request =>
      change s.calling c request = .ok s' at stepped
      unfold calling at stepped
      split at stepped <;> cases stepped
      exact .kept rfl rfl
  | enqueues c =>
      change s.enqueues c = .ok s' at stepped
      unfold enqueues at stepped
      split at stepped
      · split at stepped <;> cases stepped
        exact .kept rfl rfl
      · cases stepped
  | refused c =>
      change s.refused c = .ok s' at stepped
      unfold refused at stepped
      split at stepped <;> cases stepped
      exact .kept rfl rfl
  | acked c =>
      change s.acked c = .ok s' at stepped
      unfold acked at stepped
      split at stepped <;> cases stepped
      exact .kept rfl rfl
  | unacked c =>
      change s.unacked c = .ok s' at stepped
      unfold unacked at stepped
      split at stepped <;> cases stepped
      exact .kept rfl rfl
  | _ => cases caller

theorem bufferStep_of_step {action : Action C F}
    (stepped : s.step postcard announce resume action = .ok s') : BufferStep s s' := by
  cases action with
  | hostAnnounces =>
      change s.hostAnnounces postcard announce = .ok s' at stepped
      unfold hostAnnounces at stepped
      split at stepped
      · split at stepped <;> cases stepped <;> exact .kept rfl rfl
      · cases stepped
  | hostWrites n =>
      change s.hostWrites n = .ok s' at stepped
      unfold hostWrites at stepped
      split at stepped
      · obtain ⟨_, rfl⟩ := onlyIf_eq_ok.mp stepped
        split <;> exact .kept rfl rfl
      · cases stepped
  | hostWriteFails =>
      change s.hostWriteFails = .ok s' at stepped
      unfold hostWriteFails at stepped
      split at stepped <;> cases stepped
      exact .kept rfl rfl
  | hostReads n =>
      change s.hostReads postcard n = .ok s' at stepped
      unfold hostReads at stepped
      split at stepped
      · obtain ⟨⟨reads, readable⟩, rfl⟩ := onlyIf_eq_ok.mp stepped
        exact ⟨refills_pull reads readable, .shrinks le_rfl⟩
      · cases stepped
  | hostTakes => exact bufferStep_hostTakes stepped
  | hostStopsReading =>
      change s.hostStopsReading postcard = .ok s' at stepped
      unfold hostStopsReading at stepped
      split at stepped
      · obtain ⟨_, rfl⟩ := onlyIf_eq_ok.mp stepped
        exact .kept rfl rfl
      · cases stepped
  | hostHands =>
      change s.hostHands announce = .ok s' at stepped
      unfold hostHands at stepped
      split at stepped
      · split at stepped <;> cases stepped
        exact .kept rfl rfl
      · cases stepped
  | hostHandFails =>
      change s.hostHandFails = .ok s' at stepped
      unfold hostHandFails at stepped
      split at stepped <;> cases stepped
      exact .kept rfl rfl
  | backendTakes =>
      change s.backendTakes = .ok s' at stepped
      unfold backendTakes at stepped
      split at stepped <;> cases stepped
      exact .kept rfl rfl
  | backendEnds =>
      cases stepped
      exact .kept rfl rfl
  | clientReads n =>
      obtain ⟨⟨_, reads, readable⟩, rfl⟩ := onlyIf_eq_ok.mp stepped
      exact ⟨.shrinks le_rfl, refills_pull reads readable⟩
  | clientTakes => exact bufferStep_clientTakes stepped
  | clientStopsReading =>
      change s.clientStopsReading postcard = .ok s' at stepped
      unfold clientStopsReading at stepped
      split at stepped
      · obtain ⟨_, rfl⟩ := onlyIf_eq_ok.mp stepped
        exact .kept rfl rfl
      · obtain ⟨_, rfl⟩ := onlyIf_eq_ok.mp stepped
        exact .kept rfl rfl
      · cases stepped
  | clientWrites n =>
      change s.clientWrites n = .ok s' at stepped
      unfold clientWrites at stepped
      split at stepped
      · obtain ⟨_, rfl⟩ := onlyIf_eq_ok.mp stepped
        split <;> exact .kept rfl rfl
      · obtain ⟨_, rfl⟩ := onlyIf_eq_ok.mp stepped
        split <;> exact .kept rfl rfl
      · cases stepped
  | clientWriteFails =>
      change s.clientWriteFails = .ok s' at stepped
      unfold clientWriteFails at stepped
      split at stepped <;> cases stepped <;> exact .kept rfl rfl
  | writerTakes =>
      change s.writerTakes postcard = .ok s' at stepped
      unfold writerTakes at stepped
      split at stepped
      · split at stepped <;> cases stepped <;> exact .kept rfl rfl
      · cases stepped
  | calls _ _ | enqueues _ | refused _ | acked _ | unacked _ =>
      exact bufferStep_of_caller rfl stepped

/-- Each end holds at most a frame and a read of the other's bytes. -/
def Buffered (s : Connection C F) : Prop :=
  s.up.buf.length ≤ 4 + maxFrameLen - 1 + readSize ∧
    s.down.buf.length ≤ 4 + maxFrameLen - 1 + readSize

/-- However the two ends take their steps, their buffers stay bounded. -/
theorem buffered_of_run {actions : List (Action C F)}
    (reached : run postcard announce resume actions = .ok s) : Buffered s := by
  have start : Buffered (.initial : Connection C F) := ⟨Nat.zero_le _, Nat.zero_le _⟩
  refine Run.invariant ?_ start reached
  intro action _ before after ⟨up, down⟩ stepped
  have buffers := bufferStep_of_step stepped
  exact ⟨buffers.up.bounded up, buffers.down.bounded down⟩

/-- What the tasks hold of a connection is bounded, whatever is sent and called: the
receive buffers by a frame and a read, and the queues by their capacities. -/
theorem memory_bounded {actions : List (Action C F)}
    (reached : run postcard announce resume actions = .ok s) :
    Buffered s ∧ s.control.items.length ≤ 64 ∧ s.suspendAck.items.length ≤ 1 ∧
      s.input.items.length ≤ 64 :=
  ⟨buffered_of_run reached, s.control.fits, s.suspendAck.fits, s.input.fits⟩

theorem sampleSession_bounded :
    ∃ s, run (StructureMessage.postcard Library.Postcard.Format.f32) sampleAnnounce
        (some "sha256:0".toList) (sampleSession.take 20) = .ok s ∧ Buffered s ∧
      s.control.items.length ≤ 64 ∧ s.suspendAck.items.length ≤ 1 ∧
        s.input.items.length ≤ 64 := by
  have done : (run (StructureMessage.postcard Library.Postcard.Format.f32) sampleAnnounce
      (some "sha256:0".toList) (sampleSession.take 20)).isOk = true := by decide
  cases reached : run (StructureMessage.postcard Library.Postcard.Format.f32) sampleAnnounce
      (some "sha256:0".toList) (sampleSession.take 20) with
  | error e =>
      rw [reached] at done
      cases done
  | ok s => exact ⟨s, rfl, memory_bounded reached⟩

end Simulboot.Connection
