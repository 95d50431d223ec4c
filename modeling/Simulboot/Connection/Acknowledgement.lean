import Simulboot.Connection.Conformance

/-!
# Acknowledgements

An acknowledgement names no request: it is taken by whichever call of `suspend`
waits when it arrives. A call that begins with every earlier Suspend answered, and
no acknowledgement left over, takes its own.
-/

set_option autoImplicit false

namespace Simulboot.Connection

open Library

variable {C F E : Type}

def isSuspend : StructureMessage F → Bool
  | .suspend => true
  | _ => false

def isAck : StructureMessage F → Bool
  | .suspendAck => true
  | _ => false

section

variable (postcard : Postcard (StructureMessage F) E) (announce : SurfaceAnnounce)
  (resume : Option Str)

/-- Every Suspend that was enqueued is acknowledged, and no acknowledgement is left
that nobody has taken. -/
def Settled (s : Connection C F) : Prop :=
  s.history.enqueued.countP isSuspend ≤ s.history.received.countP isAck ∧ s.suspendAck.items = []

instance (s : Connection C F) : Decidable (Settled s) :=
  inferInstanceAs (Decidable (_ ∧ _))

/-- The host is done with the message of this number on the control channel, a
Suspend, and with everything that was enqueued before it. -/
def Acknowledged (s : Connection C F) (ticket : Nat) : Prop :=
  ∃ earlier later, s.history.enqueued = earlier ++ .suspend :: later ∧
    earlier.length + 1 = ticket ∧
    nudges resume ++ earlier.filter (encodes postcard) ++ [.suspend] <+: s.history.processed

variable [DecidableEq C]

/-- The call that enqueues the message of this number in a run does so in a settled
state. -/
def BeginsSettled (actions : List (Action C F)) (ticket : Nat) : Prop :=
  ∀ before c s, before ++ [.enqueues c] <+: actions →
    run postcard announce resume before = .ok s → s.calls c = .sending .suspend →
      s.history.enqueued.length + 1 = ticket → Settled s

variable {postcard announce resume} {s s' : Connection C F} {g : InFlight F}

/-! ## Whose acknowledgement it is -/

/-- Every Suspend before that of the call with this number is acknowledged, and while
its own is not, there is no acknowledgement to take. -/
def Waits (ticket : Nat) (s : Connection C F) : Prop :=
  ∀ c, s.calls c = .awaitingAck ticket →
    ∃ earlier later, s.history.enqueued = earlier ++ .suspend :: later ∧
      earlier.length + 1 = ticket ∧
      earlier.countP isSuspend ≤ s.history.received.countP isAck ∧
      (s.history.received.countP isAck ≤ earlier.countP isSuspend → s.suspendAck.items = [])

variable {ticket : Nat}

omit [DecidableEq C] in
private theorem waits_initial : Waits ticket (.initial : Connection C F) := nofun

omit [DecidableEq C] in
private theorem Waits.task (waits : Waits ticket s) (task : TaskStep s s') : Waits ticket s' := by
  intro c awaiting
  rw [task.calls] at awaiting
  obtain ⟨earlier, later, enqueued, numbered, answered, nothing⟩ := waits c awaiting
  refine ⟨earlier, later, task.enqueued.trans enqueued, numbered, ?_⟩
  rcases task.reader with ⟨received, acks⟩ | ⟨msg, received, acks⟩
  · rw [received, acks]
    exact ⟨answered, nothing⟩
  · rw [received, List.countP_append]
    refine ⟨Nat.le_add_right_of_le answered, fun few => ?_⟩
    cases acks with
    | inl acks =>
        rw [acks]
        exact nothing (Nat.le_of_add_right_le few)
    | inr ack =>
        rw [ack] at few
        have one : [(.suspendAck : StructureMessage F)].countP isAck = 1 := rfl
        omega

private theorem Waits.setCall {c : C} {call : Call F} {suspendAck : Bounded 1 Unit}
    {passed : List (C × InputEvent F)} (waits : Waits ticket s)
    (free : call ≠ .awaitingAck ticket)
    (taken : s.suspendAck.items = [] → suspendAck.items = []) :
    Waits ticket { s.setCall c call with suspendAck, history.passed := passed } := by
  intro other awaiting
  change Function.update s.calls c call other = _ at awaiting
  by_cases own : other = c
  · rw [own, Function.update_self] at awaiting
    exact absurd awaiting free
  · rw [Function.update_of_ne own] at awaiting
    obtain ⟨earlier, later, enqueued, numbered, answered, nothing⟩ := waits other awaiting
    exact ⟨earlier, later, enqueued, numbered, answered, fun few => taken (nothing few)⟩

private theorem Waits.enqueues {c : C} (waits : Waits ticket s)
    (settled : s.calls c = .sending .suspend → s.history.enqueued.length + 1 = ticket → Settled s)
    (stepped : s.enqueues c = .ok s') : Waits ticket s' := by
  unfold Connection.enqueues at stepped
  split at stepped
  · rename_i linked request opened sending
    split at stepped
    · cases stepped
      intro other awaiting
      change Function.update s.calls c (sentOn (s.history.enqueued.length + 1) request) other = _
        at awaiting
      by_cases own : other = c
      · rw [own, Function.update_self] at awaiting
        cases request with
        | suspend =>
            cases awaiting
            obtain ⟨answered, nothing⟩ := settled sending rfl
            exact ⟨s.history.enqueued, [], rfl, rfl, answered, fun _ => nothing⟩
        | input _ => cases awaiting
        | post _ => cases awaiting
      · rw [Function.update_of_ne own] at awaiting
        obtain ⟨earlier, later, enqueued, waiting⟩ := waits other awaiting
        refine ⟨earlier, later ++ [request.message linked], ?_, waiting⟩
        change s.history.enqueued ++ _ = _
        rw [enqueued, List.append_assoc, List.cons_append]
    · cases stepped
  · cases stepped

private theorem Waits.acked {c : C} (waits : Waits ticket s) (stepped : s.acked c = .ok s') :
    Waits ticket s' := by
  unfold Connection.acked at stepped
  split at stepped
  · rename_i suspendAck _ taken
    cases stepped
    have kept : Waits ticket { s.setCall c .idle with
        suspendAck, history.passed := s.history.passed } := by
      refine waits.setCall nofun fun empty => ?_
      rw [Bounded.items_of_tryRecv taken] at empty
      cases empty
    exact kept
  · cases stepped

theorem Waits.step {action : Action C F} (waits : Waits ticket s)
    (settled : ∀ c, action = .enqueues c → s.calls c = .sending .suspend →
      s.history.enqueued.length + 1 = ticket → Settled s)
    (stepped : s.step postcard announce resume action = .ok s') : Waits ticket s' := by
  cases task : ofCaller action with
  | false => exact waits.task (taskStep_of_step task stepped)
  | true =>
      cases action with
      | calls c request =>
          change s.calling c request = .ok s' at stepped
          unfold Connection.calling at stepped
          split at stepped <;> cases stepped
          exact waits.setCall nofun id
      | enqueues c => exact waits.enqueues (settled c rfl) stepped
      | refused c =>
          change s.refused c = .ok s' at stepped
          unfold Connection.refused at stepped
          split at stepped <;> cases stepped
          exact waits.setCall nofun id
      | acked c => exact waits.acked stepped
      | unacked c =>
          change s.unacked c = .ok s' at stepped
          unfold Connection.unacked at stepped
          split at stepped <;> cases stepped
          exact waits.setCall nofun id
      | _ => cases task

theorem waits_of_run {actions : List (Action C F)}
    (settled : BeginsSettled postcard announce resume actions ticket)
    (reached : run postcard announce resume actions = .ok s) : Waits ticket s := by
  refine Run.invariant_along ?_ waits_initial reached
  intro done action before after upTo earlier waits stepped
  refine waits.step ?_ stepped
  rintro c rfl sending numbered
  exact settled done c before upTo earlier sending numbered

/-! ## Counting -/

omit [DecidableEq C] in
theorem countP_replies (processed : List (StructureMessage F)) :
    (processed.filterMap (replyTo announce)).countP isAck = processed.countP isSuspend := by
  induction processed with
  | nil => rfl
  | cons msg processed ih =>
      cases owed : replyTo announce msg with
      | none =>
          have other : ¬ isSuspend msg = true := by
            cases msg <;> first | exact Bool.false_ne_true | cases owed
          rw [List.filterMap_cons_none owed, List.countP_cons_of_neg other, ih]
      | some reply =>
          have same : isAck reply = isSuspend msg := by
            cases msg <;> cases owed <;> rfl
          rw [List.filterMap_cons_some owed, List.countP_cons, List.countP_cons, ih, same]

omit [DecidableEq C] in
/-- No acknowledgement is received that the host did not owe. -/
theorem Coherent.acks_le (coherent : Coherent announce postcard resume s g) :
    s.history.received.countP isAck ≤ s.history.processed.countP isSuspend := by
  have received : s.history.received <+: s.history.sent := ⟨g.down, coherent.replies⟩
  refine received.sublist.countP_le.trans ?_
  cases coherent.answered_or_silent with
  | inl answered =>
      rw [answered, List.countP_cons_of_neg Bool.false_ne_true, countP_replies]
  | inr silent =>
      rw [silent.1]
      exact Nat.zero_le _

theorem nudges_countP : (nudges resume).countP (isSuspend (F := F)) = 0 := by
  cases resume <;> rfl

omit [DecidableEq C] in
/-- The host is done with a Suspend once it is done with more of them than came before. -/
theorem processed_of_count {script earlier processed : List (StructureMessage F)}
    (within : processed <+: script) (front : earlier ++ [.suspend] <+: script)
    (more : earlier.countP isSuspend < processed.countP isSuspend) :
    earlier ++ [.suspend] <+: processed := by
  cases List.prefix_or_prefix_of_prefix within front with
  | inr enough => exact enough
  | inl short =>
      cases List.prefix_concat_iff.mp short with
      | inl same => rw [same]
      | inr before =>
          have fewer : processed.countP isSuspend ≤ earlier.countP isSuspend :=
            before.sublist.countP_le
          omega

/-- In every run, a call of `suspend` that begins settled and returns true has had its
own Suspend processed. -/
theorem ack_belongs (documented : postcard.Documented) {actions : List (Action C F)}
    (settled : BeginsSettled postcard announce resume actions ticket)
    (reached : run postcard announce resume actions = .ok s) {c : C}
    (awaiting : s.calls c = .awaitingAck ticket) (returns : s.acked c = .ok s') :
    Acknowledged postcard resume s ticket := by
  have faithful := frames_faithful documented.inverts documented.refusesTruncated
  obtain ⟨g, coherent⟩ := accounted_of_run faithful reached
  obtain ⟨earlier, later, enqueued, numbered, _, nothing⟩ :=
    waits_of_run settled reached c awaiting
  refine ⟨earlier, later, enqueued, numbered, ?_⟩
  have some : s.suspendAck.items ≠ [] := by
    unfold Connection.acked at returns
    split at returns
    · rename_i taken
      rw [Bounded.items_of_tryRecv taken]
      exact List.cons_ne_nil _ _
    · cases returns
  have acks := coherent.acks_le
  have own : earlier.countP isSuspend < s.history.received.countP isAck := by
    by_contra few
    exact some (nothing (Nat.le_of_not_lt few))
  have before : (nudges resume ++ earlier.filter (encodes postcard)).countP isSuspend ≤
      earlier.countP isSuspend := by
    rw [List.countP_append, nudges_countP, Nat.zero_add]
    exact List.filter_sublist.countP_le
  refine processed_of_count coherent.script ?_ (by omega)
  rw [enqueued, List.filter_append,
    List.filter_cons_of_pos (encodes_of_toStdvec documented.suspend), List.append_assoc]
  refine (List.prefix_append_right_inj _).mpr ((List.prefix_append_right_inj _).mpr ?_)
  exact ⟨later.filter (encodes postcard), rfl⟩

end

/-! ## Two suspensions -/

def suspending : List (Action Unit UInt32) :=
  [.calls () .suspend, .enqueues ()]

def acknowledging : List (Action Unit UInt32) :=
  [.writerTakes, .clientWrites 5, .hostReads 5, .hostTakes, .hostWrites 5, .clientReads 5,
    .clientTakes]

def linking : List (Action Unit UInt32) :=
  [.hostAnnounces, .hostWrites 87, .clientReads 87, .clientTakes]

/-- Two suspensions, each acknowledged before the next begins. -/
def patientRun : List (Action Unit UInt32) :=
  linking ++ suspending ++ acknowledging ++ [.acked ()] ++ suspending ++ acknowledging

/-- The first suspension times out before its acknowledgement comes. -/
def impatientRun : List (Action Unit UInt32) :=
  linking ++ suspending ++ [.unacked ()] ++ suspending ++ acknowledging

private theorem patientRun_settled :
    BeginsSettled (StructureMessage.postcard Library.Postcard.Format.f32) sampleAnnounce none
      patientRun 2 := by
  have checked : ∀ k < patientRun.length, patientRun[k]? = some (.enqueues ()) →
      (run (StructureMessage.postcard Library.Postcard.Format.f32) sampleAnnounce none
        (patientRun.take k)).map (fun s => decide (Settled s)) = .ok true := by decide
  rintro before c s ⟨after, whole⟩ reached _ _
  have upTo : patientRun.take before.length = before := by
    rw [← whole, List.append_assoc, List.take_left]
  have next : patientRun[before.length]? = some (.enqueues ()) := by
    rw [← whole, List.append_assoc, List.getElem?_append_right (Nat.le_refl _), Nat.sub_self]
    rfl
  have settled := checked before.length (List.getElem?_eq_some_iff.mp next).1 next
  rw [upTo, reached] at settled
  exact of_decide_eq_true (Except.ok.inj settled)

theorem patientRun_acknowledged :
    ∃ s s', run (StructureMessage.postcard Library.Postcard.Format.f32) sampleAnnounce none
        patientRun = .ok s ∧ s.calls () = .awaitingAck 2 ∧ s.acked () = .ok s' ∧
      Acknowledged (StructureMessage.postcard Library.Postcard.Format.f32) none s 2 := by
  have done : (run (StructureMessage.postcard Library.Postcard.Format.f32) sampleAnnounce none
      patientRun).map (fun s => (s.calls (), (s.acked ()).isOk)) =
        .ok (.awaitingAck 2, true) := by decide
  cases reached : run (StructureMessage.postcard Library.Postcard.Format.f32) sampleAnnounce none
      patientRun with
  | error e =>
      rw [reached] at done
      cases done
  | ok s =>
      rw [reached] at done
      obtain ⟨awaiting, returns⟩ := Prod.mk.inj (Except.ok.inj done)
      cases returned : s.acked () with
      | error e =>
          rw [returned] at returns
          cases returns
      | ok s' =>
          exact ⟨s, s', rfl, awaiting, returned,
            ack_belongs documented_f32 patientRun_settled reached awaiting returned⟩

/-- The second call takes the acknowledgement of the first. -/
theorem impatientRun_not_acknowledged :
    ∃ s s', run (StructureMessage.postcard Library.Postcard.Format.f32) sampleAnnounce none
        impatientRun = .ok s ∧ s.calls () = .awaitingAck 2 ∧ s.acked () = .ok s' ∧
      ¬ Acknowledged (StructureMessage.postcard Library.Postcard.Format.f32) none s 2 := by
  have done : (run (StructureMessage.postcard Library.Postcard.Format.f32) sampleAnnounce none
      impatientRun).map (fun s => ((s.calls (), (s.acked ()).isOk),
        (s.history.enqueued, s.history.processed))) =
      .ok ((.awaitingAck 2, true), ([.suspend, .suspend], [.suspend])) := by decide
  cases reached : run (StructureMessage.postcard Library.Postcard.Format.f32) sampleAnnounce none
      impatientRun with
  | error e =>
      rw [reached] at done
      cases done
  | ok s =>
      rw [reached] at done
      obtain ⟨call, messages⟩ := Prod.mk.inj (Except.ok.inj done)
      obtain ⟨awaiting, returns⟩ := Prod.mk.inj call
      obtain ⟨enqueued, processed⟩ := Prod.mk.inj messages
      cases returned : s.acked () with
      | error e =>
          rw [returned] at returns
          cases returns
      | ok s' =>
          refine ⟨s, s', rfl, awaiting, returned, ?_⟩
          rintro ⟨earlier, later, split, numbered, front⟩
          rw [enqueued] at split
          rw [processed] at front
          cases earlier with
          | nil => cases numbered
          | cons first earlier =>
              obtain ⟨rfl, _⟩ := List.cons.inj split
              have long := front.length_le
              simp [encodes_of_toStdvec documented_f32.suspend, nudges] at long

end Simulboot.Connection
