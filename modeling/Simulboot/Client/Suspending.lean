import Simulboot.Client.Live
import Simulboot.Client.Parking
import Simulboot.Library.Future

/-!
# Suspending all hosts

The suspension flow: the futures that suspend the links, how they are joined,
and what the flow asks of its surroundings in which order. A link is named by
its position.
-/

set_option autoImplicit false

namespace Simulboot

open Library Library.Http

/-! ## The flow -/

/-- What comes of putting a message on a control channel. -/
inductive Sent where
  | enqueued
  | refused
  deriving DecidableEq, Repr

inductive AckOutcome where
  | acked
  | closed
  | timedOut
  deriving DecidableEq, Repr

/-- How waiting for an acknowledgement ends, and after how long. -/
structure AckWait (within : Nat) where
  outcome : AckOutcome
  elapsed : Nat
  inTime : elapsed ≤ within
  wholePeriod : outcome = .timedOut → elapsed = within

/-- What the flow asks for; periods are in milliseconds. -/
inductive SuspendOp where
  | sendSuspend (link : Nat)
  | awaitAck (link within : Nat)
  | lockStrip
  | now
  | write (out xml : Str)
  | serve (port : UInt16) (served : ServedImage)

abbrev SuspendOp.Answer (F : Type) : SuspendOp → Type
  | .sendSuspend _ => Sent
  | .awaitAck _ within => AckWait within
  | .lockStrip => Strip F
  | .now => Str
  | .write _ _ => Except Str Unit
  | .serve _ _ => Except Str Unit

abbrev SuspendFuture (F : Type) : Type → Type :=
  Future SuspendOp (SuspendOp.Answer F)

variable {F : Type}

def Link.suspend (link within : Nat) : SuspendFuture F Bool :=
  .call (.sendSuspend link) fun
    | .refused => .done false
    | .enqueued => .call (.awaitAck link within) fun answer =>
        .done (decide (answer.outcome = .acked))

/-- Each future is made and awaited before the next one is made. -/
def futuresJoinAll {α : Type} (futs : List (SuspendFuture F α)) : SuspendFuture F (List α) :=
  Future.joinAll futs

def suspendTimeout : Nat :=
  5000

section

variable [Zero F] [RustFloat F] {E : Type}

def checkpointAndServe (sha256 : Sha256) (out : Str) (brokerPort : UInt16) :
    SuspendFuture F (Except (AnyhowError E) Unit) :=
  .call .lockStrip fun strip => .call .now fun created =>
    let image := imageFromStrip sha256 strip created
    let xml := image.toXml sha256
    .call (.write out xml) fun written =>
      match withContext [.text ("writing session image to ".toList ++ out)]
          (written.mapError .std) with
      | .error e => .done (.error e)
      | .ok () => .call (.serve brokerPort (.newXml (image.declaredId sha256) (utf8 xml)))
          fun ended => .done (ended.mapError .std)

def suspendAndServe (sha256 : Sha256) (links : List Link) (out : Str) (brokerPort : UInt16) :
    SuspendFuture F (Except (AnyhowError E) Unit) :=
  (futuresJoinAll
    ((List.range links.length).map fun link => Link.suspend link suspendTimeout)).bind
      fun _ => checkpointAndServe sha256 out brokerPort

end

/-! ## Broadcasting -/

/-- No acknowledgement is waited for while a link is left without its Suspend. -/
def Broadcast : List Nat → List (Future.Event SuspendOp (SuspendOp.Answer F)) → Prop
  | _, [] => True
  | unsent, ⟨.sendSuspend link, _⟩ :: rest => Broadcast (unsent.erase link) rest
  | unsent, ⟨.awaitAck _ _, _⟩ :: rest => unsent = [] ∧ Broadcast unsent rest
  | unsent, _ :: rest => Broadcast unsent rest

private theorem broadcast_sendSuspend {link : Nat} {unsent : List Nat} {sent : Sent}
    {rest : List (Future.Event SuspendOp (SuspendOp.Answer F))} :
    Broadcast (link :: unsent) (⟨.sendSuspend link, sent⟩ :: rest) ↔ Broadcast unsent rest := by
  change Broadcast ((link :: unsent).erase link) rest ↔ Broadcast unsent rest
  rw [List.erase_cons_head]

private theorem broadcast_awaitAck {link within : Nat} {unsent : List Nat} {answer : AckWait within}
    {rest : List (Future.Event SuspendOp (SuspendOp.Answer F))} :
    Broadcast unsent (⟨.awaitAck link within, answer⟩ :: rest) ↔
      unsent = [] ∧ Broadcast unsent rest :=
  Iff.rfl

def waited : List (Future.Event SuspendOp (SuspendOp.Answer F)) → Nat
  | [] => 0
  | ⟨.awaitAck _ _, answer⟩ :: rest => answer.elapsed + waited rest
  | _ :: rest => waited rest

/-- Every link has its Suspend before an acknowledgement is waited for, and the
wait takes one period at most. -/
structure SuspendsTogether (links : List Link)
    (trace : List (Future.Event SuspendOp (SuspendOp.Answer F))) : Prop where
  broadcast : Broadcast (List.range links.length) trace
  onePeriod : waited trace ≤ suspendTimeout

/-- Surroundings in which every Suspend is sent and no host ever acknowledges. -/
def silent (strip : Strip F) : (op : SuspendOp) → op.Answer F
  | .sendSuspend _ => Sent.enqueued
  | .awaitAck _ within => ⟨.timedOut, within, Nat.le_refl within, fun _ => rfl⟩
  | .lockStrip => strip
  | .now => []
  | .write _ _ => .ok ()
  | .serve _ _ => .ok ()

variable (respond : (op : SuspendOp) → op.Answer F)

private theorem run_suspend_refused {link : Nat} (refused : respond (.sendSuspend link) = Sent.refused)
    (within : Nat) :
    (Link.suspend link within).run respond = ([⟨.sendSuspend link, Sent.refused⟩], false) := by
  unfold Link.suspend
  rw [Future.run_call, refused]
  rfl

private theorem run_suspend_enqueued {link : Nat} (enqueued : respond (.sendSuspend link) = Sent.enqueued)
    (within : Nat) :
    ((Link.suspend link within).run respond).1 =
      [⟨.sendSuspend link, Sent.enqueued⟩,
        ⟨.awaitAck link within, respond (.awaitAck link within)⟩] := by
  unfold Link.suspend
  rw [Future.run_call, enqueued]
  rfl

/-- Events that send no Suspend and wait for no acknowledgement. -/
structure Quiet (events : List (Future.Event SuspendOp (SuspendOp.Answer F))) : Prop where
  broadcast : ∀ unsent, Broadcast unsent events
  waited : waited events = 0

private theorem run_joined_refused {first count within : Nat}
    (refused : respond (.sendSuspend first) = Sent.refused) :
    ((futuresJoinAll ((List.range' first (count + 1)).map
        fun link => Link.suspend link within)).run respond).1 =
      ⟨.sendSuspend first, Sent.refused⟩ ::
        ((futuresJoinAll ((List.range' (first + 1) count).map
          fun link => Link.suspend link within)).run respond).1 := by
  rw [List.range'_succ, List.map_cons]
  unfold futuresJoinAll
  rw [Future.run_joinAll_cons, run_suspend_refused respond refused]
  rfl

private theorem run_joined_enqueued {first count within : Nat}
    (enqueued : respond (.sendSuspend first) = Sent.enqueued) :
    ((futuresJoinAll ((List.range' first (count + 1)).map
        fun link => Link.suspend link within)).run respond).1 =
      ⟨.sendSuspend first, Sent.enqueued⟩ ::
        ⟨.awaitAck first within, respond (.awaitAck first within)⟩ ::
          ((futuresJoinAll ((List.range' (first + 1) count).map
            fun link => Link.suspend link within)).run respond).1 := by
  rw [List.range'_succ, List.map_cons]
  unfold futuresJoinAll
  rw [Future.run_joinAll_cons]
  dsimp only
  rw [run_suspend_enqueued respond enqueued]
  rfl

/-- The Suspends are broadcast only where no link but the last takes its own. -/
theorem broadcast_joined_iff {quiet : List (Future.Event SuspendOp (SuspendOp.Answer F))}
    (tail : Quiet quiet) (first count within : Nat) :
    Broadcast (List.range' first count)
        (((futuresJoinAll ((List.range' first count).map
          fun link => Link.suspend link within)).run respond).1 ++ quiet) ↔
      ∀ link, first ≤ link → link + 1 < first + count →
        respond (.sendSuspend link) = Sent.refused := by
  induction count generalizing first with
  | zero =>
      constructor
      · intro _ link fromFirst before
        omega
      · intro _
        exact tail.broadcast []
  | succ count ih =>
      cases sent : respond (.sendSuspend first) with
      | refused =>
          rw [run_joined_refused respond sent, List.range'_succ, List.cons_append,
            broadcast_sendSuspend, ih (first + 1)]
          constructor
          · intro others link fromFirst before
            cases Nat.eq_or_lt_of_le fromFirst with
            | inl atFirst => rw [← atFirst, sent]
            | inr behind => exact others link behind (by omega)
          · intro all link behind before
            exact all link (by omega) (by omega)
      | enqueued =>
          rw [run_joined_enqueued respond sent, List.range'_succ, List.cons_append,
            List.cons_append, broadcast_sendSuspend, broadcast_awaitAck]
          cases count with
          | zero =>
              constructor
              · intro _ link fromFirst before
                omega
              · intro _
                exact ⟨rfl, tail.broadcast []⟩
          | succ count =>
              constructor
              · rintro ⟨none, _⟩
                cases none
              · intro all
                have refused := all first (Nat.le_refl first) (by omega)
                rw [sent] at refused
                cases refused

/-- Where the Suspends are broadcast, the last link alone is waited for. -/
theorem waited_joined_le {quiet : List (Future.Event SuspendOp (SuspendOp.Answer F))}
    (tail : Quiet quiet) (first count within : Nat)
    (refused : ∀ link, first ≤ link → link + 1 < first + count →
      respond (.sendSuspend link) = Sent.refused) :
    waited (((futuresJoinAll ((List.range' first count).map
      fun link => Link.suspend link within)).run respond).1 ++ quiet) ≤ within := by
  induction count generalizing first with
  | zero =>
      have none : waited quiet ≤ within := by
        rw [tail.waited]
        exact Nat.zero_le within
      exact none
  | succ count ih =>
      cases sent : respond (.sendSuspend first) with
      | refused =>
          rw [run_joined_refused respond sent]
          exact ih (first + 1) fun link behind before => refused link (by omega) (by omega)
      | enqueued =>
          cases count with
          | zero =>
              rw [run_joined_enqueued respond sent]
              change (respond (.awaitAck first within)).elapsed + waited quiet ≤ within
              rw [tail.waited]
              exact (respond (.awaitAck first within)).inTime
          | succ count =>
              have := refused first (Nat.le_refl first) (by omega)
              rw [sent] at this
              cases this

section

variable [Zero F] [RustFloat F] {E : Type}

private theorem quiet_checkpointAndServe (sha256 : Sha256) (out : Str) (brokerPort : UInt16) :
    Quiet ((checkpointAndServe (E := E) sha256 out brokerPort).run respond).1 := by
  unfold checkpointAndServe
  rw [Future.run_call, Future.run_call, Future.run_call]
  cases respond (.write out ((imageFromStrip sha256 (respond .lockStrip)
      (respond .now)).toXml sha256)) with
  | error e => exact ⟨fun _ => trivial, rfl⟩
  | ok _ => exact ⟨fun _ => trivial, rfl⟩

/-- The links are suspended together exactly where every link before the last has
its control channel closed: with two open links, the first is waited for while the
second has no Suspend yet. -/
theorem suspendsTogether_iff (sha256 : Sha256) (links : List Link) (out : Str)
    (brokerPort : UInt16) :
    (∀ respond : (op : SuspendOp) → op.Answer F,
      SuspendsTogether links
          ((suspendAndServe (E := E) sha256 links out brokerPort).run respond).1 ↔
        ∀ link, link + 1 < links.length → respond (.sendSuspend link) = Sent.refused) ∧
    ((∀ respond : (op : SuspendOp) → op.Answer F,
      SuspendsTogether links
          ((suspendAndServe (E := E) sha256 links out brokerPort).run respond).1) ↔
        links.length ≤ 1) := by
  have here (respond : (op : SuspendOp) → op.Answer F) :
      SuspendsTogether links
          ((suspendAndServe (E := E) sha256 links out brokerPort).run respond).1 ↔
        ∀ link, link + 1 < links.length → respond (.sendSuspend link) = Sent.refused := by
    have tail := quiet_checkpointAndServe (E := E) respond sha256 out brokerPort
    have joined := broadcast_joined_iff respond tail 0 links.length suspendTimeout
    have time := waited_joined_le respond tail 0 links.length suspendTimeout
    rw [← List.range_eq_range', Nat.zero_add] at joined time
    unfold suspendAndServe
    rw [Future.run_bind]
    constructor
    · intro together link before
      exact joined.mp together.broadcast link (Nat.zero_le link) before
    · intro refused
      have all : ∀ link, 0 ≤ link → link + 1 < links.length →
          respond (.sendSuspend link) = Sent.refused :=
        fun link _ before => refused link before
      exact ⟨joined.mpr all, time all⟩
  constructor
  · exact here
  · constructor
    · intro together
      let strip : Strip F :=
        { surfaces := [], scrollPos := 0, viewportWidth := 0, viewportHeight := 0, focus := none }
      by_contra several
      have refused := (here (silent strip)).mp (together (silent strip)) 0 (by omega)
      cases refused
    · intro few respond
      rw [here]
      intro link before
      omega

end

def announcedLink : Link :=
  { announce := sampleAnnounce, hostAddr := .v4 ⟨127, 0, 0, 1⟩ 7001, buf := []
    recv := ⟨[], none⟩ }

/-- Two silent hosts are waited for in turn, ten seconds in all. -/
theorem silent_hosts_waited_in_turn :
    ¬ SuspendsTogether [announcedLink, announcedLink]
      ((suspendAndServe (E := Unit) sha256Digest [announcedLink, announcedLink]
        "session.xml".toList 7000).run (silent (Strip.new (1200 : ℚ) 800))).1 := by
  intro together
  have bothPeriods := together.onePeriod
  unfold suspendAndServe at bothPeriods
  rw [Future.run_bind] at bothPeriods
  cases (show ¬ 5000 + (5000 + 0) ≤ suspendTimeout by decide) bothPeriods

end Simulboot
