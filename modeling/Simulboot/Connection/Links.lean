import Simulboot.Connection.Completion
import Simulboot.Library.Family

/-!
# Many links

A compositor and the hosts that it is linked to, or a host and the compositors that
connect to it one after another and at the same time: connections that share nothing,
their steps in any order. A link that breaks off holds up no other.
-/

set_option autoImplicit false

namespace Simulboot.Links

open Library Library.Family Connection

variable {ι C F E : Type} [DecidableEq ι] [DecidableEq C]

section

variable (postcard : Postcard (StructureMessage F) E) (announce : ι → SurfaceAnnounce)
  (resume : ι → Option Str)

/-- One step of one of the links, each with the host and the resumed session of its own. -/
def step (links : ι → Connection C F) (action : ι × Action C F) :
    Except Disabled (ι → Connection C F) :=
  stepAt (fun i => Connection.step postcard (announce i) (resume i)) links action

def run (actions : List (ι × Action C F)) : Except Disabled (ι → Connection C F) :=
  actions.foldlM (step postcard announce resume) fun _ => .initial

end

variable {postcard : Postcard (StructureMessage F) E} {announce : ι → SurfaceAnnounce}
  {resume : ι → Option Str} {actions : List (ι × Action C F)} {links : ι → Connection C F}

theorem run_eq_ok : run postcard announce resume actions = .ok links ↔
    ∀ i, Connection.run postcard (announce i) (resume i) (component i actions) = .ok (links i) :=
  @run_iff _ _ _ _ _ (fun i => Connection.step postcard (announce i) (resume i)) _ _ _

/-- On every link nothing but `send_input` and `suspend` is called. -/
def MethodsOnly (actions : List (ι × Action C F)) : Prop :=
  ∀ i c msg, (i, .calls c (.post msg)) ∉ actions

omit [DecidableEq C] in
private theorem MethodsOnly.link (methods : MethodsOnly actions) (i : ι) :
    Connection.MethodsOnly (component i actions) :=
  fun c msg member => methods i c msg (mem_component.mp member)

/-- Whatever becomes of the other links, one on which nothing has broken off can be brought to
rest by its own steps, and once it is at rest everything that was asked of it is done. -/
theorem links_complete (documented : postcard.Documented) (methods : MethodsOnly actions)
    (reached : run postcard announce resume actions = .ok links) {i : ι}
    (carriable : Carriable (announce i) (resume i) postcard) (intact : Intact (links i)) :
    (∃ (own : List (Action C F)) (links' : ι → Connection C F), (∀ action ∈ own, goesOn action = true) ∧
        run postcard announce resume (actions ++ own.map (Prod.mk i)) = .ok links' ∧
          (∀ j ≠ i, links' j = links j) ∧
            AtRest postcard (announce i) (resume i) (links' i)) ∧
      ∀ more links', (∀ action, (i, action) ∈ more → goesOn action = true) →
        run postcard announce resume (actions ++ more) = .ok links' →
          AtRest postcard (announce i) (resume i) (links' i) →
            Done (announce i) (resume i) (links' i) := by
  have each := run_eq_ok.mp reached
  have underway := underway_of_run documented (methods.link i) (each i)
  constructor
  · obtain ⟨own, final, going, further, rest⟩ :=
      underway.exists_rest documented (idleOutside_of_run (each i))
    refine ⟨own, Function.update links i final, going, ?_, fun j other =>
      Function.update_of_ne other final links, by rwa [Function.update_self]⟩
    refine run_eq_ok.mpr fun j => ?_
    by_cases same : j = i
    · subst same
      rw [component_append, component_own, Function.update_self]
      exact Run.append (each j) further
    · rw [component_append, component_other (Ne.symm same), List.append_nil,
        Function.update_of_ne same]
      exact each j
  · intro more links' going whole rest
    have own := run_eq_ok.mp whole i
    rw [component_append] at own
    obtain ⟨middle, earlier, further⟩ := Run.append_eq_ok own
    have same : middle = links i := Except.ok.inj (earlier.symm.trans (each i))
    subst same
    exact underway.going_done documented carriable intact
      (fun action member => going action (mem_component.mp member)) further rest

/-- Where every link is asked to suspend once, each call that returns true has had its own
Suspend processed by its own host, and all that was put on the link before it. -/
theorem acked_processed (documented : postcard.Documented) (methods : MethodsOnly actions)
    (reached : run postcard announce resume actions = .ok links) {i : ι}
    (few : (links i).history.enqueued.countP isSuspend ≤ 1) {c : C} {ticket : Nat}
    (awaiting : (links i).calls c = .awaitingAck ticket) {after : Connection C F}
    (returns : (links i).acked c = .ok after) :
    Acknowledged postcard (resume i) (links i) ticket := by
  have own := run_eq_ok.mp reached i
  obtain ⟨⟨⟨g, coherent⟩, _⟩, _⟩ := underway_of_run documented (methods.link i) own
  have lone := lone_of_run documented (methods.link i) own few
  refine lone.acknowledged documented coherent awaiting few ?_
  unfold Connection.acked at returns
  split at returns
  · rename_i taken
    rw [Bounded.items_of_tryRecv taken]
    exact List.cons_ne_nil _ _
  · cases returns

/-! ## A link next to a broken one -/

/-- The host of one link is lost while it announces itself, and the other link suspends. -/
def besideBroken : List (Bool × Action Unit UInt32) :=
  [(false, .hostAnnounces), (false, .hostWriteFails)] ++ (linking ++ suspending).map (Prod.mk true)

private theorem besideBroken_methods : MethodsOnly besideBroken := by
  intro i c msg member
  simp [besideBroken, linking, suspending] at member

theorem besideBroken_completes :
    ∃ links, run (StructureMessage.postcard Library.Postcard.Format.f32) (fun _ => sampleAnnounce)
        (fun _ => none) besideBroken = .ok links ∧ (links false).host = .ended ∧
      ∃ (own : List (Action Unit UInt32)) (links' : Bool → Connection Unit UInt32),
        run (StructureMessage.postcard Library.Postcard.Format.f32) (fun _ => sampleAnnounce)
          (fun _ => none) (besideBroken ++ own.map (Prod.mk true)) = .ok links' ∧
        Done sampleAnnounce none (links' true) := by
  have done : (run (StructureMessage.postcard Library.Postcard.Format.f32)
      (fun _ => sampleAnnounce) (fun _ => none) besideBroken).map (fun links =>
        ((links false).host, (links true).host, (links true).backend,
          undisturbed (links true).client)) = .ok (.ended, .reading, .running, true) := by decide
  cases reached : run (StructureMessage.postcard Library.Postcard.Format.f32)
      (fun _ => sampleAnnounce) (fun _ => none) besideBroken with
  | error e =>
      rw [reached] at done
      cases done
  | ok links =>
      rw [reached] at done
      obtain ⟨broken, done⟩ := Prod.mk.inj (Except.ok.inj done)
      obtain ⟨host, done⟩ := Prod.mk.inj done
      obtain ⟨backend, client⟩ := Prod.mk.inj done
      have intact : Intact (links true) := ⟨host ▸ nofun, backend, client⟩
      obtain ⟨⟨own, links', going, whole, _, rest⟩, all⟩ :=
        links_complete documented_f32 besideBroken_methods reached carriable_sample intact
      refine ⟨links, rfl, broken, own, links', whole, all _ links' ?_ whole rest⟩
      intro action member
      obtain ⟨other, listed, same⟩ := List.mem_map.mp member
      cases same
      exact going action listed

theorem besideBroken_acked :
    ∃ links after, run (StructureMessage.postcard Library.Postcard.Format.f32)
        (fun _ => sampleAnnounce) (fun _ => none)
        (besideBroken ++ acknowledging.map (Prod.mk true)) = .ok links ∧
      (links true).acked () = .ok after ∧
      Acknowledged (StructureMessage.postcard Library.Postcard.Format.f32) none (links true) 1 := by
  have done : (run (StructureMessage.postcard Library.Postcard.Format.f32)
      (fun _ => sampleAnnounce) (fun _ => none)
      (besideBroken ++ acknowledging.map (Prod.mk true))).map (fun links =>
        ((links true).calls (), ((links true).acked ()).isOk, (links true).history.enqueued)) =
      .ok (.awaitingAck 1, true, [.suspend]) := by decide
  cases reached : run (StructureMessage.postcard Library.Postcard.Format.f32)
      (fun _ => sampleAnnounce) (fun _ => none)
      (besideBroken ++ acknowledging.map (Prod.mk true)) with
  | error e =>
      rw [reached] at done
      cases done
  | ok links =>
      rw [reached] at done
      obtain ⟨awaiting, done⟩ := Prod.mk.inj (Except.ok.inj done)
      obtain ⟨returns, enqueued⟩ := Prod.mk.inj done
      have methods : MethodsOnly (besideBroken ++ acknowledging.map (Prod.mk true)) := by
        intro i c msg member
        simp [besideBroken, linking, suspending, acknowledging] at member
      have few : (links true).history.enqueued.countP isSuspend ≤ 1 := by
        rw [enqueued]
        decide
      cases returned : (links true).acked () with
      | error e =>
          rw [returned] at returns
          cases returns
      | ok after =>
          exact ⟨links, after, rfl, returned,
            acked_processed documented_f32 methods reached few awaiting returned⟩

end Simulboot.Links
