import Simulboot.Content.Diagnostics

/-!
# The queues drain

Full queues hold up the tasks before them, but not for good: once nothing new is captured,
every task goes on until nothing is left between the captures and the strip, and then every
frame was noted that the host did not drop and the network did not lose.
-/

set_option autoImplicit false
set_option linter.unusedSectionVars false

namespace Simulboot

open Library Library.Postcard Library.Family

variable {format : Format FrameHeader}

/-! ## One link -/

/-- The steps by which the frames of a link get on. -/
def LinkAction.goesOn : LinkAction → Bool
  | .forwards _ | .arrives _ => true
  | .captures _ | .senderEnds | .loses _ | .pumpEnds => false

namespace ContentLink

variable {surfaceId : SurfaceId} {link link' : ContentLink} {handed : List FrameEvent}

/-- The steps that the frames of a link need up to the shared queue, and those that they need
behind it. -/
def work (link : ContentLink) : Nat :=
  5 * link.frames.items.length + 4 * link.flight.length + 3 * link.pump.held.toList.length

private theorem work_step {action : LinkAction} (going : action.goesOn = true)
    (stepped : link.step format surfaceId action = .ok link') : link'.work < link.work := by
  cases action with
  | forwards outlet =>
      change link.forwards format surfaceId outlet = .ok link' at stepped
      unfold forwards at stepped
      split at stepped
      · rename_i taken
        have items := congrArg List.length (Bounded.items_of_tryRecv taken)
        rw [List.length_cons] at items
        split at stepped <;> cases stepped <;>
          simp only [work, List.length_append, List.length_singleton, items] <;> omega
      · cases stepped
  | arrives n =>
      change link.arrives format n = .ok link' at stepped
      unfold arrives at stepped
      split at stepped
      · rename_i reading found
        have fewer := (eraseIdx_perm found).length_eq
        rw [List.length_cons] at fewer
        split at stepped <;> cases stepped <;>
          simp only [work, reading, PumpTask.held, Option.toList_some, Option.toList_none,
            List.length_singleton, List.length_nil, fewer] <;> omega
      · cases stepped
  | captures _ | senderEnds | loses _ | pumpEnds => cases going

private theorem kept_step {action : LinkAction} (going : action.goesOn = true)
    (stepped : link.step format surfaceId action = .ok link') :
    link'.captured = link.captured ∧ link'.lost = link.lost ∧
      (link.pump ≠ .ended → link'.pump ≠ .ended) := by
  cases action with
  | forwards outlet =>
      change link.forwards format surfaceId outlet = .ok link' at stepped
      unfold forwards at stepped
      split at stepped
      · split at stepped <;> cases stepped <;> exact ⟨rfl, rfl, id⟩
      · cases stepped
  | arrives n =>
      change link.arrives format n = .ok link' at stepped
      unfold arrives at stepped
      split at stepped
      · split at stepped <;> cases stepped
        · exact ⟨rfl, rfl, nofun⟩
        · exact ⟨rfl, rfl, id⟩
      · cases stepped
  | captures _ | senderEnds | loses _ | pumpEnds => cases going

/-- A link on which no step is possible has handed everything on that it could. -/
theorem drained (accounted : link.Accounted format surfaceId handed)
    (rest : ∀ action link', action.goesOn = true → link.step format surfaceId action ≠ .ok link')
    (reading : link.pump = .reading) :
    (link.captured.map (EncodedFrame.event surfaceId)).Perm
      (handed ++ link.lost.filterMap (arrival format) ++
        link.dropped.map (EncodedFrame.event surfaceId)) := by
  have flight : link.flight = [] := by
    cases flying : link.flight with
    | nil => rfl
    | cons datagram later =>
        have front : link.flight[0]? = some datagram := by rw [flying]; rfl
        have some : ∃ link', link.arrives format 0 = .ok link' := by
          unfold arrives
          rw [reading, front]
          dsimp only
          split <;> exact ⟨_, rfl⟩
        obtain ⟨link', stepped⟩ := some
        exact absurd stepped (rest (.arrives 0) link' rfl)
  have frames : link.frames.items = [] := by
    cases running : link.sender with
    | ended => exact accounted.cancelled running
    | running =>
        by_contra waiting
        obtain ⟨⟨frame, frames⟩, taken⟩ := Bounded.tryRecv_of_ne_nil waiting
        have some : ∃ link', link.forwards format surfaceId ⟨none, .ok ()⟩ = .ok link' := by
          unfold forwards
          rw [running, taken]
          dsimp only
          split <;> exact ⟨_, rfl⟩
        obtain ⟨link', stepped⟩ := some
        exact rest (.forwards ⟨none, .ok ()⟩) link' rfl stepped
  have each := accounted.each
  unfold outstanding at each
  rw [reading, flight, frames] at each
  rwa [List.nil_append, List.nil_append, PumpTask.held, Option.toList_none, List.nil_append,
    ← List.append_assoc] at each

end ContentLink

/-! ## All links -/

namespace Content

variable {ι F : Type} [DecidableEq ι] [Zero F] [One F] [OfNat F 3] [Add F] [Sub F] [Div F] [Max F]
variable [LT F] [LE F] [DecidableLT F] [DecidableLE F]
variable {ids : ι → SurfaceId} {showScroll : F → Str} {s s' : Content ι F}

def goesOn : ContentAction ι F → Bool
  | .link _ action => action.goesOn
  | .hands _ | .takes | .notes => true
  | .changes _ | .presents => false

/-- Nothing between the captures and the strip can go on. -/
def AtRest (format : Format FrameHeader) (ids : ι → SurfaceId) (showScroll : F → Str)
    (s : Content ι F) : Prop :=
  Run.Rest (step format ids showScroll) goesOn s

/-- The steps that all frames need. -/
def work [Fintype ι] (s : Content ι F) : Nat :=
  (∑ i, (s.links i).work) + 2 * s.events.items.length + s.noting.toList.length

private theorem sum_work_setLink [Fintype ι] (s : Content ι F) (i : ι) (link : ContentLink) :
    (∑ j, ((s.setLink i link).links j).work) + (s.links i).work =
      (∑ j, (s.links j).work) + link.work := by
  have others : ∀ j ∈ Finset.univ.erase i,
      ((s.setLink i link).links j).work = (s.links j).work := by
    intro j member
    rw [setLink_links_of_ne (Finset.ne_of_mem_erase member)]
  rw [← Finset.add_sum_erase _ _ (Finset.mem_univ i), ← Finset.add_sum_erase _ _ (Finset.mem_univ i),
    Finset.sum_congr rfl others, setLink_links_self]
  omega

private theorem work_step [Fintype ι] {action : ContentAction ι F} (going : goesOn action = true)
    (stepped : s.step format ids showScroll action = .ok s') : s'.work < s.work := by
  cases action with
  | link i action =>
      obtain ⟨link, moved, rfl⟩ := link_eq_ok.mp stepped
      have less := ContentLink.work_step going moved
      have sum := s.sum_work_setLink i link
      simp only [work, setLink] at sum ⊢
      omega
  | hands i =>
      obtain ⟨ev, events, handing, sent, rfl⟩ := hands_eq_ok.mp stepped
      have items := congrArg List.length (Bounded.items_of_trySend sent)
      rw [List.length_append, List.length_singleton] at items
      have sum := s.sum_work_setLink i (s.links i).readsOn
      have less : (s.links i).readsOn.work + 3 = (s.links i).work := by
        simp only [ContentLink.work, ContentLink.readsOn, handing, PumpTask.held, Option.toList_some,
          Option.toList_none, List.length_singleton, List.length_nil]
      simp only [work, setLink, items] at sum ⊢
      omega
  | takes =>
      obtain ⟨ev, events, nothing, taken, rfl⟩ := takes_eq_ok.mp stepped
      have items := congrArg List.length (Bounded.items_of_tryRecv taken)
      rw [List.length_cons] at items
      simp only [work, nothing, items, Option.toList_some, Option.toList_none,
        List.length_singleton, List.length_nil]
      omega
  | notes =>
      obtain ⟨ev, held, rfl⟩ := notes_eq_ok.mp stepped
      simp only [work, held, Option.toList_some, Option.toList_none, List.length_singleton,
        List.length_nil]
      omega
  | changes _ | presents => cases going

private theorem kept_step {action : ContentAction ι F} (going : goesOn action = true)
    (stepped : s.step format ids showScroll action = .ok s') (i : ι) :
    (s'.links i).captured = (s.links i).captured ∧ (s'.links i).lost = (s.links i).lost ∧
      ((s.links i).pump ≠ .ended → (s'.links i).pump ≠ .ended) := by
  cases action with
  | link j action =>
      obtain ⟨link, moved, rfl⟩ := link_eq_ok.mp stepped
      by_cases own : i = j
      · subst own
        rw [setLink_links_self]
        exact ContentLink.kept_step going moved
      · rw [setLink_links_of_ne own]
        exact ⟨rfl, rfl, id⟩
  | hands j =>
      obtain ⟨ev, events, handing, sent, rfl⟩ := hands_eq_ok.mp stepped
      dsimp only
      by_cases own : i = j
      · subst own
        rw [setLink_links_self]
        exact ⟨rfl, rfl, nofun⟩
      · rw [setLink_links_of_ne own]
        exact ⟨rfl, rfl, id⟩
  | takes =>
      obtain ⟨ev, events, _, _, rfl⟩ := takes_eq_ok.mp stepped
      exact ⟨rfl, rfl, id⟩
  | notes =>
      obtain ⟨ev, _, rfl⟩ := notes_eq_ok.mp stepped
      exact ⟨rfl, rfl, id⟩
  | changes _ | presents => cases going

private theorem kept_of_going {more : List (ContentAction ι F)} (going : ∀ action ∈ more, goesOn action = true)
    (run : more.foldlM (step format ids showScroll) s = .ok s') (i : ι) :
    (s'.links i).captured = (s.links i).captured ∧ (s'.links i).lost = (s.links i).lost ∧
      ((s.links i).pump ≠ .ended → (s'.links i).pump ≠ .ended) := by
  refine @Run.invariant _ _ _ _ (fun s' : Content ι F =>
    (s'.links i).captured = (s.links i).captured ∧ (s'.links i).lost = (s.links i).lost ∧
      ((s.links i).pump ≠ .ended → (s'.links i).pump ≠ .ended)) _ _ _ ?_ ⟨rfl, rfl, id⟩ run
  rintro action member before after ⟨captured, lost, pump⟩ stepped
  obtain ⟨same, none, alive⟩ := kept_step (going action member) stepped i
  exact ⟨same.trans captured, none.trans lost, alive ∘ pump⟩

private theorem AtRest.queue (rest : AtRest format ids showScroll s) :
    s.noting = none ∧ s.events.items = [] ∧ ∀ i ev, (s.links i).pump ≠ .handing ev := by
  have noting : s.noting = none := by
    cases held : s.noting with
    | none => rfl
    | some ev => exact absurd (notes_eq_ok.mpr ⟨ev, held, rfl⟩) (rest .notes _ rfl)
  have events : s.events.items = [] := by
    by_contra waiting
    obtain ⟨⟨ev, events⟩, taken⟩ := Bounded.tryRecv_of_ne_nil waiting
    exact rest .takes _ rfl (takes_eq_ok.mpr ⟨ev, events, noting, taken, rfl⟩)
  refine ⟨noting, events, fun i ev handing => ?_⟩
  have room : s.events.items.length < 256 := by
    rw [events]
    decide
  obtain ⟨after, sent⟩ := Bounded.trySend_of_lt room ev
  exact rest (.hands i) _ rfl (hands_eq_ok.mpr ⟨ev, after, handing, sent, rfl⟩)

private theorem AtRest.drained (rest : AtRest format ids showScroll s) (accounted : Accounted format ids s) :
    s.noted = s.handed.map Prod.snd ∧ ∀ i, (s.links i).pump ≠ .ended →
      ((s.links i).captured.map (EncodedFrame.event (ids i))).Perm
        (component i s.handed ++ (s.links i).lost.filterMap (arrival format) ++
          (s.links i).dropped.map (EncodedFrame.event (ids i))) := by
  obtain ⟨noting, events, pumps⟩ := rest.queue
  constructor
  · rw [accounted.queued, noting, events]
    simp
  · intro i alive
    refine ContentLink.drained (accounted.links i) (fun action link' going stepped => ?_) ?_
    · exact rest (.link i action) _ going (link_eq_ok.mpr ⟨link', stepped, rfl⟩)
    · cases pump : (s.links i).pump with
      | reading => rfl
      | handing ev => exact absurd pump (pumps i ev)
      | ended => exact absurd pump alive

/-- Whatever was captured when nothing new comes in gets to the strip within a bounded number
of steps, but for what the host drops and what the network has lost. -/
theorem frames_drain [Fintype ι] {viewportWidth viewportHeight : F}
    {actions : List (ContentAction ι F)}
    (reached : run format ids showScroll viewportWidth viewportHeight actions = .ok s) :
    (∃ more s', (∀ action ∈ more, goesOn action = true) ∧
        run format ids showScroll viewportWidth viewportHeight (actions ++ more) = .ok s' ∧
          AtRest format ids showScroll s') ∧
      ∀ more s', (∀ action ∈ more, goesOn action = true) →
        run format ids showScroll viewportWidth viewportHeight (actions ++ more) = .ok s' →
          more.length ≤ s.work ∧
            (AtRest format ids showScroll s' →
              s'.noted = s'.handed.map Prod.snd ∧ ∀ i, (s.links i).pump ≠ .ended →
                ((s.links i).captured.map (EncodedFrame.event (ids i))).Perm
                  (component i s'.handed ++ (s.links i).lost.filterMap (arrival format) ++
                    (s'.links i).dropped.map (EncodedFrame.event (ids i)))) := by
  constructor
  · obtain ⟨more, s', going, further, rest⟩ :=
      @Run.exists_rest _ _ _ (step format ids showScroll) (fun _ => True) work goesOn
        (fun action before after going _ stepped => ⟨trivial, work_step going stepped⟩) s trivial
    exact ⟨more, s', going, Run.append reached further, rest⟩
  · intro more s' going whole
    obtain ⟨middle, earlier, further⟩ := Run.append_eq_ok whole
    have same : middle = s := Except.ok.inj (earlier.symm.trans reached)
    subst same
    refine ⟨@Run.length_le_potential _ _ _ _ (fun _ => True) work _ _ _
      (fun action member before after _ stepped =>
        ⟨trivial, work_step (going action member) stepped⟩) trivial further, fun rest => ?_⟩
    obtain ⟨noted, each⟩ := rest.drained (accounted_of_run whole)
    refine ⟨noted, fun i alive => ?_⟩
    obtain ⟨captured, lost, pump⟩ := kept_of_going going further i
    have drained := each i (pump alive)
    rwa [captured, lost] at drained

theorem sampleContent_drains :
    ∃ s more s', run FrameHeader.format (fun _ => sampleAnnounce.id) ExactFloat.display 1200 800
        (sampleContent.take 5) = .ok s ∧ (s.links ()).captured.length = 2 ∧ s.noted = [] ∧
      run FrameHeader.format (fun _ => sampleAnnounce.id) ExactFloat.display 1200 800
        (sampleContent.take 5 ++ more) = .ok s' ∧ more.length ≤ s.work ∧
          s'.noted = s'.handed.map Prod.snd := by
  have done : (run FrameHeader.format (fun _ => sampleAnnounce.id) ExactFloat.display 1200 800
      (sampleContent.take 5)).map (fun s => ((s.links ()).captured.length, s.noted)) =
        .ok (2, []) := by decide
  cases reached : run FrameHeader.format (fun _ => sampleAnnounce.id) ExactFloat.display 1200 800
      (sampleContent.take 5) with
  | error e =>
      rw [reached] at done
      cases done
  | ok s =>
      rw [reached] at done
      obtain ⟨captured, noted⟩ := Prod.mk.inj (Except.ok.inj done)
      obtain ⟨⟨more, s', going, whole, rest⟩, all⟩ := frames_drain reached
      obtain ⟨short, drained⟩ := all more s' going whole
      exact ⟨s, more, s', rfl, captured, noted, whole, short, (drained rest).1⟩

end Content

end Simulboot
