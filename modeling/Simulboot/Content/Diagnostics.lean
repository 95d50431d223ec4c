import Mathlib.Algebra.BigOperators.Group.Finset.Basic
import Mathlib.Algebra.Order.BigOperators.Group.Finset
import Simulboot.Content.Accounting

/-!
# What a strip says about frames

Each surface shows the frames that arrived for it: no more than its hosts captured, with
the presentation time of one of them; and while the session is live, exactly those that
were noted since it was placed.
-/

set_option autoImplicit false
set_option linter.unusedSectionVars false

namespace Simulboot

open Library Library.Postcard Library.Family

variable {F : Type}

/-- What the frame pump keeps of a surface, behind its id. -/
def Surface.frameLog (s : Surface F) : SurfaceId × Option UInt64 × UInt64 :=
  (s.id, s.lastPts, s.framesReceived)

private theorem mem_updateFirst {α : Type} {test : α → Bool} {f : α → α} {items : List α} {a : α}
    (member : a ∈ updateFirst test f items) : a ∈ items ∨ ∃ b ∈ items, test b = true ∧ a = f b := by
  induction items with
  | nil => cases member
  | cons head rest ih =>
      unfold updateFirst at member
      split at member
      · rename_i here
        rcases List.mem_cons.mp member with rfl | later
        · exact .inr ⟨head, by simp, here, rfl⟩
        · exact .inl (by simp [later])
      · rcases List.mem_cons.mp member with rfl | later
        · exact .inl (by simp)
        · rcases ih later with old | ⟨b, inside, matching, rfl⟩
          · exact .inl (by simp [old])
          · exact .inr ⟨b, by simp [inside], matching, rfl⟩

variable [Zero F] [One F] [OfNat F 3] [Add F] [Sub F] [Div F] [Max F]
variable [LT F] [LE F] [DecidableLT F] [DecidableLE F]

namespace Strip

/-! ## Changes of the strip -/

/-- A change of the strip leaves the frame logs that stay and places surfaces without
frames. -/
theorem frameLog_change {strip : Strip F} {change : StripChange F}
    (frameless : change.frameless = true) {a : Surface F} (member : a ∈ (strip.change change).surfaces) :
    a.lastPts = none ∧ a.framesReceived = 0 ∨ a.frameLog ∈ strip.surfaces.map Surface.frameLog := by
  have kept : ∀ {surfaces : List (Surface F)},
      surfaces.map Surface.frameLog = strip.surfaces.map Surface.frameLog → a ∈ surfaces →
        a.frameLog ∈ strip.surfaces.map Surface.frameLog := by
    intro surfaces same inside
    rw [← same]
    exact List.mem_map_of_mem inside
  cases change with
  | restored entry announce addr =>
      change a ∈ (strip.surfaces ++ [_]).insertionSort _ at member
      rcases List.mem_append.mp ((List.perm_insertionSort _ _).mem_iff.mp member) with old | new
      · exact .inr (kept rfl old)
      · cases List.mem_singleton.mp new
        exact .inl ⟨rfl, rfl⟩
  | live action =>
      cases action with
      | hostAnnounced announce addr =>
          rw [change, live, append_surfaces] at member
          rcases List.mem_append.mp member with old | new
          · exact .inr (kept rfl old)
          · cases List.mem_singleton.mp new
            exact .inl ⟨rfl, rfl⟩
      | surfaceRemoved id =>
          rcases strip.remove_surfaces id with same | removed
          · exact .inr (kept (congrArg _ same) member)
          · rw [change, live, removed] at member
            have inside := List.mem_map_of_mem (f := Surface.frameLog) member
            rw [map_renumber (g := Surface.frameLog) fun _ _ => rfl] at inside
            exact .inr (List.map_subset _ List.eraseP_subset inside)
      | scrolledBy dx => exact .inr (kept rfl member)
      | scrolledTo pos => exact .inr (kept rfl member)
      | focused id => exact .inr (kept (by rw [change, live, setFocus_surfaces]) member)
      | focusedOpt id => exact .inr (kept rfl member)
      | clicked vx vy => exact .inr (kept (by rw [change, live, click_surfaces]) member)
      | frameArrived id pts => cases frameless

/-! ## No more than was noted -/

/-- What the surfaces show was noted. -/
def ShowsNoted (strip : Strip F) (noted : List FrameEvent) : Prop :=
  ∀ a ∈ strip.surfaces,
    a.framesReceived.toNat ≤ noted.countP (fun ev => ev.surfaceId = a.id) ∧
      (∀ pts, a.lastPts = some pts → ⟨a.id, pts⟩ ∈ noted) ∧
      (a.lastPts = none → a.framesReceived = 0)

private theorem ShowsNoted.change {strip : Strip F} {noted : List FrameEvent} {change : StripChange F}
    (shows : strip.ShowsNoted noted) (frameless : change.frameless = true) :
    (strip.change change).ShowsNoted noted := by
  intro a member
  rcases frameLog_change frameless member with ⟨unseen, none⟩ | known
  · rw [unseen, none]
    exact ⟨Nat.zero_le _, nofun, fun _ => rfl⟩
  · obtain ⟨b, inside, same⟩ := List.mem_map.mp known
    obtain ⟨id, logs⟩ := Prod.mk.inj same
    obtain ⟨lastPts, framesReceived⟩ := Prod.mk.inj logs
    rw [← id, ← lastPts, ← framesReceived]
    exact shows b inside

private theorem ShowsNoted.noteFrame {strip : Strip F} {noted : List FrameEvent} (ev : FrameEvent)
    (shows : strip.ShowsNoted noted) :
    (strip.noteFrame ev.surfaceId ev.pts).ShowsNoted (noted ++ [ev]) := by
  intro a member
  rw [List.countP_append]
  rcases mem_updateFirst member with old | ⟨b, inside, matching, rfl⟩
  · obtain ⟨count, last, unseen⟩ := shows a old
    exact ⟨Nat.le_add_right_of_le count, fun pts some => List.mem_append_left _ (last pts some),
      unseen⟩
  · have own : b.id = ev.surfaceId := of_decide_eq_true matching
    obtain ⟨count, _, _⟩ := shows b inside
    refine ⟨?_, ?_, nofun⟩
    · have one : [ev].countP (fun other => other.surfaceId = b.id) = 1 := by simp [own]
      have wraps : (b.framesReceived + 1).toNat ≤ b.framesReceived.toNat + 1 := by
        rw [UInt64.toNat_add]
        exact Nat.mod_le _ _
      exact wraps.trans (Nat.add_le_add count one.ge)
    · rintro pts some
      cases some
      change (⟨b.id, ev.pts⟩ : FrameEvent) ∈ _
      rw [own]
      exact List.mem_append_right _ (List.mem_singleton.mpr rfl)

end Strip

namespace Content

variable {ι : Type} [DecidableEq ι] {format : Format FrameHeader} {ids : ι → SurfaceId}
  {showScroll : F → Str} {s s' : Content ι F}

theorem showsNoted_step {action : ContentAction ι F} (shows : s.strip.ShowsNoted s.noted)
    (stepped : s.step format ids showScroll action = .ok s') : s'.strip.ShowsNoted s'.noted := by
  cases action with
  | link i action =>
      obtain ⟨link, _, rfl⟩ := link_eq_ok.mp stepped
      exact shows
  | hands i =>
      obtain ⟨ev, events, _, _, rfl⟩ := hands_eq_ok.mp stepped
      exact shows
  | takes =>
      obtain ⟨ev, events, _, _, rfl⟩ := takes_eq_ok.mp stepped
      exact shows
  | notes =>
      obtain ⟨ev, _, rfl⟩ := notes_eq_ok.mp stepped
      exact shows.noteFrame ev
  | changes change =>
      obtain ⟨frameless, rfl⟩ := onlyIf_eq_ok.mp stepped
      exact shows.change frameless
  | presents =>
      cases stepped
      exact shows

theorem showsNoted_of_run {viewportWidth viewportHeight : F} {actions : List (ContentAction ι F)}
    (reached : run format ids showScroll viewportWidth viewportHeight actions = .ok s) :
    s.strip.ShowsNoted s.noted :=
  @Run.invariant _ _ _ _ (fun s : Content ι F => s.strip.ShowsNoted s.noted) _ _ _
    (fun _ _ _ _ shows stepped => showsNoted_step shows stepped)
    (fun _ member => absurd member List.not_mem_nil) reached

/-- What was handed on with an id came from the links whose hosts announce it. -/
theorem Accounted.countP_le [Fintype ι] (accounted : Accounted format ids s) (id : SurfaceId) :
    s.noted.countP (fun ev => ev.surfaceId = id) ≤
      ∑ i with ids i = id, (s.links i).captured.length := by
  have noted : s.noted.countP (fun ev => ev.surfaceId = id) ≤
      (s.handed.map Prod.snd).countP fun ev => ev.surfaceId = id := by
    rw [accounted.queued, List.countP_append, List.countP_append]
    omega
  refine noted.trans ?_
  rw [countP_component, Finset.sum_filter]
  refine Finset.sum_le_sum fun i _ => ?_
  split
  · exact List.countP_le_length.trans (accounted.links i).length_le
  · rename_i other
    refine (List.countP_eq_zero.mpr fun ev member => ?_).le
    obtain ⟨frame, _, rfl⟩ := (accounted.links i).captured_of_handed member
    exact fun same => other (of_decide_eq_true same)

/-- A surface shows no more frames than the hosts that announce its id have captured, and the
presentation time of one of these. -/
theorem frames_were_captured [Fintype ι] {viewportWidth viewportHeight : F}
    {actions : List (ContentAction ι F)}
    (reached : run format ids showScroll viewportWidth viewportHeight actions = .ok s) {a : Surface F}
    (placed : a ∈ s.strip.surfaces) :
    a.framesReceived.toNat ≤ ∑ i with ids i = a.id, (s.links i).captured.length ∧
      (∀ pts, a.lastPts = some pts →
        ∃ i, ids i = a.id ∧ ∃ frame ∈ (s.links i).captured, frame.pts = pts) ∧
      (a.lastPts = none → a.framesReceived = 0) := by
  have accounted := accounted_of_run reached
  obtain ⟨count, last, unseen⟩ := showsNoted_of_run reached a placed
  refine ⟨count.trans (accounted.countP_le a.id), fun pts some => ?_, unseen⟩
  have handed : (⟨a.id, pts⟩ : FrameEvent) ∈ s.handed.map Prod.snd := by
    rw [accounted.queued, List.append_assoc]
    exact List.mem_append_left _ (last pts some)
  obtain ⟨⟨i, ev⟩, member, rfl⟩ := List.mem_map.mp handed
  obtain ⟨frame, captured, same⟩ :=
    (accounted.links i).captured_of_handed (mem_component.mpr member)
  obtain ⟨id, time⟩ := FrameEvent.mk.inj same
  exact ⟨i, id, frame, captured, time⟩

end Content

/-! ## Exactly what was noted -/

private theorem find?_updateFirst_self {α : Type} {test : α → Bool} {f : α → α}
    (kept : ∀ a, test (f a) = test a) (items : List α) :
    (updateFirst test f items).find? test = (items.find? test).map f := by
  induction items with
  | nil => rfl
  | cons head rest ih =>
      unfold updateFirst
      cases here : test head with
      | true =>
          rw [if_pos rfl, List.find?_cons_of_pos ((kept head).trans here),
            List.find?_cons_of_pos here, Option.map_some]
      | false => simp [here, ih]

private theorem find?_updateFirst_other {α : Type} {test other : α → Bool} {f : α → α}
    (kept : ∀ a, other (f a) = other a) (apart : ∀ a, other a = true → test a = false)
    (items : List α) : (updateFirst test f items).find? other = items.find? other := by
  induction items with
  | nil => rfl
  | cons head rest ih =>
      unfold updateFirst
      cases here : test head with
      | true =>
          have missed : ¬ other head = true := fun matching => by
            rw [apart head matching] at here
            cases here
          rw [if_pos rfl, List.find?_cons_of_neg missed,
            List.find?_cons_of_neg (kept head ▸ missed)]
      | false => simp [List.find?_cons, ih]

private theorem find?_eraseP {α : Type} {test other : α → Bool}
    (apart : ∀ a, other a = true → test a = false) (items : List α) :
    (items.eraseP test).find? other = items.find? other := by
  induction items with
  | nil => rfl
  | cons head rest ih =>
      cases here : test head with
      | true =>
          have missed : ¬ other head = true := fun matching => by
            rw [apart head matching] at here
            cases here
          rw [List.eraseP_cons_of_pos here, List.find?_cons_of_neg missed]
      | false =>
          rw [List.eraseP_cons_of_neg (by simp [here]), List.find?_cons, List.find?_cons, ih]

namespace Strip

/-- The frame log of the first surface with an id. -/
def logOf (strip : Strip F) (id : SurfaceId) : Option (SurfaceId × Option UInt64 × UInt64) :=
  (strip.get id).map Surface.frameLog

private theorem logOf_eq (strip : Strip F) (id : SurfaceId) :
    strip.logOf id = (strip.surfaces.map Surface.frameLog).find? fun log => log.1 = id := by
  rw [List.find?_map]
  rfl

private theorem logOf_live {strip : Strip F} {action : LiveAction F} {id : SurfaceId}
    (frameless : (StripChange.live action).frameless = true) (kept : action ≠ .surfaceRemoved id)
    {log : SurfaceId × Option UInt64 × UInt64} (found : strip.logOf id = some log) :
    (strip.live action).logOf id = some log := by
  rw [logOf_eq] at found ⊢
  cases action with
  | hostAnnounced announce addr =>
      rw [live, append_surfaces, List.map_append, List.find?_append, found, Option.some_or]
  | surfaceRemoved other =>
      have apart : ∀ s : Surface F, decide (s.frameLog.1 = id) = true →
          decide (s.id = other) = false := by
        intro s matching
        have own : s.id = id := of_decide_eq_true matching
        exact decide_eq_false fun same => kept (by rw [← same, own])
      rcases strip.remove_surfaces other with same | removed
      · rw [live, same, found]
      · rw [live, removed, map_renumber (g := Surface.frameLog) fun _ _ => rfl, List.find?_map,
          Function.comp_def, find?_eraseP apart, ← found, List.find?_map]
        rfl
  | scrolledBy dx => exact found
  | scrolledTo pos => exact found
  | focused other => rwa [live, setFocus_surfaces]
  | focusedOpt other => exact found
  | clicked vx vy => rwa [live, click_surfaces]
  | frameArrived other pts => cases frameless

private theorem get_noteFrame (strip : Strip F) (id other : SurfaceId) (pts : UInt64) :
    (strip.noteFrame other pts).get id =
      if other = id then (strip.get id).map (Surface.frameNoted pts) else strip.get id := by
  split
  · rename_i same
    subst same
    exact find?_updateFirst_self (f := Surface.frameNoted pts) (fun _ => rfl) strip.surfaces
  · rename_i apart
    refine find?_updateFirst_other (f := Surface.frameNoted pts) (fun _ => rfl)
      (fun s matching => ?_) strip.surfaces
    have own : s.id = id := of_decide_eq_true matching
    exact decide_eq_false fun same => apart (by rw [← same, own])

private theorem logOf_noteFrame (strip : Strip F) (id other : SurfaceId) (pts : UInt64) :
    (strip.noteFrame other pts).logOf id =
      if other = id then (strip.logOf id).map fun log => (log.1, some pts, log.2.2 + 1)
      else strip.logOf id := by
  unfold logOf
  rw [get_noteFrame]
  split
  · rw [Option.map_map, Option.map_map]
    rfl
  · rfl

end Strip

namespace Content

variable {ι : Type} [DecidableEq ι] {format : Format FrameHeader} {ids : ι → SurfaceId}
  {showScroll : F → Str} {s s' : Content ι F}

/-- A session goes on live without removing the surface of an id. -/
def keeps (id : SurfaceId) : ContentAction ι F → Bool
  | .changes (.live (.surfaceRemoved other)) => other != id
  | .changes (.restored _ _ _) => false
  | _ => true

/-- The log of a surface that showed `lastPts` and `framesReceived`, and for which `new` was
noted since. -/
def logAfter (id : SurfaceId) (lastPts : Option UInt64) (framesReceived : UInt64)
    (new : List FrameEvent) : SurfaceId × Option UInt64 × UInt64 :=
  let own := new.filter fun ev => ev.surfaceId = id
  (id, (own.getLast?.map FrameEvent.pts).or lastPts, framesReceived + .ofNat own.length)

private theorem logAfter_append (id : SurfaceId) (lastPts : Option UInt64) (framesReceived : UInt64)
    (new : List FrameEvent) (ev : FrameEvent) :
    logAfter id lastPts framesReceived (new ++ [ev]) =
      if ev.surfaceId = id then
        (id, some ev.pts, (logAfter id lastPts framesReceived new).2.2 + 1)
      else logAfter id lastPts framesReceived new := by
  by_cases own : ev.surfaceId = id <;>
    simp [logAfter, own, List.filter_append, UInt64.add_assoc]

theorem logged_of_run {more : List (ContentAction ι F)} {a : Surface F}
    (placed : s.strip.get a.id = some a) (kept : ∀ action ∈ more, keeps a.id action = true)
    (run : more.foldlM (step format ids showScroll) s = .ok s') :
    ∃ new, s'.noted = s.noted ++ new ∧
      s'.strip.logOf a.id = some (logAfter a.id a.lastPts a.framesReceived new) := by
  refine @Run.invariant _ _ _ _ (fun s' : Content ι F => ∃ new, s'.noted = s.noted ++ new ∧
      s'.strip.logOf a.id = some (logAfter a.id a.lastPts a.framesReceived new)) _ _ _ ?_ ?_ run
  · rintro action member before after ⟨new, noted, log⟩ stepped
    cases action with
    | link i action =>
        obtain ⟨link, _, rfl⟩ := link_eq_ok.mp stepped
        exact ⟨new, noted, log⟩
    | hands i =>
        obtain ⟨ev, events, _, _, rfl⟩ := hands_eq_ok.mp stepped
        exact ⟨new, noted, log⟩
    | takes =>
        obtain ⟨ev, events, _, _, rfl⟩ := takes_eq_ok.mp stepped
        exact ⟨new, noted, log⟩
    | notes =>
        obtain ⟨ev, _, rfl⟩ := notes_eq_ok.mp stepped
        refine ⟨new ++ [ev], by rw [noted, List.append_assoc], ?_⟩
        dsimp only
        rw [Strip.logOf_noteFrame, log, logAfter_append]
        split <;> rfl
    | changes change =>
        obtain ⟨frameless, rfl⟩ := onlyIf_eq_ok.mp stepped
        refine ⟨new, noted, ?_⟩
        have keeping := kept _ member
        cases change with
        | restored entry announce addr => cases keeping
        | live action =>
            refine Strip.logOf_live frameless ?_ log
            rintro rfl
            simp [keeps] at keeping
    | presents =>
        cases stepped
        exact ⟨new, noted, log⟩
  · refine ⟨[], (List.append_nil _).symm, ?_⟩
    unfold Strip.logOf
    rw [placed]
    simp [logAfter, Surface.frameLog]

/-- While a live session goes on and keeps a surface, the surface counts exactly the frames
that are noted with its id, and shows the presentation time of the last one. -/
theorem frames_counted {more : List (ContentAction ι F)} {a : Surface F}
    (placed : s.strip.get a.id = some a) (kept : ∀ action ∈ more, keeps a.id action = true)
    (run : more.foldlM (step format ids showScroll) s = .ok s') :
    ∃ new a', s'.noted = s.noted ++ new ∧ s'.strip.get a.id = some a' ∧
      a'.framesReceived = a.framesReceived +
        .ofNat (new.filter fun ev => ev.surfaceId = a.id).length ∧
      a'.lastPts = ((new.filter fun ev => ev.surfaceId = a.id).getLast?.map FrameEvent.pts).or
        a.lastPts := by
  obtain ⟨new, noted, log⟩ := logged_of_run placed kept run
  obtain ⟨a', found, same⟩ := Option.map_eq_some_iff.mp log
  obtain ⟨_, logs⟩ := Prod.mk.inj same
  obtain ⟨lastPts, framesReceived⟩ := Prod.mk.inj logs
  exact ⟨new, a', noted, found, framesReceived, lastPts⟩

theorem sampleContent_captured :
    ∃ s a, run FrameHeader.format (fun _ => sampleAnnounce.id) ExactFloat.display 1200 800
        sampleContent = .ok s ∧ a ∈ s.strip.surfaces ∧ a.framesReceived = 1 ∧
      a.framesReceived.toNat ≤
        ∑ i with sampleAnnounce.id = a.id, (s.links i).captured.length := by
  have done : (run FrameHeader.format (fun _ => sampleAnnounce.id) ExactFloat.display 1200 800
      sampleContent).map (fun s => s.strip.surfaces.map Surface.framesReceived) = .ok [1] := by
    decide
  cases reached : run FrameHeader.format (fun _ => sampleAnnounce.id) ExactFloat.display 1200 800
      sampleContent with
  | error e =>
      rw [reached] at done
      cases done
  | ok s =>
      rw [reached] at done
      have one : (1 : UInt64) ∈ s.strip.surfaces.map Surface.framesReceived := by
        rw [show s.strip.surfaces.map Surface.framesReceived = [1] from Except.ok.inj done]
        exact List.mem_singleton_self 1
      obtain ⟨a, placed, counted⟩ := List.mem_map.mp one
      exact ⟨s, a, rfl, placed, counted, (frames_were_captured reached placed).1⟩

theorem sampleContent_counted :
    ∃ (s s' : Content Unit ℚ) (a a' : Surface ℚ),
      sampleContent.tail.foldlM (step FrameHeader.format (fun _ => sampleAnnounce.id)
        ExactFloat.display) s = .ok s' ∧ s.strip.get a.id = some a ∧ a.lastPts = none ∧
      s'.strip.get a.id = some a' ∧ a'.lastPts = some 2 ∧ a'.framesReceived = 1 := by
  have done : (run FrameHeader.format (fun _ => sampleAnnounce.id) ExactFloat.display 1200 800
      sampleContent).map Content.noted = .ok [⟨sampleAnnounce.id, 2⟩] := by decide
  have placing : (run FrameHeader.format (fun _ => sampleAnnounce.id) ExactFloat.display 1200 800
      (sampleContent.take 1)).map (fun s => (s.noted, (s.strip.get sampleAnnounce.id).map
        Surface.frameLog)) = .ok ([], some (sampleAnnounce.id, none, 0)) := by decide
  cases reached : run FrameHeader.format (fun _ => sampleAnnounce.id) ExactFloat.display 1200 800
      sampleContent with
  | error e =>
      rw [reached] at done
      cases done
  | ok s' =>
      obtain ⟨s, first, rest⟩ := Run.append_eq_ok (show (sampleContent.take 1 ++
        sampleContent.tail).foldlM _ _ = _ from reached)
      rw [reached] at done
      rw [run, first] at placing
      obtain ⟨nothing, log⟩ := Prod.mk.inj (Except.ok.inj placing)
      obtain ⟨a, placed, same⟩ := Option.map_eq_some_iff.mp log
      obtain ⟨id, logs⟩ := Prod.mk.inj same
      obtain ⟨lastPts, framesReceived⟩ := Prod.mk.inj logs
      rw [← id] at placed
      have kept : ∀ action ∈ sampleContent.tail, keeps a.id action = true := by
        rw [id]
        decide
      obtain ⟨new, a', noted, found, counted, last⟩ := frames_counted placed kept rest
      have one : new = [⟨a.id, 2⟩] := by
        have all : s'.noted = [⟨sampleAnnounce.id, 2⟩] := Except.ok.inj done
        rw [id, ← all, noted, nothing, List.nil_append]
      rw [one] at counted last
      refine ⟨s, s', a, a', rest, placed, lastPts, found, ?_, ?_⟩
      · rw [last]
        simp
      · rw [counted, framesReceived]
        simp

end Content

end Simulboot
