import Mathlib.Data.List.Perm.Basic
import Simulboot.Content
import Simulboot.Library.ExactFloat

/-!
# No frame is lost without trace, and none arrives twice

Whatever the order of steps and whatever the network does, every captured frame is in
exactly one place: queued, dropped, on its way, lost, held by a pump, handed on. What is
handed on is noted in the order of the queue, and no pump meets a datagram that it cannot
decode.
-/

set_option autoImplicit false
set_option linter.unusedSectionVars false

namespace Simulboot

open Library Library.Postcard Library.Family

variable {format : Format FrameHeader}

/-- The arrival that a pump holds. -/
def PumpTask.held : PumpTask → Option FrameEvent
  | .handing ev => some ev
  | .reading | .ended => none

/-- The arrival that a datagram causes, if it can be decoded. -/
def arrival (format : Format FrameHeader) (datagram : Bytes) : Option FrameEvent :=
  (decodeDatagram format datagram).toOption

private theorem arrival_eq_some {datagram : Bytes} {ev : FrameEvent} :
    arrival format datagram = some ev ↔ decodeDatagram format datagram = .ok ev := by
  unfold arrival
  cases decodeDatagram format datagram <;> simp [Except.toOption]

theorem eraseIdx_perm {α : Type} {items : List α} {n : Nat} {item : α}
    (found : items[n]? = some item) : items.Perm (item :: items.eraseIdx n) := by
  obtain ⟨inside, rfl⟩ := List.getElem?_eq_some_iff.mp found
  exact (List.getElem_cons_eraseIdx_perm inside).symm

namespace ContentLink

/-- The arrivals of the frames that were captured and not handed on: held by the pump, on
their way or lost, queued or dropped. -/
def outstanding (format : Format FrameHeader) (surfaceId : SurfaceId) (link : ContentLink) :
    List FrameEvent :=
  link.pump.held.toList ++ (link.flight ++ link.lost).filterMap (arrival format) ++
    (link.frames.items ++ link.dropped).map (EncodedFrame.event surfaceId)

/-- The captured frames are those handed on and those outstanding, and every datagram is
one of a captured frame. -/
structure Accounted (format : Format FrameHeader) (surfaceId : SurfaceId) (link : ContentLink)
    (handed : List FrameEvent) : Prop where
  each : (link.captured.map (EncodedFrame.event surfaceId)).Perm
    (handed ++ link.outstanding format surfaceId)
  decodes : ∀ datagram ∈ link.flight, ∃ ev, decodeDatagram format datagram = .ok ev
  accepted : link.refused = []
  cancelled : link.sender = .ended → link.frames.items = []

variable {surfaceId : SurfaceId} {link link' : ContentLink} {handed : List FrameEvent}

private theorem accounted_initial : Accounted format surfaceId .initial [] where
  each := .nil
  decodes := nofun
  accepted := rfl
  cancelled := nofun

private theorem Accounted.captures {frame : EncodedFrame}
    (accounted : Accounted format surfaceId link handed)
    (stepped : link.captures frame = .ok link') : Accounted format surfaceId link' handed := by
  unfold ContentLink.captures at stepped
  split at stepped
  · rename_i frames running queued
    cases stepped
    have items := Bounded.items_of_trySend queued
    have cancelled : link.sender = .ended → frames.items = [] := by
      rw [running]
      nofun
    refine { accounted with each := ?_, cancelled }
    rw [List.perm_iff_count]
    intro ev
    have each := accounted.each.count_eq ev
    simp only [outstanding, items, List.map_append, List.count_append, List.filterMap_append]
      at each ⊢
    omega
  · cases stepped

private theorem Accounted.forwards {outlet : Outlet} (accounted : Accounted format surfaceId link handed)
    (stepped : link.forwards format surfaceId outlet = .ok link') :
    Accounted format surfaceId link' handed := by
  unfold ContentLink.forwards at stepped
  split at stepped
  · rename_i frame frames running taken
    have items := Bounded.items_of_tryRecv taken
    have cancelled : link.sender = .ended → frames.items = [] := by
      rw [running]
      nofun
    have dropping : ∀ frames' : Bounded 8 EncodedFrame, frames'.items = frames.items →
        Accounted format surfaceId
          { link with frames := frames', dropped := link.dropped ++ [frame] } handed := by
      intro frames' same
      refine { accounted with each := ?_, cancelled := same ▸ cancelled }
      rw [List.perm_iff_count]
      intro ev
      have each := accounted.each.count_eq ev
      simp only [outstanding, same, items, List.map_append, List.map_cons, List.map_nil,
        List.count_append, List.count_cons, List.count_nil] at each ⊢
      omega
    split at stepped
    · rename_i datagram sent
      cases stepped
      have decoded := decodeDatagram_of_sendFrame sent
      constructor
      · rw [List.perm_iff_count]
        intro ev
        have each := accounted.each.count_eq ev
        simp only [outstanding, items, List.map_append, List.map_cons, List.filterMap_append,
          List.filterMap_cons_some (arrival_eq_some.mpr decoded), List.filterMap_nil,
          List.count_append, List.count_cons, List.count_nil] at each ⊢
        omega
      · intro other flying
        cases List.mem_append.mp flying with
        | inl before => exact accounted.decodes other before
        | inr new =>
            cases List.mem_singleton.mp new
            exact ⟨_, decoded⟩
      · exact accounted.accepted
      · exact cancelled
    · cases stepped
      exact dropping frames rfl
    · cases stepped
      exact dropping frames rfl
  · cases stepped

private theorem Accounted.senderEnds (accounted : Accounted format surfaceId link handed)
    (stepped : link.senderEnds = .ok link') : Accounted format surfaceId link' handed := by
  cases stepped
  refine { accounted with each := ?_, cancelled := fun _ => rfl }
  rw [List.perm_iff_count]
  intro ev
  have each := accounted.each.count_eq ev
  simp only [outstanding, Bounded.empty, List.nil_append, List.map_append, List.count_append]
    at each ⊢
  omega

private theorem Accounted.loses {n : Nat} (accounted : Accounted format surfaceId link handed)
    (stepped : link.loses n = .ok link') : Accounted format surfaceId link' handed := by
  unfold ContentLink.loses at stepped
  split at stepped
  · rename_i datagram found
    cases stepped
    constructor
    · rw [List.perm_iff_count]
      intro ev
      have each := accounted.each.count_eq ev
      have moved := ((eraseIdx_perm found).filterMap (arrival format)).count_eq ev
      rw [← List.singleton_append, List.filterMap_append, List.count_append] at moved
      simp only [outstanding, List.filterMap_append, List.count_append] at each ⊢
      omega
    · exact fun other flying => accounted.decodes other (List.mem_of_mem_eraseIdx flying)
    · exact accounted.accepted
    · exact accounted.cancelled
  · cases stepped

private theorem Accounted.arrives {n : Nat} (accounted : Accounted format surfaceId link handed)
    (stepped : link.arrives format n = .ok link') : Accounted format surfaceId link' handed := by
  unfold ContentLink.arrives at stepped
  split at stepped
  · rename_i datagram reading found
    obtain ⟨arrived, decoded⟩ := accounted.decodes datagram (List.mem_of_getElem? found)
    rw [decoded] at stepped
    cases stepped
    constructor
    · rw [List.perm_iff_count]
      intro ev
      have each := accounted.each.count_eq ev
      have moved := ((eraseIdx_perm found).filterMap (arrival format)).count_eq ev
      rw [List.filterMap_cons_some (arrival_eq_some.mpr decoded), List.count_cons] at moved
      simp only [outstanding, reading, PumpTask.held, Option.toList_some, Option.toList_none,
        List.filterMap_append, List.count_append, List.count_cons, List.count_nil] at each ⊢
      omega
    · exact fun other flying => accounted.decodes other (List.mem_of_mem_eraseIdx flying)
    · exact accounted.accepted
    · exact accounted.cancelled
  · cases stepped

private theorem Accounted.pumpEnds (accounted : Accounted format surfaceId link handed)
    (stepped : link.pumpEnds = .ok link') : Accounted format surfaceId link' handed := by
  unfold ContentLink.pumpEnds at stepped
  split at stepped
  · rename_i reading
    cases stepped
    have each := accounted.each
    unfold outstanding at each
    rw [reading] at each
    exact { accounted with each }
  · cases stepped

theorem Accounted.step {action : LinkAction} (accounted : Accounted format surfaceId link handed)
    (stepped : link.step format surfaceId action = .ok link') :
    Accounted format surfaceId link' handed := by
  cases action with
  | captures frame => exact accounted.captures stepped
  | forwards outlet => exact accounted.forwards stepped
  | senderEnds => exact accounted.senderEnds stepped
  | loses n => exact accounted.loses stepped
  | arrives n => exact accounted.arrives stepped
  | pumpEnds => exact accounted.pumpEnds stepped

theorem Accounted.hands {ev : FrameEvent} (accounted : Accounted format surfaceId link handed)
    (handing : link.pump = .handing ev) :
    Accounted format surfaceId link.readsOn (handed ++ [ev]) := by
  refine { accounted with each := ?_ }
  rw [List.perm_iff_count]
  intro other
  have each := accounted.each.count_eq other
  simp only [outstanding, readsOn, handing, PumpTask.held, Option.toList_some, Option.toList_none,
    List.count_append, List.count_nil] at each ⊢
  omega

/-- Whatever was handed on was captured. -/
theorem Accounted.captured_of_handed {ev : FrameEvent}
    (accounted : Accounted format surfaceId link handed) (member : ev ∈ handed) :
    ∃ frame ∈ link.captured, frame.event surfaceId = ev :=
  List.mem_map.mp (accounted.each.mem_iff.mpr (List.mem_append_left _ member))

theorem Accounted.length_le (accounted : Accounted format surfaceId link handed) :
    handed.length ≤ link.captured.length := by
  have size := accounted.each.length_eq
  rw [List.length_map, List.length_append] at size
  omega

end ContentLink

namespace Content

variable {ι F : Type} [DecidableEq ι] [Zero F] [One F] [OfNat F 3] [Add F] [Sub F] [Div F] [Max F]
variable [LT F] [LE F] [DecidableLT F] [DecidableLE F]
variable {ids : ι → SurfaceId} {showScroll : F → Str} {s s' : Content ι F}

/-- The frames of every link are accounted for, and the queue keeps what was handed on in
its order. -/
structure Accounted (format : Format FrameHeader) (ids : ι → SurfaceId) (s : Content ι F) :
    Prop where
  links : ∀ i, (s.links i).Accounted format (ids i) (component i s.handed)
  queued : s.handed.map Prod.snd = s.noted ++ s.noting.toList ++ s.events.items

private theorem accounted_initial (viewportWidth viewportHeight : F) :
    Accounted format ids (.initial viewportWidth viewportHeight) where
  links _ := ContentLink.accounted_initial
  queued := rfl

theorem Accounted.step {action : ContentAction ι F} (accounted : Accounted format ids s)
    (stepped : s.step format ids showScroll action = .ok s') : Accounted format ids s' := by
  cases action with
  | link i action =>
      obtain ⟨link, moved, rfl⟩ := link_eq_ok.mp stepped
      exact { accounted with
        links := forall_setLink (fun j link => link.Accounted format (ids j) (component j s.handed))
          ((accounted.links i).step moved) fun j _ => accounted.links j }
  | hands i =>
      obtain ⟨ev, events, handing, sent, rfl⟩ := hands_eq_ok.mp stepped
      constructor
      · have own : component i (s.handed ++ [(i, ev)]) = component i s.handed ++ [ev] := by
          rw [component_append, component_cons_self]
          rfl
        refine forall_setLink (fun j link =>
          link.Accounted format (ids j) (component j (s.handed ++ [(i, ev)])))
          (own ▸ (accounted.links i).hands handing) fun j other => ?_
        have same : component j (s.handed ++ [(i, ev)]) = component j s.handed := by
          rw [component_append, component_cons_ne (Ne.symm other)]
          exact List.append_nil _
        exact same ▸ accounted.links j
      · rw [List.map_append, accounted.queued, Bounded.items_of_trySend sent,
          List.append_assoc, List.append_assoc, List.append_assoc]
        rfl
  | takes =>
      obtain ⟨ev, events, nothing, taken, rfl⟩ := takes_eq_ok.mp stepped
      refine { accounted with queued := ?_ }
      rw [accounted.queued, nothing, Bounded.items_of_tryRecv taken]
      simp
  | notes =>
      obtain ⟨ev, held, rfl⟩ := notes_eq_ok.mp stepped
      refine { accounted with queued := ?_ }
      rw [accounted.queued, held]
      simp
  | changes change =>
      obtain ⟨_, rfl⟩ := onlyIf_eq_ok.mp stepped
      exact { accounted with }
  | presents =>
      cases stepped
      exact { accounted with }

theorem accounted_of_run {viewportWidth viewportHeight : F} {actions : List (ContentAction ι F)}
    (reached : run format ids showScroll viewportWidth viewportHeight actions = .ok s) :
    Accounted format ids s :=
  Run.invariant (fun _ _ _ _ accounted stepped => accounted.step stepped)
    (accounted_initial viewportWidth viewportHeight) reached

/-- Every frame that a host's queue took is in exactly one place, and the strip notes what
the pumps handed on, each arrival once and in the order of the queue. -/
theorem frames_accounted {viewportWidth viewportHeight : F} {actions : List (ContentAction ι F)}
    (reached : run format ids showScroll viewportWidth viewportHeight actions = .ok s) :
    (∀ i, ((s.links i).captured.map (EncodedFrame.event (ids i))).Perm
        (component i s.handed ++ (s.links i).pump.held.toList ++
          ((s.links i).flight ++ (s.links i).lost).filterMap (arrival format) ++
            ((s.links i).frames.items ++ (s.links i).dropped).map (EncodedFrame.event (ids i))) ∧
        (s.links i).refused = []) ∧
      s.handed.map Prod.snd = s.noted ++ s.noting.toList ++ s.events.items := by
  have accounted := accounted_of_run reached
  refine ⟨fun i => ⟨?_, (accounted.links i).accepted⟩, accounted.queued⟩
  have each := (accounted.links i).each
  unfold ContentLink.outstanding at each
  rwa [← List.append_assoc, ← List.append_assoc] at each

/-- Two frames are sent; the later one arrives and is noted, and the other one is lost. -/
def sampleContent : List (ContentAction Unit ℚ) :=
  [.changes (.live (.hostAnnounced sampleAnnounce (.v4 ⟨127, 0, 0, 1⟩ 7001))),
    .link () (.captures ⟨1, [5]⟩), .link () (.captures ⟨2, [6, 7]⟩),
    .link () (.forwards ⟨some 1200, .ok ()⟩), .link () (.forwards ⟨some 1200, .ok ()⟩),
    .link () (.arrives 1), .hands (), .link () (.loses 0), .takes, .presents, .notes, .presents]

theorem sampleContent_accounted :
    ∃ s, run FrameHeader.format (fun _ => sampleAnnounce.id) ExactFloat.display 1200 800 sampleContent = .ok s ∧
      s.noted = [⟨sampleAnnounce.id, 2⟩] ∧ (s.links ()).captured.length = 2 ∧
      ((s.links ()).captured.map (EncodedFrame.event sampleAnnounce.id)).Perm
        (component () s.handed ++ (s.links ()).pump.held.toList ++
          ((s.links ()).flight ++ (s.links ()).lost).filterMap (arrival FrameHeader.format) ++
            ((s.links ()).frames.items ++ (s.links ()).dropped).map
              (EncodedFrame.event sampleAnnounce.id)) := by
  have done : (run FrameHeader.format (fun _ => sampleAnnounce.id) ExactFloat.display 1200 800 sampleContent).map
      (fun s => (s.noted, (s.links ()).captured.length)) = .ok ([⟨sampleAnnounce.id, 2⟩], 2) := by
    decide
  cases reached : run FrameHeader.format (fun _ => sampleAnnounce.id) ExactFloat.display 1200 800 sampleContent with
  | error e =>
      rw [reached] at done
      cases done
  | ok s =>
      rw [reached] at done
      obtain ⟨noted, captured⟩ := Prod.mk.inj (Except.ok.inj done)
      exact ⟨s, rfl, noted, captured, ((frames_accounted reached).1 ()).1⟩

end Content

end Simulboot
