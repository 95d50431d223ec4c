import Simulboot.Client.Render
import Simulboot.Connection
import Simulboot.Content.Datagram
import Simulboot.Library.Family

/-!
# The content channels of a compositor

Frames on their way from the hosts to the strip: the queue behind each capture, the
task that sends its frames as datagrams, the network, which loses and reorders them
but delivers none twice, the pump of each link, the queue that the pumps share, and
the task that notes arrivals on the strip while the compositor changes and presents it. The
histories record what the steps did, and no step depends on them.
-/

set_option autoImplicit false
set_option linter.unusedSectionVars false

namespace Simulboot

open Library Library.Postcard

deriving instance DecidableEq for FrameEvent

/-! ## One link -/

inductive PumpTask where
  | reading
  /-- An arrival waits for room in the shared queue. -/
  | handing (ev : FrameEvent)
  | ended
  deriving DecidableEq

/-- The content channel of one link, from the capture to the pump. -/
structure ContentLink where
  frames : Bounded 8 EncodedFrame
  sender : Task
  /-- The datagrams that the network has. -/
  flight : List Bytes
  pump : PumpTask
  /-- The frames that the queue took from the capture. -/
  captured : List EncodedFrame
  /-- Those that the host gave up. -/
  dropped : List EncodedFrame
  /-- The datagrams that the network lost. -/
  lost : List Bytes
  /-- Those that the pump could not decode. -/
  refused : List Bytes

inductive LinkAction where
  | captures (frame : EncodedFrame)
  | forwards (outlet : Outlet)
  | senderEnds
  | loses (n : Nat)
  | arrives (n : Nat)
  | pumpEnds

namespace ContentLink

def initial : ContentLink :=
  { frames := .empty, sender := .running, flight := [], pump := .reading, captured := []
    dropped := [], lost := [], refused := [] }

def captures (frame : EncodedFrame) (link : ContentLink) : Except Disabled ContentLink :=
  match link.sender, link.frames.trySend frame with
  | .running, some frames => .ok { link with frames, captured := link.captured ++ [frame] }
  | _, _ => .error .disabled

def senderEnds (link : ContentLink) : Except Disabled ContentLink :=
  .ok { link with
    sender := .ended, frames := .empty, dropped := link.dropped ++ link.frames.items }

def loses (n : Nat) (link : ContentLink) : Except Disabled ContentLink :=
  match link.flight[n]? with
  | some datagram =>
      .ok { link with flight := link.flight.eraseIdx n, lost := link.lost ++ [datagram] }
  | none => .error .disabled

def readsOn (link : ContentLink) : ContentLink :=
  { link with pump := .reading }

def pumpEnds (link : ContentLink) : Except Disabled ContentLink :=
  match link.pump with
  | .reading => .ok { link with pump := .ended }
  | _ => .error .disabled

section

variable (format : Format FrameHeader) (surfaceId : SurfaceId)

/-- The task takes a frame and sends it; a failure is logged and the frame dropped. -/
def forwards (outlet : Outlet) (link : ContentLink) : Except Disabled ContentLink :=
  match link.sender, link.frames.tryRecv with
  | .running, some (frame, frames) =>
      match sendFrame format outlet surfaceId frame with
      | .ok (some datagram) => .ok { link with frames, flight := link.flight ++ [datagram] }
      | .ok none | .error _ => .ok { link with frames, dropped := link.dropped ++ [frame] }
  | _, _ => .error .disabled

/-- The pump reads any of the datagrams that are on their way. -/
def arrives (n : Nat) (link : ContentLink) : Except Disabled ContentLink :=
  match link.pump, link.flight[n]? with
  | .reading, some datagram =>
      match decodeDatagram format datagram with
      | .ok ev => .ok { link with flight := link.flight.eraseIdx n, pump := .handing ev }
      | .error _ =>
          .ok { link with
            flight := link.flight.eraseIdx n, refused := link.refused ++ [datagram] }
  | _, _ => .error .disabled

/-- One step of the channel of a link whose host announces `surfaceId`. -/
def step (link : ContentLink) : LinkAction → Except Disabled ContentLink
  | .captures frame => link.captures frame
  | .forwards outlet => link.forwards format surfaceId outlet
  | .senderEnds => link.senderEnds
  | .loses n => link.loses n
  | .arrives n => link.arrives format n
  | .pumpEnds => link.pumpEnds

end

end ContentLink

/-! ## All links and the strip -/

/-- What the compositor does to the strip itself: the actions of a live session, and the
surfaces that a resume restores. -/
inductive StripChange (F : Type) where
  | live (action : LiveAction F)
  | restored (entry : SurfaceEntry) (announce : SurfaceAnnounce) (addr : SocketAddr)

structure Content (ι F : Type) where
  links : ι → ContentLink
  /-- The queue that the pumps share. -/
  events : Bounded 256 FrameEvent
  /-- The arrival that the task of `run` took, which waits for the strip's lock. -/
  noting : Option FrameEvent
  strip : Strip F
  /-- The arrivals that the queue took, each with its link. -/
  handed : List (ι × FrameEvent)
  /-- The arrivals that were noted on the strip. -/
  noted : List FrameEvent
  renderer : HeadlessRenderer
  logged : List Str

inductive ContentAction (ι F : Type) where
  | link (i : ι) (action : LinkAction)
  | hands (i : ι)
  | takes
  | notes
  | changes (change : StripChange F)
  | presents

variable {ι F : Type} [Zero F] [One F] [OfNat F 3] [Add F] [Sub F] [Div F] [Max F]
variable [LT F] [LE F] [DecidableLT F] [DecidableLE F]

def StripChange.frameless : StripChange F → Bool
  | .live (.frameArrived _ _) => false
  | _ => true

def Strip.change (strip : Strip F) : StripChange F → Strip F
  | .live action => strip.live action
  | .restored entry announce addr =>
      strip.insertOrdered (restoredSurface entry announce addr strip)

namespace Content

def initial (viewportWidth viewportHeight : F) : Content ι F :=
  { links := fun _ => .initial, events := .empty, noting := none
    strip := .new viewportWidth viewportHeight, handed := [], noted := []
    renderer := .new, logged := [] }

def takes (s : Content ι F) : Except Disabled (Content ι F) :=
  match s.noting, s.events.tryRecv with
  | none, some (ev, events) => .ok { s with noting := some ev, events }
  | _, _ => .error .disabled

def notes (s : Content ι F) : Except Disabled (Content ι F) :=
  match s.noting with
  | some ev =>
      .ok { s with
        noting := none, strip := s.strip.noteFrame ev.surfaceId ev.pts, noted := s.noted ++ [ev] }
  | none => .error .disabled

def changes (change : StripChange F) (s : Content ι F) : Except Disabled (Content ι F) :=
  onlyIf (change.frameless = true) { s with strip := s.strip.change change }

def presents (showScroll : F → Str) (s : Content ι F) : Content ι F :=
  let (text, renderer) := s.renderer.present showScroll s.strip
  { s with renderer, logged := s.logged ++ text.toList }

variable [DecidableEq ι]

def setLink (i : ι) (link : ContentLink) (s : Content ι F) : Content ι F :=
  { s with links := Function.update s.links i link }

def hands (i : ι) (s : Content ι F) : Except Disabled (Content ι F) :=
  match (s.links i).pump with
  | .handing ev =>
      match s.events.trySend ev with
      | some events =>
          .ok { s.setLink i (s.links i).readsOn with
            events, handed := s.handed ++ [(i, ev)] }
      | none => .error .disabled
  | _ => .error .disabled

section

variable (format : Format FrameHeader) (ids : ι → SurfaceId) (showScroll : F → Str)

/-- One step, where `ids` are the ids that the hosts announce. -/
def step (s : Content ι F) : ContentAction ι F → Except Disabled (Content ι F)
  | .link i action =>
      ((s.links i).step format (ids i) action).map fun link => s.setLink i link
  | .hands i => s.hands i
  | .takes => s.takes
  | .notes => s.notes
  | .changes change => s.changes change
  | .presents => .ok (s.presents showScroll)

def run (viewportWidth viewportHeight : F) (actions : List (ContentAction ι F)) :
    Except Disabled (Content ι F) :=
  actions.foldlM (step format ids showScroll) (.initial viewportWidth viewportHeight)

end

/-! ### What each step does -/

@[simp] theorem setLink_links_self (i : ι) (link : ContentLink) (s : Content ι F) :
    (s.setLink i link).links i = link := by
  simp [setLink]

theorem setLink_links_of_ne {i j : ι} (other : j ≠ i) (link : ContentLink) (s : Content ι F) :
    (s.setLink i link).links j = s.links j := by
  simp [setLink, other]

theorem forall_setLink (holds : ι → ContentLink → Prop) {i : ι} {link : ContentLink}
    {s : Content ι F} (own : holds i link) (others : ∀ j ≠ i, holds j (s.links j)) (j : ι) :
    holds j ((s.setLink i link).links j) := by
  by_cases same : j = i
  · subst same
    rwa [setLink_links_self]
  · rw [setLink_links_of_ne same]
    exact others j same

variable {format : Format FrameHeader} {ids : ι → SurfaceId} {showScroll : F → Str}
  {s s' : Content ι F} {i : ι}

theorem link_eq_ok {action : LinkAction} :
    s.step format ids showScroll (.link i action) = .ok s' ↔
      ∃ link, (s.links i).step format (ids i) action = .ok link ∧ s' = s.setLink i link := by
  change ((s.links i).step format (ids i) action).map _ = _ ↔ _
  cases (s.links i).step format (ids i) action <;> simp [Except.map, eq_comm]

theorem hands_eq_ok : s.hands i = .ok s' ↔
    ∃ ev events, (s.links i).pump = .handing ev ∧ s.events.trySend ev = some events ∧
      s' = { s.setLink i (s.links i).readsOn with
        events, handed := s.handed ++ [(i, ev)] } := by
  unfold hands
  cases (s.links i).pump with
  | reading => simp
  | ended => simp
  | handing ev =>
      cases sent : s.events.trySend ev <;> simp [sent, eq_comm]

theorem takes_eq_ok : s.takes = .ok s' ↔
    ∃ ev events, s.noting = none ∧ s.events.tryRecv = some (ev, events) ∧
      s' = { s with noting := some ev, events } := by
  unfold takes
  cases s.noting with
  | some ev => simp
  | none =>
      cases s.events.tryRecv <;> simp [Prod.ext_iff, eq_comm, and_assoc]

theorem notes_eq_ok : s.notes = .ok s' ↔
    ∃ ev, s.noting = some ev ∧
      s' = { s with
        noting := none, strip := s.strip.noteFrame ev.surfaceId ev.pts
        noted := s.noted ++ [ev] } := by
  unfold notes
  cases s.noting <;> simp [eq_comm]

end Content

end Simulboot
