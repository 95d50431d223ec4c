import Simulboot.Client.Strip
import Simulboot.Session

/-!
# Checkpoints of a live strip

How hosts put surfaces on the strip, what the user does to it, and the session
image taken from it. Over every such run the surfaces are numbered left to right.
-/

set_option autoImplicit false
set_option linter.unusedSectionVars false

namespace Simulboot

open Library

variable {F : Type} [Zero F] [One F] [OfNat F 3] [Add F] [Sub F] [Div F] [Max F]
variable [LT F] [LE F] [DecidableLT F] [DecidableLE F]

/-- Build a strip surface from a host announce. -/
def surfaceFromAnnounce (announce : SurfaceAnnounce) (addr : SocketAddr) (strip : Strip F) :
    Surface F :=
  { id := announce.id
    name := announce.name
    order := 0
    width := strip.defaultSurfaceWidth
    height := strip.viewportHeight
    sourceWidth := announce.width
    sourceHeight := announce.height
    codec := announce.codec
    provenance := announce.provenance
    hostAddr := addr
    lastPts := none
    framesReceived := 0 }

/-- The entry a checkpoint records for a surface. -/
def surfaceEntry (s : Surface F) : SurfaceEntry :=
  { id := s.id
    name := s.name
    order := s.order
    host :=
      { address := s.hostAddr.display
        os := s.provenance.os
        machine := s.provenance.machineName
        capture := s.provenance.captureDescription }
    codec := s.codec
    width := s.sourceWidth
    height := s.sourceHeight }

def checkpointLayout (strip : Strip F) : Layout F :=
  { scrollPos := strip.scrollPos, focus := strip.focus }

/-- Build a content-addressed session image from the current strip state. -/
def imageFromStrip [RustFloat F] (sha256 : Sha256) (strip : Strip F) (created : Str) :
    SessionImage F :=
  (SessionImage.new created (strip.surfaces.map surfaceEntry) (checkpointLayout strip)).withComputedId
    sha256

/-! ## Live runs -/

inductive LiveAction (F : Type) where
  | hostAnnounced (announce : SurfaceAnnounce) (addr : SocketAddr)
  | surfaceRemoved (id : SurfaceId)
  | scrolledBy (dx : F)
  | scrolledTo (pos : F)
  | focused (id : SurfaceId)
  | focusedOpt (id : Option SurfaceId)
  | clicked (vx vy : F)
  | frameArrived (id : SurfaceId) (pts : UInt64)

namespace Strip

def live (strip : Strip F) : LiveAction F → Strip F
  | .hostAnnounced announce addr => (strip.append (surfaceFromAnnounce announce addr strip)).2
  | .surfaceRemoved id => (strip.remove id).2
  | .scrolledBy dx => strip.scrollBy dx
  | .scrolledTo pos => strip.setScroll pos
  | .focused id => (strip.setFocus id).2
  | .focusedOpt id => strip.setFocusOpt id
  | .clicked vx vy => (strip.click vx vy).2
  | .frameArrived id pts => strip.noteFrame id pts

/-- The strips of a live session. -/
def LiveReachable (strip : Strip F) : Prop :=
  ∃ (viewportWidth viewportHeight : F) (actions : List (LiveAction F)),
    strip = actions.foldl live (new viewportWidth viewportHeight)

/-- What holds of an empty strip and through every action holds of all. -/
theorem live_induction (invariant : Strip F → Prop) {viewportWidth viewportHeight : F}
    (empty : invariant (new viewportWidth viewportHeight))
    (kept : ∀ strip action, invariant strip → invariant (live strip action))
    (actions : List (LiveAction F)) :
    invariant (actions.foldl live (new viewportWidth viewportHeight)) := by
  induction actions using List.reverseRecOn with
  | nil => exact empty
  | append_singleton actions action ih =>
      rw [List.foldl_append]
      exact kept _ action ih

/-- Surfaces are numbered left to right, in the 32 bits an order has. -/
def Numbered (strip : Strip F) : Prop :=
  strip.surfaces.map Surface.order = (List.range strip.surfaces.length).map UInt32.ofNat

private theorem numbered_of_surfaces {strip after : Strip F} (numbered : strip.Numbered)
    (same : after.surfaces.map Surface.order = strip.surfaces.map Surface.order) :
    after.Numbered := by
  have size := congrArg List.length same
  simp only [List.length_map] at size
  unfold Numbered at numbered ⊢
  rw [same, numbered, size]

private theorem live_numbered (strip : Strip F) (action : LiveAction F) (numbered : strip.Numbered) :
    (strip.live action).Numbered := by
  cases action with
  | hostAnnounced announce addr =>
      unfold Numbered at numbered ⊢
      simp only [live, append_surfaces, List.map_append, List.length_append, List.length_singleton,
        List.range_succ, numbered, List.map_cons, List.map_nil]
  | surfaceRemoved id =>
      rcases strip.remove_surfaces id with same | removed
      · exact numbered_of_surfaces numbered (congrArg _ same)
      · unfold Numbered
        rw [live, removed, map_order_renumber]
        have size : (renumber (strip.surfaces.eraseP fun s => s.id = id)).length =
            (strip.surfaces.eraseP fun s => s.id = id).length := by
          simp [renumber]
        rw [size]
  | scrolledBy dx => exact numbered
  | scrolledTo pos => exact numbered
  | focused id => exact numbered_of_surfaces numbered (by rw [live, setFocus_surfaces])
  | focusedOpt id => exact numbered
  | clicked vx vy => exact numbered_of_surfaces numbered (by rw [live, click_surfaces])
  | frameArrived id pts =>
      exact numbered_of_surfaces numbered
        (map_updateFirst (f := Surface.frameNoted pts) (fun _ => rfl) strip.surfaces)

theorem LiveReachable.numbered {strip : Strip F} (reachable : strip.LiveReachable) :
    strip.Numbered := by
  obtain ⟨viewportWidth, viewportHeight, actions, rfl⟩ := reachable
  exact live_induction Numbered rfl live_numbered actions

end Strip

/-! ## Orders of a checkpoint -/

theorem order_surfaceEntry (surfaces : List (Surface F)) :
    (surfaces.map surfaceEntry).map SurfaceEntry.order = surfaces.map Surface.order := by
  rw [List.map_map]
  rfl

end Simulboot
