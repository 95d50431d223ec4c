import Simulboot.Client.Checkpoint
import Simulboot.Client.Conn
import Simulboot.Library.StableSort

/-!
# Resuming a session

The hosts that an image names are dialled in its order and their surfaces placed
on the strip, while frames already arrive. Dialling and placing are told apart:
which links a resume ends with, and the strip it leaves for given links.
-/

set_option autoImplicit false
set_option linter.unusedSectionVars false

namespace Simulboot

open Library

/-- A frame arrival on the content channel. -/
structure FrameEvent where
  surfaceId : SurfaceId
  pts : UInt64

/-- What resuming meets: the outcome of each dial, and the frame arrivals that
were noted since the strip was last locked. -/
structure Hosts where
  endpoint : Endpoint
  arrivals : Nat → List FrameEvent

variable {F : Type} [Zero F] [One F] [OfNat F 3] [Add F] [Sub F] [Div F] [Max F]
variable [LT F] [LE F] [DecidableLT F] [DecidableLE F] [RustFloat F]
variable {W E : Type}

def Strip.pump (strip : Strip F) (arrivals : List FrameEvent) : Strip F :=
  arrivals.foldl (fun strip ev => strip.noteFrame ev.surfaceId ev.pts) strip

/-- A host's surface in the slot of an entry. The image is authoritative for
placement. -/
def restoredSurface (entry : SurfaceEntry) (announce : SurfaceAnnounce) (addr : SocketAddr)
    (strip : Strip F) : Surface F :=
  { surfaceFromAnnounce announce addr strip with
    order := entry.order
    width := strip.defaultSurfaceWidth
    height := strip.viewportHeight }

section

variable (sha256 : Sha256) (postcard : Postcard (StructureMessage W) E)
  (debug : StructureMessage W → Str) (hosts : Hosts)

/-- Reconnect the host of one entry and put its surface on the strip. -/
def reconnect (sessionId : Str) (state : List Link × Strip F) (entry : SurfaceEntry) :
    Except (AnyhowError E) (List Link × Strip F) := do
  let (links, strip) := state
  let addr ← withContext [.text "bad host address ".toList, .debug entry.host.address]
    (match SocketAddr.parse entry.host.address with
      | some addr => .ok addr
      | none => .error (.std "invalid socket address syntax".toList))
  let link ← withContext [.text ("reconnecting host ".toList ++ addr.display)]
    (connect postcard debug hosts.endpoint links.length addr (some sessionId))
  let strip := strip.pump (hosts.arrivals links.length)
  return (links ++ [link],
    strip.insertOrdered (restoredSurface entry link.announce addr strip))

/-- Fetch the session image, reconnect each surface's host, and restore order,
scroll position and focus. `fetchImage` is the client's, at its parameters. -/
def resume (fetchImage : Str → Except (AnyhowError E) (SessionImage F)) (url : Str)
    (strip : Strip F) : Except (AnyhowError E) (List Link × Strip F) := do
  let image ← fetchImage url
  let sessionId := image.id.getD (image.computeId sha256)
  let (links, strip) ← image.surfaces.foldlM (reconnect postcard debug hosts sessionId) ([], strip)
  -- The layout is restored once every surface is back.
  let strip := strip.pump (hosts.arrivals links.length)
  return (links, (strip.setScroll image.layout.scrollPos).setFocusOpt image.layout.focus)

/-! ## Dialling -/

/-- The `n`-th dial reconnects the host of an entry. -/
def Reconnects (sessionId : Str) (n : Nat) (entry : SurfaceEntry) (link : Link) : Prop :=
  ∃ addr, SocketAddr.parse entry.host.address = some addr ∧
    connect postcard debug hosts.endpoint n addr (some sessionId) = .ok link

inductive Reconnected (sessionId : Str) : Nat → List SurfaceEntry → List Link → Prop where
  | nil {n} : Reconnected sessionId n [] []
  | cons {n entry link entries links} : Reconnects postcard debug hosts sessionId n entry link →
      Reconnected sessionId (n + 1) entries links →
      Reconnected sessionId n (entry :: entries) (link :: links)

def placed (arrivals : Nat → List FrameEvent) :
    Nat → Strip F → List (SurfaceEntry × Link) → Strip F
  | _, strip, [] => strip
  | n, strip, (entry, link) :: rest =>
      let strip := strip.pump (arrivals n)
      placed arrivals (n + 1)
        (strip.insertOrdered (restoredSurface entry link.announce link.hostAddr strip)) rest

variable {sha256 postcard debug hosts}

theorem reconnect_eq_ok {sessionId : Str} {links : List Link} (strip : Strip F)
    {entry : SurfaceEntry} {after : List Link × Strip F} :
    reconnect postcard debug hosts sessionId (links, strip) entry = .ok after ↔
      ∃ link, Reconnects postcard debug hosts sessionId links.length entry link ∧
        after = (links ++ [link],
          placed hosts.arrivals links.length strip [(entry, link)]) := by
  constructor
  · intro reconnected
    obtain ⟨addr, parsed, reconnected⟩ := bind_eq_ok reconnected
    obtain ⟨link, connected, reconnected⟩ := bind_eq_ok reconnected
    rw [withContext_eq_ok] at parsed connected
    cases reconnected
    obtain ⟨rfl, _⟩ := connect_eq_ok connected
    refine ⟨link, ⟨link.hostAddr, ?_, connected⟩, rfl⟩
    cases found : SocketAddr.parse entry.host.address with
    | none => simp [found] at parsed
    | some addr =>
        simp only [found, Except.ok.injEq] at parsed
        rw [parsed]
  · rintro ⟨link, ⟨addr, parsed, connected⟩, rfl⟩
    obtain ⟨rfl, _⟩ := connect_eq_ok connected
    simp only [reconnect, parsed, connected, withContext, bind, Except.bind]
    rfl

theorem foldlM_reconnect_eq_ok {sessionId : Str} {entries : List SurfaceEntry} (done : List Link)
    (strip : Strip F) {after : List Link × Strip F} :
    entries.foldlM (reconnect postcard debug hosts sessionId) (done, strip) = .ok after ↔
      ∃ links, Reconnected postcard debug hosts sessionId done.length entries links ∧
        after = (done ++ links, placed hosts.arrivals done.length strip (entries.zip links)) := by
  induction entries generalizing done strip with
  | nil =>
      constructor
      · intro run
        cases run
        exact ⟨[], .nil, by simp [placed]⟩
      · rintro ⟨_, ⟨⟩, rfl⟩
        simp [placed, pure, Except.pure]
  | cons entry entries ih =>
      rw [List.foldlM_cons]
      constructor
      · intro run
        obtain ⟨middle, first, run⟩ := bind_eq_ok run
        obtain ⟨link, reconnected, rfl⟩ := (reconnect_eq_ok _).mp first
        obtain ⟨links, later, rfl⟩ := (ih _ _).mp run
        rw [List.length_append, List.length_singleton] at later
        refine ⟨link :: links, .cons reconnected later, ?_⟩
        rw [List.append_assoc, List.length_append]
        rfl
      · rintro ⟨_, reconnected, rfl⟩
        cases reconnected with
        | @cons _ _ link _ links first later =>
            have step := (reconnect_eq_ok strip).mpr ⟨link, first, rfl⟩
            rw [step]
            refine (ih _ _).mpr ⟨links, ?_, ?_⟩
            · rwa [List.length_append, List.length_singleton]
            · rw [List.append_assoc, List.length_append]
              rfl

/-- The strip that resuming an image by given links leaves. -/
def resumedStrip (arrivals : Nat → List FrameEvent) (image : SessionImage F) (strip : Strip F)
    (links : List Link) : Strip F :=
  let strip := (placed arrivals 0 strip (image.surfaces.zip links)).pump (arrivals links.length)
  (strip.setScroll image.layout.scrollPos).setFocusOpt image.layout.focus

/-- A resume that succeeds reconnected every host, and its strip is determined
by the links. -/
theorem resume_eq_ok {fetchImage : Str → Except (AnyhowError E) (SessionImage F)} {url : Str}
    {image : SessionImage F} (fetched : fetchImage url = .ok image) {strip after : Strip F}
    {links : List Link} :
    resume sha256 postcard debug hosts fetchImage url strip = .ok (links, after) ↔
      Reconnected postcard debug hosts (image.id.getD (image.computeId sha256)) 0 image.surfaces
          links ∧
        after = resumedStrip hosts.arrivals image strip links := by
  constructor
  · intro resumed
    obtain ⟨_, found, resumed⟩ := bind_eq_ok resumed
    rw [fetched] at found
    cases found
    obtain ⟨_, run, resumed⟩ := bind_eq_ok resumed
    obtain ⟨links, reconnected, rfl⟩ := (foldlM_reconnect_eq_ok _ _).mp run
    cases resumed
    exact ⟨reconnected, rfl⟩
  · rintro ⟨reconnected, rfl⟩
    have run := (foldlM_reconnect_eq_ok [] strip).mpr ⟨links, reconnected, rfl⟩
    simp only [resume, fetched, bind, Except.bind, run]
    rfl

theorem Reconnected.length_eq {sessionId : Str} {n : Nat} {entries : List SurfaceEntry}
    {links : List Link} (reconnected : Reconnected postcard debug hosts sessionId n entries links) :
    links.length = entries.length := by
  induction reconnected with
  | nil => rfl
  | cons _ _ ih => rw [List.length_cons, List.length_cons, ih]

theorem Reconnected.of_answers {sessionId : Str} (answer : SurfaceEntry → Link → Prop) {n : Nat}
    {entries : List SurfaceEntry}
    (answers : ∀ i entry, entries[i]? = some entry →
      ∃ link, Reconnects postcard debug hosts sessionId (n + i) entry link ∧ answer entry link) :
    ∃ links, Reconnected postcard debug hosts sessionId n entries links ∧
      ∀ reconnected ∈ entries.zip links, answer reconnected.1 reconnected.2 := by
  induction entries generalizing n with
  | nil => exact ⟨[], .nil, by simp⟩
  | cons entry entries ih =>
      obtain ⟨link, first, answered⟩ := answers 0 entry rfl
      obtain ⟨links, later, all⟩ := ih (n := n + 1) fun i other found => by
        rw [Nat.add_assoc, Nat.add_comm 1 i]
        exact answers (i + 1) other found
      refine ⟨link :: links, .cons first later, ?_⟩
      rw [List.zip_cons_cons, List.forall_mem_cons]
      exact ⟨answered, all⟩

end

/-! ## Placing -/

/-- A surface but for its frame diagnostics. -/
def Surface.still (s : Surface F) : Surface F :=
  { s with lastPts := none, framesReceived := 0 }

def Surface.Before (a b : Surface F) : Prop :=
  a.order ≤ b.order

instance : DecidableRel (Surface.Before (F := F)) := fun a b =>
  inferInstanceAs (Decidable (a.order ≤ b.order))

instance : Std.Total (Surface.Before (F := F)) :=
  ⟨fun a b => UInt32.le_total a.order b.order⟩

instance : IsTrans (Surface F) Surface.Before :=
  ⟨fun _ _ _ => UInt32.le_trans⟩

namespace Strip

theorem map_pump {β : Type} {g : Surface F → β} (kept : ∀ pts s, g (s.frameNoted pts) = g s)
    (strip : Strip F) (arrivals : List FrameEvent) :
    (strip.pump arrivals).surfaces.map g = strip.surfaces.map g := by
  induction arrivals generalizing strip with
  | nil => rfl
  | cons ev arrivals ih =>
      unfold pump at ih ⊢
      rw [List.foldl_cons, ih]
      exact map_updateFirst (kept ev.pts) strip.surfaces

theorem pump_viewport (strip : Strip F) (arrivals : List FrameEvent) :
    (strip.pump arrivals).viewportWidth = strip.viewportWidth ∧
      (strip.pump arrivals).viewportHeight = strip.viewportHeight := by
  induction arrivals generalizing strip with
  | nil => exact ⟨rfl, rfl⟩
  | cons ev arrivals ih => exact ih (strip.noteFrame ev.surfaceId ev.pts)

private theorem map_still_insertOrdered (strip : Strip F) (surface : Surface F) :
    (strip.insertOrdered surface).surfaces.map Surface.still =
      (strip.surfaces.map Surface.still ++ [surface.still]).insertionSort Surface.Before := by
  have sorted : (strip.insertOrdered surface).surfaces =
      (strip.surfaces ++ [surface]).insertionSort Surface.Before := rfl
  rw [sorted, List.map_insertionSort Surface.Before Surface.Before Surface.still _
    fun _ _ _ _ => Iff.rfl, List.map_append, List.map_singleton]

end Strip

def restored (viewport : Strip F) (reconnected : SurfaceEntry × Link) : Surface F :=
  restoredSurface reconnected.1 reconnected.2.announce reconnected.2.hostAddr viewport

private theorem restored_congr {strip other : Strip F} (width : strip.viewportWidth = other.viewportWidth)
    (height : strip.viewportHeight = other.viewportHeight) : restored strip = restored other := by
  funext reconnected
  unfold restored restoredSurface surfaceFromAnnounce Strip.defaultSurfaceWidth
  rw [width, height]

/-- Placing surfaces one by one sorts them all at once. -/
theorem map_still_placed (viewport strip : Strip F) (before : List (Surface F))
    (width : strip.viewportWidth = viewport.viewportWidth)
    (height : strip.viewportHeight = viewport.viewportHeight)
    (sorted : strip.surfaces.map Surface.still = before.insertionSort Surface.Before)
    (arrivals : Nat → List FrameEvent) (n : Nat) (reconnected : List (SurfaceEntry × Link)) :
    (placed arrivals n strip reconnected).surfaces.map Surface.still =
        (before ++ reconnected.map (restored viewport)).insertionSort Surface.Before ∧
      (placed arrivals n strip reconnected).viewportWidth = viewport.viewportWidth := by
  induction reconnected generalizing n strip before with
  | nil => exact ⟨by rw [placed, sorted, List.map_nil, List.append_nil], width⟩
  | cons next rest ih =>
      have viewports := strip.pump_viewport (arrivals n)
      have same : restored (strip.pump (arrivals n)) = restored viewport :=
        restored_congr (viewports.1.trans width) (viewports.2.trans height)
      have surfaces : ((strip.pump (arrivals n)).insertOrdered
            (restored (strip.pump (arrivals n)) next)).surfaces.map Surface.still =
          (before ++ [restored viewport next]).insertionSort Surface.Before := by
        rw [Strip.map_still_insertOrdered, Strip.map_pump (fun _ _ => rfl), sorted, same]
        exact StableSort.insertionSort_append before [restored viewport next]
      have later := ih
        ((strip.pump (arrivals n)).insertOrdered (restored (strip.pump (arrivals n)) next)) _
        (viewports.1.trans width) (viewports.2.trans height) surfaces (n + 1)
      rwa [List.append_assoc, List.singleton_append, ← List.map_cons] at later

private theorem map_still_resumedStrip (arrivals : Nat → List FrameEvent) (image : SessionImage F)
    (viewportWidth viewportHeight : F) (links : List Link) :
    (resumedStrip arrivals image (.new viewportWidth viewportHeight) links).surfaces.map
        Surface.still =
      ((image.surfaces.zip links).map
        (restored (.new viewportWidth viewportHeight))).insertionSort Surface.Before := by
  have all := (map_still_placed (.new viewportWidth viewportHeight)
    (.new viewportWidth viewportHeight) [] rfl rfl rfl arrivals 0
    (image.surfaces.zip links)).1
  rw [List.nil_append] at all
  rw [← all]
  exact Strip.map_pump (fun _ _ => rfl) _ _

theorem viewportWidth_resumedStrip (arrivals : Nat → List FrameEvent) (image : SessionImage F)
    (viewportWidth viewportHeight : F) (links : List Link) :
    (resumedStrip arrivals image (.new viewportWidth viewportHeight) links).viewportWidth =
      viewportWidth := by
  have placed := (map_still_placed (.new viewportWidth viewportHeight)
    (.new viewportWidth viewportHeight) [] rfl rfl rfl arrivals 0
    (image.surfaces.zip links)).2
  exact (Strip.pump_viewport _ _).1.trans placed

/-- What does not concern frames is read off the links, sorted by the entries. -/
theorem map_resumedStrip {β : Type} {g : Surface F → β} (kept : ∀ s : Surface F, g s.still = g s)
    (arrivals : Nat → List FrameEvent) (image : SessionImage F) (viewportWidth viewportHeight : F)
    (links : List Link) :
    (resumedStrip arrivals image (.new viewportWidth viewportHeight) links).surfaces.map g =
      ((image.surfaces.zip links).insertionSort fun a b => a.1.order ≤ b.1.order).map
        (g ∘ restored (.new viewportWidth viewportHeight)) := by
  have sorted : ∀ surfaces : List (Surface F), surfaces.map g = (surfaces.map Surface.still).map g := by
    intro surfaces
    rw [List.map_map]
    exact List.map_congr_left fun s _ => (kept s).symm
  have placed := List.map_insertionSort
    (fun a b : SurfaceEntry × Link => a.1.order ≤ b.1.order) Surface.Before
    (restored (.new viewportWidth viewportHeight)) (image.surfaces.zip links)
    fun _ _ _ _ => Iff.rfl
  rw [sorted, map_still_resumedStrip, ← List.map_map, placed]

end Simulboot
