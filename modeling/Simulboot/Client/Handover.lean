import Simulboot.Client.Projection
import Simulboot.Client.Restore

/-!
# Handing a session over

A session moves from one device to the next: it is checkpointed, parked with a
broker, and resumed from its URL. The session behind any number of moves is the
one that never moved, as far as the user or a checkpoint can tell.
-/

set_option autoImplicit false
set_option linter.unusedSectionVars false

namespace Simulboot

open Library Library.Xml

/-- Which surface the host at an address announces, under names that a document
keeps. A host keeps its surface. -/
structure Directory where
  announce : SocketAddr → Option SurfaceAnnounce
  plain : ∀ addr a, announce addr = some a →
    Unpadded a.provenance.machineName ∧ Unpadded a.provenance.captureDescription

section

variable {F : Type} [Zero F] [One F] [OfNat F 3] [Add F] [Sub F] [Div F] [Max F]
variable [LT F] [LE F] [DecidableLT F] [DecidableLE F]

/-- What the strip and its checkpoints tell of a surface: no frame diagnostics, and
of the addresses of its host only what is printed. -/
def Surface.portable (s : Surface F) : Surface F :=
  { s.still with
    provenance := { s.provenance with tailscaleAddr := [] }
    hostAddr := s.hostAddr.shown }

private theorem Surface.portable_overlooked : Surface.Overlooked (Surface.portable (F := F)) where
  id _ := rfl
  placed _ _ _ _ := rfl

private theorem surfaceEntry_portable (s : Surface F) : surfaceEntry s.portable = surfaceEntry s := by
  simp [surfaceEntry, Surface.portable, Surface.still]

/-! ## Hosts of a strip -/

/-- How many hosts come up in the course of some actions. -/
def announcements (actions : List (LiveAction F)) : Nat :=
  actions.countP fun
    | .hostAnnounced _ _ => true
    | _ => false

namespace Strip

/-- Every surface is the one that its host announces. -/
def KnownTo (directory : Directory) (strip : Strip F) : Prop :=
  ∀ s ∈ strip.surfaces, ∃ a, directory.announce s.hostAddr = some a ∧
    s.body = (surfaceFromAnnounce a s.hostAddr strip).body

end Strip

/-- The hosts of an action are those of a directory. -/
def LiveAction.KnownTo (directory : Directory) : LiveAction F → Prop
  | .hostAnnounced announce addr => directory.announce addr = some announce
  | _ => True

namespace Strip

variable {directory : Directory} {strip : Strip F}

private theorem surfaceFromAnnounce_live (announce : SurfaceAnnounce) (addr : SocketAddr)
    (action : LiveAction F) :
    surfaceFromAnnounce announce addr (strip.live action) =
      surfaceFromAnnounce announce addr strip := by
  have viewport := strip.apply_viewport (action.operation strip)
  rw [apply_operation] at viewport
  unfold surfaceFromAnnounce defaultSurfaceWidth
  rw [viewport.1, viewport.2]

private theorem body_appended (strip : Strip F) (announce : SurfaceAnnounce) (addr : SocketAddr) :
    (strip.appended (surfaceFromAnnounce announce addr strip)).body =
      (surfaceFromAnnounce announce addr strip).body := by
  unfold appended surfaceFromAnnounce
  simp only [ite_self]
  rfl

private theorem KnownTo.live (known : strip.KnownTo directory) {action : LiveAction F}
    (knows : action.KnownTo directory) : (strip.live action).KnownTo directory := by
  intro s member
  have kept : ∀ other ∈ strip.surfaces, other.body = s.body →
      ∃ a, directory.announce s.hostAddr = some a ∧
        s.body = (surfaceFromAnnounce a s.hostAddr (strip.live action)).body := by
    intro other old same
    obtain ⟨a, found, announced⟩ := known other old
    have addr : other.hostAddr = s.hostAddr := (congrArg Surface.hostAddr same :)
    rw [addr] at found announced
    exact ⟨a, found, by rw [surfaceFromAnnounce_live, ← same, announced]⟩
  cases placed : strip.placedBy (action.operation strip) with
  | none =>
      have sublist := map_apply_sublist (g := Surface.body) (fun _ => rfl) placed
      rw [apply_operation] at sublist
      obtain ⟨other, old, same⟩ := List.mem_map.mp (sublist.subset (List.mem_map_of_mem member))
      exact kept other old same
  | some surface =>
      cases action with
      | hostAnnounced announce addr =>
          rcases List.mem_append.mp member with old | new
          · exact kept s old rfl
          · obtain rfl := List.mem_singleton.mp new
            refine ⟨announce, knows, ?_⟩
            rw [surfaceFromAnnounce_live]
            exact strip.body_appended announce addr
      | _ => cases placed

private theorem KnownTo.foldl_live (known : strip.KnownTo directory) {actions : List (LiveAction F)}
    (knows : ∀ action ∈ actions, action.KnownTo directory) :
    (actions.foldl Strip.live strip).KnownTo directory := by
  induction actions generalizing strip with
  | nil => exact known
  | cons action actions ih =>
      exact ih (known.live (knows action List.mem_cons_self))
        fun other member => knows other (List.mem_cons_of_mem _ member)

private theorem length_live_le (action : LiveAction F) :
    (strip.live action).surfaces.length ≤ strip.surfaces.length + announcements [action] := by
  have sublist : strip.placedBy (action.operation strip) = none →
      ((strip.apply (action.operation strip)).surfaces.map Surface.body).Sublist
        (strip.surfaces.map Surface.body) := map_apply_sublist fun _ => rfl
  rw [apply_operation] at sublist
  cases action with
  | hostAnnounced announce addr => simp [Strip.live, announcements]
  | _ =>
      have fewer := (sublist rfl).length_le
      rw [List.length_map, List.length_map] at fewer
      exact fewer

private theorem length_foldl_live_le (actions : List (LiveAction F)) :
    (actions.foldl Strip.live strip).surfaces.length ≤
      strip.surfaces.length + announcements actions := by
  induction actions generalizing strip with
  | nil => exact le_rfl
  | cons action actions ih =>
      have first := strip.length_live_le action
      have later := @ih (strip.live action)
      have split : announcements (action :: actions) =
          announcements [action] + announcements actions := by
        unfold announcements
        rw [← List.countP_append]
        rfl
      rw [List.foldl_cons, split]
      omega

end Strip

private theorem viewportHeight_placed [RustFloat F] (arrivals : Nat → List FrameEvent) (n : Nat)
    (strip : Strip F) (reconnected : List (SurfaceEntry × Link)) :
    (placed arrivals n strip reconnected).viewportHeight = strip.viewportHeight := by
  induction reconnected generalizing n strip with
  | nil => rfl
  | cons next rest ih => exact (ih _ _).trans (strip.pump_viewport _).2

private theorem viewportHeight_resumedStrip [RustFloat F] (arrivals : Nat → List FrameEvent)
    (image : SessionImage F) (strip : Strip F) (links : List Link) :
    (resumedStrip arrivals image strip links).viewportHeight = strip.viewportHeight :=
  (Strip.pump_viewport _ _).2.trans (viewportHeight_placed _ _ _ _)

end

/-! ## Moves -/

/-- Where a session is parked: the address of a broker that serves what it is given. -/
structure Place where
  host : Str
  port : UInt16
  network : ServedImage → Network
  noSlash : '/' ∉ host
  reaches : ∀ served, (network served).Reaches host port served

/-- A stay of a session on a device, from the checkpoint that it is resumed from. -/
structure Leg (F : Type) where
  created : Str
  place : Place
  hosts : Hosts
  actions : List (LiveAction F)

variable {F : Type} [Field F] [LinearOrder F] [IsStrictOrderedRing F] [RustFloat F]
variable {W E : Type} (sha256 : Sha256) (xml : QuickXml)
variable (postcard : Postcard (StructureMessage W) E) (debug : StructureMessage W → Str)

/-- A session moves to a device with the same viewport. -/
def handOver (strip : Strip F) (leg : Leg F) : Except (AnyhowError E) (Strip F) := do
  let image := imageFromStrip sha256 strip leg.created
  let network := leg.place.network (image.served sha256)
  let (_, resumed) ← resume sha256 postcard debug leg.hosts (fetchImage sha256 xml network)
    (sessionUrl leg.place.host leg.place.port (image.declaredId sha256))
    (.new strip.viewportWidth strip.viewportHeight)
  return leg.actions.foldl Strip.live resumed

/-- The hosts that a device meets are those of a directory, and they answer. -/
structure Leg.KnownTo (directory : Directory) (leg : Leg F) : Prop where
  actions : ∀ action ∈ leg.actions, action.KnownTo directory
  answers : ∀ n addr a (image : SessionImage F), directory.announce addr = some a →
    ∃ link, connect postcard debug leg.hosts.endpoint n addr.shown
      (some (image.computeId sha256)) = .ok link ∧ link.announce = a

variable {sha256 xml postcard debug} {directory : Directory}

private theorem SessionImage.normalForm_eq_self (exact : RustFloat.Exact F) {img : SessionImage F}
    (trimmed : img.Trimmed) (ordered : img.Ordered) : img.normalForm img.id = img := by
  have surfaces := (normalForm_surfaces_eq_iff img.id).mpr ⟨trimmed, ordered⟩
  have scroll := exact.dropZeroSign_eq img.layout.scrollPos
  calc
    img.normalForm img.id =
        { img with
          surfaces := (img.normalForm img.id).surfaces
          layout := { img.layout with scrollPos := RustFloat.dropZeroSign img.layout.scrollPos } } :=
      rfl
    _ = img := by rw [surfaces, scroll]

/-- A parked checkpoint comes back as it is. -/
theorem fetchImage_imageFromStrip (sha256 : Sha256) (documented : Documented xml) (laws : RustFloat.Documented F)
    (exact : RustFloat.Exact F) {strip : Strip F} (numbered : strip.Numbered)
    (few : strip.surfaces.length ≤ 2 ^ 32)
    (plain : ∀ s ∈ strip.surfaces,
      Unpadded s.provenance.machineName ∧ Unpadded s.provenance.captureDescription)
    (created : Str) (place : Place) :
    fetchImage (E := E) sha256 xml
        (place.network ((imageFromStrip sha256 strip created).served sha256))
        (sessionUrl place.host place.port
          ((imageFromStrip sha256 strip created).declaredId sha256)) =
      .ok (imageFromStrip sha256 strip created) := by
  have named : (imageFromStrip sha256 strip created).SelfNamed sha256 :=
    imageFromStrip_selfNamed strip created
  have normal := SessionImage.normalForm_eq_self exact (trimmed_imageFromStrip.mpr plain)
    ((numbered.ordered_imageFromStrip sha256 created).mpr few)
  exact (fetchImage_parked documented laws named (exact.number _) place.noSlash
    (place.reaches _)).mpr ⟨normal.symm, idMatches_computeId.mpr (.inl rfl)⟩

section

variable {strip : Strip F} (known : strip.KnownTo directory)

include known

private theorem Strip.KnownTo.plain :
    ∀ s ∈ strip.surfaces,
      Unpadded s.provenance.machineName ∧ Unpadded s.provenance.captureDescription := by
  intro s member
  obtain ⟨a, found, same⟩ := known s member
  have provenance : s.provenance = a.provenance := (congrArg Surface.provenance same :)
  rw [provenance]
  exact directory.plain _ a found

private theorem Strip.KnownTo.announceRecorded {leg : Leg F}
    (knows : leg.KnownTo sha256 postcard debug directory) (created : Str) :
    AnnounceRecorded sha256 postcard debug leg.hosts (imageFromStrip sha256 strip created) := by
  have named : (imageFromStrip sha256 strip created).SelfNamed sha256 :=
    imageFromStrip_selfNamed strip created
  intro n entry addr found parsed
  obtain ⟨s, member, rfl⟩ := List.mem_map.mp (List.mem_of_getElem? found)
  have printed : SocketAddr.parse s.hostAddr.display = some addr := parsed
  rw [SocketAddr.parse_display] at printed
  cases printed
  obtain ⟨a, listed, same⟩ := known s member
  obtain ⟨link, connected, rfl⟩ :=
    knows.answers n s.hostAddr a (imageFromStrip sha256 strip created) listed
  refine ⟨link, ?_, ?_⟩
  · change connect _ _ _ _ _ (some ((imageFromStrip sha256 strip created).declaredId sha256)) = _
    rw [named.declaredId_eq]
    exact connected
  · exact
      { id := (congrArg Surface.id same :).symm
        name := (congrArg Surface.name same :).symm
        width := (congrArg Surface.sourceWidth same :).symm
        height := (congrArg Surface.sourceHeight same :).symm
        codec := (congrArg Surface.codec same :).symm
        os := (congrArg (fun s => s.provenance.os) same :).symm
        machine := (congrArg (fun s => s.provenance.machineName) same :).symm
        capture := (congrArg (fun s => s.provenance.captureDescription) same :).symm }

private theorem Strip.KnownTo.portable_restored {s : Surface F} (member : s ∈ strip.surfaces) {link : Link}
    (announces : Announces link.announce (surfaceEntry s))
    (address : link.hostAddr.display = s.hostAddr.display) :
    (restored (.new strip.viewportWidth strip.viewportHeight) (surfaceEntry s, link)).portable =
      s.portable := by
  obtain ⟨a, _, same⟩ := known s member
  have width : s.width = strip.viewportWidth / 3 := (congrArg Surface.width same :)
  have height : s.height = strip.viewportHeight := (congrArg Surface.height same :)
  have shown : link.hostAddr.shown = s.hostAddr.shown := by
    have parsed := SocketAddr.parse_display link.hostAddr
    rw [address, SocketAddr.parse_display] at parsed
    exact (Option.some.inj parsed).symm
  have os : link.announce.provenance.os = s.provenance.os := announces.os
  have machine : link.announce.provenance.machineName = s.provenance.machineName :=
    announces.machine
  have capture : link.announce.provenance.captureDescription = s.provenance.captureDescription :=
    announces.capture
  simp only [Surface.portable, Surface.still, restored, restoredSurface, surfaceFromAnnounce,
    Strip.defaultSurfaceWidth, Strip.new, announces.id, announces.name, announces.width,
    announces.height, announces.codec, os, machine, capture, shown, width, height]
  rfl

/-- The strip that a checkpoint is resumed to is the one that left it. -/
theorem Strip.KnownTo.project_resumedStrip (reachable : strip.LiveReachable)
    (positive : 0 < strip.viewportWidth) (few : strip.surfaces.length ≤ 2 ^ 32) (created : Str)
    (arrivals : Nat → List FrameEvent) {links : List Link}
    (size : links.length = (imageFromStrip sha256 strip created).surfaces.length)
    (recorded : ∀ reconnected ∈ (imageFromStrip sha256 strip created).surfaces.zip links,
      Announces reconnected.2.announce reconnected.1 ∧
        reconnected.2.hostAddr.display = reconnected.1.host.address) :
    (resumedStrip arrivals (imageFromStrip sha256 strip created)
        (.new strip.viewportWidth strip.viewportHeight) links).project Surface.portable =
      strip.project Surface.portable := by
  have restorable : Restorable (imageFromStrip sha256 strip created) strip.viewportWidth :=
    (restorable_imageFromStrip reachable positive created).mpr few
  have entries : (imageFromStrip sha256 strip created).surfaces =
      strip.surfaces.map surfaceEntry := rfl
  have sorted : ((imageFromStrip sha256 strip created).surfaces.zip links).insertionSort
        (fun a b => a.1.order ≤ b.1.order) =
      (imageFromStrip sha256 strip created).surfaces.zip links := by
    have ordered : (((imageFromStrip sha256 strip created).surfaces.zip links).map
        Prod.fst).Pairwise (fun a b => a.order ≤ b.order) := by
      rw [List.map_fst_zip size.ge]
      exact restorable.ordered
    exact List.Pairwise.insertionSort_eq (ordered.of_map Prod.fst fun _ _ => id)
  have surfaces : (resumedStrip arrivals (imageFromStrip sha256 strip created)
        (.new strip.viewportWidth strip.viewportHeight) links).surfaces.map Surface.portable =
      strip.surfaces.map Surface.portable := by
    rw [entries, List.length_map] at size
    have left : (strip.surfaces.zip links).map Prod.fst = strip.surfaces :=
      List.map_fst_zip size.ge
    have right : strip.surfaces.map Surface.portable =
        (strip.surfaces.zip links).map (Surface.portable ∘ Prod.fst) := by
      rw [← List.map_map, left]
    rw [map_resumedStrip fun _ => rfl, sorted]
    rw [entries, List.zip_map_left] at recorded ⊢
    rw [List.map_map, right]
    refine List.map_congr_left fun pair member => ?_
    obtain ⟨announces, address⟩ := recorded _ (List.mem_map_of_mem member)
    have inside : pair.1 ∈ strip.surfaces := left ▸ List.mem_map_of_mem member
    exact known.portable_restored inside announces address
  unfold Strip.project
  rw [surfaces, scrollPos_resumedStrip restorable size recorded,
    focus_resumedStrip_eq restorable size recorded, viewportWidth_resumedStrip,
    viewportHeight_resumedStrip]
  rfl

end

/-- A session that moves goes on as if it had stayed. -/
theorem handOver_alike (documented : Documented xml) (laws : RustFloat.Documented F)
    (exact : RustFloat.Exact F) {strip carried : Strip F} (reachable : strip.LiveReachable)
    (known : strip.KnownTo directory) (positive : 0 < strip.viewportWidth)
    (few : strip.surfaces.length ≤ 2 ^ 32)
    (alike : carried.project Surface.portable = strip.project Surface.portable) {leg : Leg F}
    (knows : leg.KnownTo sha256 postcard debug directory) :
    ∃ next, handOver sha256 xml postcard debug carried leg = .ok next ∧
      next.project Surface.portable =
        (leg.actions.foldl Strip.live strip).project Surface.portable := by
  have image := Strip.imageFromStrip_project (surfaceEntry_portable (F := F)) sha256
  have same : imageFromStrip sha256 carried leg.created =
      imageFromStrip sha256 strip leg.created := by
    rw [← image, alike, image]
  obtain ⟨width, height⟩ := Strip.viewport_of_project alike
  have restorable : Restorable (imageFromStrip sha256 strip leg.created) strip.viewportWidth :=
    (restorable_imageFromStrip reachable positive leg.created).mpr few
  have fetched := fetchImage_imageFromStrip (E := E) sha256 documented laws exact
    reachable.numbered few known.plain leg.created leg.place
  obtain ⟨links, reconnected, recorded⟩ :=
    reconnected_of_announced restorable (known.announceRecorded knows leg.created)
  have resumed := (resume_eq_ok fetched).mpr ⟨reconnected,
    (rfl : _ = resumedStrip leg.hosts.arrivals (imageFromStrip sha256 strip leg.created)
      (.new strip.viewportWidth strip.viewportHeight) links)⟩
  refine ⟨_, ?_, Strip.foldl_live_project_congr Surface.portable_overlooked (fun _ _ => rfl)
    (known.project_resumedStrip reachable positive few leg.created leg.hosts.arrivals
      reconnected.length_eq recorded) leg.actions⟩
  unfold handOver
  rw [same, width, height]
  dsimp only
  rw [resumed]
  rfl

private theorem Strip.LiveReachable.foldl_live {strip : Strip F} (reachable : strip.LiveReachable)
    (actions : List (LiveAction F)) : (actions.foldl Strip.live strip).LiveReachable := by
  obtain ⟨viewportWidth, viewportHeight, before, rfl⟩ := reachable
  exact ⟨viewportWidth, viewportHeight, before ++ actions, by rw [List.foldl_append]⟩

private theorem viewportWidth_foldl_live (strip : Strip F) (actions : List (LiveAction F)) :
    (actions.foldl Strip.live strip).viewportWidth = strip.viewportWidth := by
  induction actions generalizing strip with
  | nil => rfl
  | cons action actions ih => exact (ih _).trans (strip.live_viewportWidth action)

private theorem announcements_append (actions more : List (LiveAction F)) :
    announcements (actions ++ more) = announcements actions + announcements more :=
  List.countP_append

private theorem foldlM_handOver_alike (documented : Documented xml) (laws : RustFloat.Documented F)
    (exact : RustFloat.Exact F) {strip carried : Strip F} (reachable : strip.LiveReachable)
    (known : strip.KnownTo directory) (positive : 0 < strip.viewportWidth) {legs : List (Leg F)}
    (few : strip.surfaces.length + announcements (legs.flatMap Leg.actions) ≤ 2 ^ 32)
    (alike : carried.project Surface.portable = strip.project Surface.portable)
    (knows : ∀ leg ∈ legs, leg.KnownTo sha256 postcard debug directory) :
    ∃ final, legs.foldlM (handOver sha256 xml postcard debug) carried = .ok final ∧
      final.project Surface.portable =
        ((legs.flatMap Leg.actions).foldl Strip.live strip).project Surface.portable := by
  induction legs generalizing strip carried with
  | nil => exact ⟨carried, rfl, alike⟩
  | cons leg legs ih =>
      rw [List.flatMap_cons, announcements_append] at few
      have first := knows leg List.mem_cons_self
      obtain ⟨next, moved, alike⟩ := handOver_alike documented laws exact reachable known positive
        (by omega) alike first
      have longer := strip.length_foldl_live_le leg.actions
      rw [← viewportWidth_foldl_live strip leg.actions] at positive
      obtain ⟨final, later, alike⟩ := ih (reachable.foldl_live leg.actions)
        (known.foldl_live first.actions) positive (by omega) alike
        fun other member => knows other (List.mem_cons_of_mem _ member)
      refine ⟨final, Run.cons moved later, ?_⟩
      rw [List.flatMap_cons, List.foldl_append]
      exact alike

/-- A session that moves any number of times, among hosts that answer and keep their
surfaces, is the one that stayed where it began: every move succeeds, and behind the
last one its checkpoints, its hits and its line in the log are the same. -/
theorem moves_invisible (viewportHeight : F) (documented : Documented xml) (laws : RustFloat.Documented F)
    (exact : RustFloat.Exact F) {viewportWidth : F} (positive : 0 < viewportWidth)
    {actions : List (LiveAction F)} {legs : List (Leg F)}
    (starts : ∀ action ∈ actions, action.KnownTo directory)
    (knows : ∀ leg ∈ legs, leg.KnownTo sha256 postcard debug directory)
    (few : announcements (actions ++ legs.flatMap Leg.actions) ≤ 2 ^ 32) :
    ∃ final, legs.foldlM (handOver sha256 xml postcard debug)
        (actions.foldl Strip.live (.new viewportWidth viewportHeight)) = .ok final ∧
      let stayed := (actions ++ legs.flatMap Leg.actions).foldl Strip.live
        (.new viewportWidth viewportHeight)
      (∀ created, imageFromStrip sha256 final created = imageFromStrip sha256 stayed created) ∧
        (∀ vx vy, final.hitTest vx vy = stayed.hitTest vx vy) ∧
        ∀ showScroll, HeadlessRenderer.line showScroll final =
          HeadlessRenderer.line showScroll stayed := by
  rw [announcements_append] at few
  have width := viewportWidth_foldl_live (Strip.new viewportWidth viewportHeight) actions
  have length := (Strip.new viewportWidth viewportHeight).length_foldl_live_le actions
  have none : (Strip.new viewportWidth viewportHeight).KnownTo directory := by
    intro s member
    cases member
  obtain ⟨final, moved, alike⟩ := foldlM_handOver_alike documented laws exact
    ⟨viewportWidth, viewportHeight, actions, rfl⟩ (none.foldl_live starts) (width ▸ positive)
    (by simp only [Strip.new, List.length_nil] at length ⊢; omega) rfl knows
  refine ⟨final, moved, ?_⟩
  rw [List.foldl_append]
  refine ⟨fun created => ?_, fun vx vy => ?_, fun showScroll => ?_⟩
  · have image := Strip.imageFromStrip_project (surfaceEntry_portable (F := F)) sha256
    rw [← image, alike, image]
  · have hits := Strip.hitTest_project (Surface.portable_overlooked (F := F))
    rw [← hits, alike, hits]
  · have line := Strip.line_project (Surface.portable_overlooked (F := F)) (fun _ => rfl) showScroll
    rw [← line, alike, line]

/-! ## A session that moves twice -/

def sampleDirectory : Directory where
  announce _ := some sampleAnnounce
  plain := by
    have texts : trim sampleAnnounce.provenance.machineName = sampleAnnounce.provenance.machineName ∧
        trim sampleAnnounce.provenance.captureDescription =
          sampleAnnounce.provenance.captureDescription := by decide
    intro addr a found
    cases found
    exact ⟨trim_eq_self_iff.mp texts.1, trim_eq_self_iff.mp texts.2⟩

/-- Another host comes up, the strip is scrolled and a surface takes the focus. -/
def sampleLeg : Leg ℚ where
  created := "2026-06-28T19:44:09Z".toList
  place :=
    { host := "broker".toList, port := 7070, network := Network.only "broker".toList 7070
      noSlash := by decide
      reaches := Network.only_reaches _ _ }
  hosts := sampleHosts
  actions :=
    [.hostAnnounced sampleAnnounce (.v4 ⟨127, 0, 0, 1⟩ 7002), .scrolledBy 20,
      .focused sampleAnnounce.id]

private theorem sampleLeg_known :
    sampleLeg.KnownTo sha256Digest (StructureMessage.postcard Library.Postcard.Format.f32)
      (fun _ => []) sampleDirectory where
  actions := by
    have known : LiveAction.KnownTo sampleDirectory
        (.hostAnnounced sampleAnnounce (.v4 ⟨127, 0, 0, 1⟩ 7002) : LiveAction ℚ) := rfl
    exact List.forall_mem_cons.mpr ⟨known, List.forall_mem_cons.mpr ⟨trivial,
      List.forall_mem_singleton.mpr trivial⟩⟩
  answers := by
    intro n addr a image found
    cases found
    have short : (utf8 (image.computeId sha256Digest)).length < 2 ^ 64 := by
      rw [utf8_ascii fun c member => (computeId_idChar sha256Digest image c member).1,
        List.length_map, length_computeId]
      decide
    obtain ⟨link, connected, announced, _⟩ := sampleHost_connects
      sampleHosts.endpoint (rfl : sampleHosts.endpoint n addr.shown = sampleHost)
      (some (image.computeId sha256Digest))
      (by simpa using short)
    exact ⟨link, connected, announced⟩

theorem sampleLeg_invisible :
    ∃ final, [sampleLeg, sampleLeg].foldlM (handOver sha256Digest Scanner.quickXml
        (StructureMessage.postcard Library.Postcard.Format.f32) (fun _ => []))
        ([.hostAnnounced sampleAnnounce (.v4 ⟨127, 0, 0, 1⟩ 7001)].foldl Strip.live
          (.new 1200 800)) = .ok final ∧
      (imageFromStrip sha256Digest final sampleLeg.created).layout.focus = some sampleAnnounce.id ∧
      (imageFromStrip sha256Digest final sampleLeg.created).surfaces.length = 3 := by
  have first : LiveAction.KnownTo sampleDirectory
      (.hostAnnounced sampleAnnounce (.v4 ⟨127, 0, 0, 1⟩ 7001) : LiveAction ℚ) := rfl
  have width : (0 : ℚ) < 1200 := by norm_num
  obtain ⟨final, moved, checkpoint, _⟩ := moves_invisible 800 Scanner.documented
    ExactFloat.documented ExactFloat.exact width (List.forall_mem_singleton.mpr first)
    (List.forall_mem_cons.mpr ⟨sampleLeg_known, List.forall_mem_singleton.mpr sampleLeg_known⟩)
    (by decide)
  refine ⟨final, moved, ?_, ?_⟩
  · rw [checkpoint]
    rfl
  · rw [checkpoint]
    rfl

end Simulboot
