import Simulboot.Client.Parking
import Simulboot.Client.Resume
import Simulboot.Library.ExactFloat

/-!
# Whose surface takes a slot

The image says which surface belongs in a slot, but the surface that takes it is
the one its host announces.
-/

set_option autoImplicit false
set_option linter.unusedSectionVars false

namespace Simulboot

open Library

section

variable {F : Type} [Zero F] [One F] [OfNat F 3] [Add F] [Sub F] [Div F] [Max F]
variable [LT F] [LE F] [DecidableLT F] [DecidableLE F] [RustFloat F]
variable {W E : Type}

/-- The ids of an image's surfaces in their order. -/
def SessionImage.idsInOrder (image : SessionImage F) : List SurfaceId :=
  (image.surfaces.insertionSort fun a b => a.order ≤ b.order).map SurfaceEntry.id

/-- The slots of a strip hold the surfaces that an image names, and the focus is
on the one that it names. -/
structure BoundTo (image : SessionImage F) (strip : Strip F) : Prop where
  slots : strip.surfaces.map Surface.id = image.idsInOrder
  focus : ∀ id ∈ image.layout.focus, id ∈ image.surfaces.map SurfaceEntry.id →
    strip.focus = some id

/-- Focus is restored where it names a surface of the strip. -/
theorem focus_resumedStrip {arrivals : Nat → List FrameEvent} {image : SessionImage F}
    {strip : Strip F} {links : List Link} {id : SurfaceId}
    (focused : image.layout.focus = some id)
    (present : id ∈ (resumedStrip arrivals image strip links).surfaces.map Surface.id) :
    (resumedStrip arrivals image strip links).focus = some id := by
  have found := Strip.hasSurface_iff.mpr present
  change image.layout.focus.filter
    (resumedStrip arrivals image strip links).hasSurface = some id
  rw [focused, Option.filter_some, if_pos found]

private theorem mem_idsInOrder {image : SessionImage F} {id : SurfaceId} :
    id ∈ image.idsInOrder ↔ id ∈ image.surfaces.map SurfaceEntry.id := by
  unfold SessionImage.idsInOrder
  simp only [List.mem_map, List.mem_insertionSort]

/-- A resumed strip holds the image's surfaces exactly where every link announced
the recorded one. -/
theorem boundTo_resumedStrip_iff (arrivals : Nat → List FrameEvent) (image : SessionImage F)
    (viewportWidth viewportHeight : F) {links : List Link}
    (size : links.length = image.surfaces.length) :
    BoundTo image
        (resumedStrip arrivals image (.new viewportWidth viewportHeight) links) ↔
      ∀ reconnected ∈ image.surfaces.zip links,
        reconnected.2.announce.id = reconnected.1.id := by
  have announced := map_resumedStrip (g := Surface.id) (fun _ => rfl) arrivals image viewportWidth
    viewportHeight links
  have recorded : image.idsInOrder =
      ((image.surfaces.zip links).insertionSort fun a b => a.1.order ≤ b.1.order).map
        fun reconnected => reconnected.1.id := by
    have sorted := List.map_insertionSort
      (fun a b : SurfaceEntry × Link => a.1.order ≤ b.1.order)
      (fun a b : SurfaceEntry => a.order ≤ b.order) Prod.fst (image.surfaces.zip links)
      fun _ _ _ _ => Iff.rfl
    rw [List.map_fst_zip size.ge] at sorted
    unfold SessionImage.idsInOrder
    rw [← sorted, List.map_map]
    rfl
  have slots : (resumedStrip arrivals image (.new viewportWidth viewportHeight)
        links).surfaces.map Surface.id = image.idsInOrder ↔
      ∀ reconnected ∈ image.surfaces.zip links,
        reconnected.2.announce.id = reconnected.1.id := by
    rw [announced, recorded, List.map_inj_left]
    simp only [List.mem_insertionSort]
    rfl
  rw [← slots]
  refine ⟨BoundTo.slots, fun bound => ⟨bound, fun id focused member => ?_⟩⟩
  refine focus_resumedStrip focused ?_
  rw [bound]
  exact mem_idsInOrder.mpr member

variable {sha256 : Sha256} {postcard : Postcard (StructureMessage W) E}
  {debug : StructureMessage W → Str} {hosts : Hosts}

/-- Resuming binds the slots of an image exactly where, provided that all its
hosts are reached, each announces the surface recorded for it. -/
theorem slots_bound_iff {fetchImage : Str → Except (AnyhowError E) (SessionImage F)} {url : Str}
    {image : SessionImage F} (fetched : fetchImage url = .ok image)
    (viewportWidth viewportHeight : F) :
    (∀ links strip, resume sha256 postcard debug hosts fetchImage url
        (.new viewportWidth viewportHeight) = .ok (links, strip) → BoundTo image strip) ↔
      ∀ links, Reconnected postcard debug hosts (image.id.getD (image.computeId sha256)) 0
          image.surfaces links →
        ∀ reconnected ∈ image.surfaces.zip links,
          reconnected.2.announce.id = reconnected.1.id := by
  constructor
  · intro bound links reconnected
    have resumed : resume sha256 postcard debug hosts fetchImage url
        (.new viewportWidth viewportHeight) = .ok (links, resumedStrip hosts.arrivals image
          (.new viewportWidth viewportHeight) links) := (resume_eq_ok fetched).mpr ⟨reconnected, rfl⟩
    exact (boundTo_resumedStrip_iff _ _ _ _ reconnected.length_eq).mp (bound _ _ resumed)
  · intro announced links strip resumed
    obtain ⟨reconnected, rfl⟩ := (resume_eq_ok fetched).mp resumed
    exact (boundTo_resumedStrip_iff _ _ _ _ reconnected.length_eq).mpr
      (announced links reconnected)

end

/-! ## A session of one host -/

def sampleImage (id : SurfaceId) : SessionImage ℚ :=
  (SessionImage.new (F := ℚ) "2026-06-28T19:44:09Z".toList
    [{ id, name := "macOS".toList, order := 0, codec := .h265, width := 960, height := 540
       host :=
        { address := "127.0.0.1:7001".toList, os := .macOS, machine := "Aleth-MacBook".toList
          capture := "window:Safari".toList } }]
    { scrollPos := 0, focus := some id }).withComputedId sha256Digest

/-- The sample host answers every dial; one frame arrives before the layout is
restored. -/
def sampleHosts : Hosts where
  endpoint _ _ := sampleHost
  arrivals n := if n = 1 then [⟨sampleAnnounce.id, 40⟩] else []

private theorem sampleImage_reconnected (id : SurfaceId) :
    ∃ link, link.announce = sampleAnnounce ∧ link.hostAddr = .v4 ⟨127, 0, 0, 1⟩ 7001 ∧
      ∀ links, Reconnected (StructureMessage.postcard Library.Postcard.Format.f32) (fun _ => [])
          sampleHosts ((sampleImage id).id.getD ((sampleImage id).computeId sha256Digest)) 0
          (sampleImage id).surfaces links ↔ links = [link] := by
  have parsed : SocketAddr.parse "127.0.0.1:7001".toList = some (.v4 ⟨127, 0, 0, 1⟩ 7001) := by
    decide
  have named : (sampleImage id).SelfNamed sha256Digest := withComputedId_selfNamed _ _
  have short : (utf8 ((sampleImage id).computeId sha256Digest)).length < 2 ^ 64 := by
    rw [utf8_ascii fun c member => (computeId_idChar sha256Digest (sampleImage id) c member).1,
      List.length_map, length_computeId]
    decide
  rw [← named.declaredId_eq] at short
  obtain ⟨link, connected, announced, dialled⟩ := sampleHost_connects
    sampleHosts.endpoint (n := 0) rfl (some ((sampleImage id).declaredId sha256Digest))
    (by simpa using short)
  refine ⟨link, announced, dialled, fun links => ⟨fun reconnected => ?_, ?_⟩⟩
  · rcases reconnected with _ | ⟨⟨addr, same, again⟩, ⟨⟩⟩
    have same : SocketAddr.parse "127.0.0.1:7001".toList = some addr := same
    rw [parsed] at same
    cases same
    exact congrArg (fun link => [link]) (Except.ok.inj (again.symm.trans connected))
  · rintro rfl
    exact .cons ⟨_, parsed, connected⟩ .nil

theorem sampleImage_resumed (id : SurfaceId) :
    ∃ links strip, resume sha256Digest (StructureMessage.postcard Library.Postcard.Format.f32)
          (fun _ => []) sampleHosts (fun _ => .ok (sampleImage id)) [] (.new 1200 800) =
        .ok (links, strip) ∧
      (BoundTo (sampleImage id) strip ↔ sampleAnnounce.id = id) := by
  obtain ⟨link, announced, _, only⟩ := sampleImage_reconnected id
  refine ⟨[link], _, (resume_eq_ok rfl).mpr ⟨(only _).mpr rfl, rfl⟩, ?_⟩
  rw [boundTo_resumedStrip_iff _ _ _ _ rfl, ← announced]
  exact ⟨fun all => all _ (List.mem_singleton_self _), fun same reconnected member => by
    obtain rfl := List.mem_singleton.mp member
    exact same⟩

theorem sampleImage_bound :
    ∃ links strip, resume sha256Digest (StructureMessage.postcard Library.Postcard.Format.f32)
          (fun _ => []) sampleHosts (fun _ => .ok (sampleImage sampleAnnounce.id)) []
          (.new 1200 800) = .ok (links, strip) ∧
      BoundTo (sampleImage sampleAnnounce.id) strip := by
  obtain ⟨links, strip, resumed, _⟩ := sampleImage_resumed sampleAnnounce.id
  refine ⟨links, strip, resumed, (slots_bound_iff rfl _ _).mpr ?_ links strip resumed⟩
  obtain ⟨link, announced, _, only⟩ := sampleImage_reconnected sampleAnnounce.id
  intro links reconnected pair member
  obtain rfl := (only links).mp reconnected
  obtain rfl := List.mem_singleton.mp member
  rw [announced]

/-- A host that announces another surface than the recorded one takes its slot. -/
theorem renamed_host_takes_slot :
    ∃ links strip, resume sha256Digest (StructureMessage.postcard Library.Postcard.Format.f32)
          (fun _ => []) sampleHosts
          (fun _ => .ok (sampleImage ⟨List.replicate 32 8, rfl⟩)) [] (.new 1200 800) =
        .ok (links, strip) ∧
      ¬ BoundTo (sampleImage ⟨List.replicate 32 8, rfl⟩) strip := by
  obtain ⟨links, strip, resumed, bound⟩ := sampleImage_resumed ⟨List.replicate 32 8, rfl⟩
  refine ⟨links, strip, resumed, ?_⟩
  rw [bound]
  decide

end Simulboot
