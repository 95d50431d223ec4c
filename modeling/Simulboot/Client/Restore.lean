import Simulboot.Client.Geometry
import Simulboot.Client.Live
import Simulboot.Client.Rebinding
import Simulboot.Client.Suspension

/-!
# Checkpoint after resume

An image that a live session of moderate size can leave is restored completely:
the checkpoint of the resumed strip has its content, and so its id. Arithmetic
on widths is exact.
-/

set_option autoImplicit false
set_option linter.unusedSectionVars false

namespace Simulboot

open Library

section

variable {F : Type} [Field F] [LinearOrder F] [IsStrictOrderedRing F] [RustFloat F]
variable {W E : Type}

/-- What a checkpoint at a viewport width can contain. -/
structure Restorable (image : SessionImage F) (viewportWidth : F) : Prop where
  current : image.schemaVersion = schemaVersion
  ordered : image.Ordered
  addresses : ∀ entry ∈ image.surfaces, ∃ addr : SocketAddr, entry.host.address = addr.display
  focused : ∀ id ∈ image.layout.focus, id ∈ image.surfaces.map SurfaceEntry.id
  scrolled : 0 ≤ image.layout.scrollPos ∧ image.layout.scrollPos ≤
    max 0 (image.surfaces.length * viewportWidth / 3 - viewportWidth)

/-- A host announces what an entry records of it. -/
structure Announces (announce : SurfaceAnnounce) (entry : SurfaceEntry) : Prop where
  id : announce.id = entry.id
  name : announce.name = entry.name
  width : announce.width = entry.width
  height : announce.height = entry.height
  codec : announce.codec = entry.codec
  os : announce.provenance.os = entry.host.os
  machine : announce.provenance.machineName = entry.host.machine
  capture : announce.provenance.captureDescription = entry.host.capture

variable (sha256 : Sha256) (postcard : Postcard (StructureMessage W) E)
  (debug : StructureMessage W → Str)

/-- Every dialled host announces the surface that its entry records. -/
def AnnounceRecorded (hosts : Hosts) (image : SessionImage F) : Prop :=
  ∀ n entry addr, image.surfaces[n]? = some entry →
    SocketAddr.parse entry.host.address = some addr →
    ∃ link, connect postcard debug hosts.endpoint n addr
        (some (image.id.getD (image.computeId sha256))) = .ok link ∧
      Announces link.announce entry

variable {sha256 postcard debug}

private theorem surfaceEntry_restored {viewport : Strip F} {entry : SurfaceEntry} {link : Link}
    (announces : Announces link.announce entry)
    (address : link.hostAddr.display = entry.host.address) :
    surfaceEntry (restored viewport (entry, link)) = entry := by
  obtain ⟨id, name, order, ⟨hostAddress, os, machine, capture⟩, codec, width, height⟩ := entry
  simp only [surfaceEntry, restored, restoredSurface, surfaceFromAnnounce, announces.id,
    announces.name, announces.width, announces.height, announces.codec, announces.os,
    announces.machine, announces.capture, address]

/-- The links that the hosts of an image come back with. -/
theorem reconnected_of_announced {hosts : Hosts} {image : SessionImage F} {viewportWidth : F}
    (restorable : Restorable image viewportWidth)
    (announced : AnnounceRecorded sha256 postcard debug hosts image) :
    ∃ links, Reconnected postcard debug hosts (image.id.getD (image.computeId sha256)) 0
        image.surfaces links ∧
      ∀ reconnected ∈ image.surfaces.zip links,
        Announces reconnected.2.announce reconnected.1 ∧
          reconnected.2.hostAddr.display = reconnected.1.host.address := by
  refine Reconnected.of_answers
    (fun entry link => Announces link.announce entry ∧
      link.hostAddr.display = entry.host.address) fun n entry found => ?_
  obtain ⟨addr, printed⟩ := restorable.addresses entry (List.mem_of_getElem? found)
  have parsed : SocketAddr.parse entry.host.address = some addr.shown := by
    rw [printed, SocketAddr.parse_display]
  obtain ⟨link, connected, announces⟩ := announced n entry addr.shown found parsed
  rw [Nat.zero_add]
  refine ⟨link, ⟨addr.shown, parsed, connected⟩, announces, ?_⟩
  rw [(connect_eq_ok connected).1, SocketAddr.display_shown, printed]

section

variable {image : SessionImage F} {viewportWidth viewportHeight : F}
  (restorable : Restorable image viewportWidth) {links : List Link}
  (size : links.length = image.surfaces.length)
  (recorded : ∀ reconnected ∈ image.surfaces.zip links,
    Announces reconnected.2.announce reconnected.1 ∧
      reconnected.2.hostAddr.display = reconnected.1.host.address)
  (arrivals : Nat → List FrameEvent)

include restorable size recorded

private theorem surfaceEntries_resumedStrip :
    (resumedStrip arrivals image (.new viewportWidth viewportHeight) links).surfaces.map
      surfaceEntry = image.surfaces := by
  have entries : (image.surfaces.zip links).map
      (surfaceEntry ∘ restored (.new viewportWidth viewportHeight)) = image.surfaces := by
    have each : ∀ reconnected ∈ image.surfaces.zip links,
        (surfaceEntry ∘ restored (.new viewportWidth viewportHeight)) reconnected =
          reconnected.1 :=
      fun reconnected member => surfaceEntry_restored (recorded reconnected member).1
        (recorded reconnected member).2
    rw [List.map_congr_left each]
    exact List.map_fst_zip size.ge
  have sorted := List.map_insertionSort
    (fun a b : SurfaceEntry × Link => a.1.order ≤ b.1.order)
    (fun a b : SurfaceEntry => a.order ≤ b.order)
    (surfaceEntry ∘ restored (.new viewportWidth viewportHeight)) (image.surfaces.zip links)
    fun _ _ _ _ => Iff.rfl
  rw [map_resumedStrip fun _ => rfl, sorted, entries]
  exact List.Pairwise.insertionSort_eq restorable.ordered

theorem scrollPos_resumedStrip :
    (resumedStrip arrivals image (.new viewportWidth viewportHeight) links).scrollPos =
      image.layout.scrollPos := by
  have widths : ∀ w ∈ (resumedStrip arrivals image (.new viewportWidth viewportHeight)
      links).surfaces.map Surface.width, w = viewportWidth / 3 := by
    intro w member
    rw [map_resumedStrip fun _ => rfl] at member
    obtain ⟨_, _, rfl⟩ := List.mem_map.mp member
    rfl
  have count : (resumedStrip arrivals image (.new viewportWidth viewportHeight)
      links).surfaces.length = image.surfaces.length := by
    rw [← List.length_map surfaceEntry,
      surfaceEntries_resumedStrip restorable size recorded arrivals]
  have limit : (resumedStrip arrivals image (.new viewportWidth viewportHeight) links).maxScroll =
      max 0 (image.surfaces.length * viewportWidth / 3 - viewportWidth) := by
    unfold Strip.maxScroll
    rw [Strip.contentWidth_of_uniform widths, count, viewportWidth_resumedStrip, max_comm,
      mul_div_assoc]
  have scrolled := restorable.scrolled
  rw [← limit] at scrolled
  exact clamp_eq_self scrolled.1 scrolled.2

theorem focus_resumedStrip_eq :
    (resumedStrip arrivals image (.new viewportWidth viewportHeight) links).focus =
      image.layout.focus := by
  cases focused : image.layout.focus with
  | none =>
      change image.layout.focus.filter _ = none
      rw [focused]
      rfl
  | some id =>
      have entries : (resumedStrip arrivals image (.new viewportWidth viewportHeight)
          links).surfaces.map surfaceEntry = image.surfaces :=
        surfaceEntries_resumedStrip restorable size recorded arrivals
      have ids := congrArg (List.map SurfaceEntry.id) entries
      rw [List.map_map] at ids
      refine focus_resumedStrip focused ?_
      have present := restorable.focused id focused
      rw [← ids] at present
      exact present

/-- The checkpoint of a resumed strip is the image under its content id. -/
theorem imageFromStrip_resumedStrip :
    imageFromStrip sha256
        (resumedStrip arrivals image (.new viewportWidth viewportHeight) links) image.created =
      { image with id := some (image.computeId sha256) } := by
  have base : SessionImage.new image.created
        ((resumedStrip arrivals image (.new viewportWidth viewportHeight) links).surfaces.map
          surfaceEntry)
        (checkpointLayout
          (resumedStrip arrivals image (.new viewportWidth viewportHeight) links)) =
      { image with id := none } := by
    unfold checkpointLayout
    rw [surfaceEntries_resumedStrip restorable size recorded,
      scrollPos_resumedStrip restorable size recorded,
      focus_resumedStrip_eq restorable size recorded, SessionImage.new, ← restorable.current]
  unfold imageFromStrip
  rw [base]
  rfl

end

/-- A checkpoint of a live strip is one that can be restored, as long as every
surface has an order of its own. -/
theorem restorable_imageFromStrip {strip : Strip F} (reachable : strip.LiveReachable)
    (positive : 0 < strip.viewportWidth) (created : Str) :
    Restorable (imageFromStrip sha256 strip created) strip.viewportWidth ↔
      strip.surfaces.length ≤ 2 ^ 32 := by
  rw [← reachable.numbered.ordered_imageFromStrip sha256 created]
  refine ⟨Restorable.ordered, fun ordered => ?_⟩
  have placed := reachable.wellPlaced positive
  have recorded : (imageFromStrip sha256 strip created).surfaces =
      strip.surfaces.map surfaceEntry := rfl
  refine ⟨rfl, ordered, ?_, ?_, ?_⟩
  · rw [recorded, List.forall_mem_map]
    exact fun s _ => ⟨s.hostAddr, rfl⟩
  · intro id focused
    rw [recorded, List.map_map]
    exact placed.focused id focused
  · have scrolled := placed.scrolled
    unfold Strip.Scrolled at scrolled
    rw [placed.maxScroll_eq, max_comm, ← mul_div_assoc] at scrolled
    rw [recorded, List.length_map]
    exact scrolled

/-- Resuming what a checkpoint can contain and checkpointing again gives the same
image under its content id; and every live strip leaves such a checkpoint, as
long as each surface has an order of its own. -/
theorem checkpoint_restores (sha256 : Sha256) (postcard : Postcard (StructureMessage W) E)
    (debug : StructureMessage W → Str) :
    (∀ (image : SessionImage F) (viewportWidth viewportHeight : F) (hosts : Hosts)
        (fetchImage : Str → Except (AnyhowError E) (SessionImage F)) (url : Str),
        0 < viewportWidth → Restorable image viewportWidth → fetchImage url = .ok image →
        AnnounceRecorded sha256 postcard debug hosts image →
          ∃ links strip, resume sha256 postcard debug hosts fetchImage url
              (.new viewportWidth viewportHeight) = .ok (links, strip) ∧
            imageFromStrip sha256 strip image.created =
              { image with id := some (image.computeId sha256) }) ∧
      ∀ (strip : Strip F) (created : Str), strip.LiveReachable → 0 < strip.viewportWidth →
        (Restorable (imageFromStrip sha256 strip created) strip.viewportWidth ↔
          strip.surfaces.length ≤ 2 ^ 32) := by
  refine ⟨?_, fun strip created reachable positive =>
    restorable_imageFromStrip reachable positive created⟩
  intro image viewportWidth viewportHeight hosts fetchImage url _ restorable fetched announced
  obtain ⟨links, reconnected, recorded⟩ := reconnected_of_announced restorable announced
  exact ⟨links, _, (resume_eq_ok fetched).mpr ⟨reconnected, rfl⟩,
    imageFromStrip_resumedStrip restorable reconnected.length_eq recorded hosts.arrivals⟩

end

/-! ## Sessions with two surfaces, and with too many -/

def notesAnnounce : SurfaceAnnounce :=
  { sampleAnnounce with id := numberedId 8, name := "Notes".toList }

def notesFrame : Bytes :=
  toBeBytes 83 ++ (0 :: List.replicate 32 8 ++ (5 :: utf8 "Notes".toList) ++ [192, 7, 156, 4, 0, 0] ++
    (13 :: utf8 "Aleth-MacBook".toList) ++ (9 :: utf8 "127.0.0.1".toList) ++
    (13 :: utf8 "window:Safari".toList))

/-- The first dial reaches one host, and every later one another. -/
def pairHosts : Hosts where
  endpoint n _ := if n = 0 then sampleHost else .opened ⟨⟨[notesFrame], none⟩, fun _ => .ok ()⟩
  arrivals n := if n = 1 then [⟨sampleAnnounce.id, 40⟩] else []

def recordOf (announce : SurfaceAnnounce) (port : UInt16) (order : UInt32) : SurfaceEntry :=
  { id := announce.id, name := announce.name, order, codec := announce.codec
    width := announce.width, height := announce.height
    host :=
      { address := (SocketAddr.v4 ⟨127, 0, 0, 1⟩ port).display, os := announce.provenance.os
        machine := announce.provenance.machineName
        capture := announce.provenance.captureDescription } }

/-- Two surfaces that do not stand in neighbouring slots, the second one focused. -/
def pairImage : SessionImage ℚ :=
  (SessionImage.new (F := ℚ) "2026-06-28T19:44:09Z".toList
    [recordOf sampleAnnounce 7001 2, recordOf notesAnnounce 7002 5]
    { scrollPos := 0, focus := some notesAnnounce.id }).withComputedId sha256Digest

private theorem pairImage_restorable : Restorable pairImage 1200 where
  current := rfl
  ordered := by
    have orders : (2 : UInt32) ≤ 5 := by decide
    exact List.pairwise_pair.mpr orders
  addresses := by
    intro entry member
    have listed : entry = recordOf sampleAnnounce 7001 2 ∨ entry = recordOf notesAnnounce 7002 5 := by
      simpa [pairImage, SessionImage.new, SessionImage.withComputedId] using member
    rcases listed with rfl | rfl
    · exact ⟨.v4 ⟨127, 0, 0, 1⟩ 7001, rfl⟩
    · exact ⟨.v4 ⟨127, 0, 0, 1⟩ 7002, rfl⟩
  focused := by
    intro id focused
    cases focused
    exact List.mem_cons_of_mem _ List.mem_cons_self
  scrolled := ⟨le_rfl, le_max_left _ _⟩

private theorem notesFrame_reads :
    Reads (Conn.readMessage (StructureMessage.postcard Library.Postcard.Format.f32))
      ⟨[notesFrame], none⟩ [] [.announce notesAnnounce] (.ok ()) := by
  have encoded : Encoded (StructureMessage.postcard Library.Postcard.Format.f32)
      [.announce notesAnnounce] [notesFrame] := .cons (by decide) .nil
  have fits : Fits (StructureMessage.postcard Library.Postcard.Format.f32)
      [.announce notesAnnounce] := by
    intro msg member body serialised
    obtain rfl := List.mem_singleton.mp member
    have size : ((StructureMessage.postcard Library.Postcard.Format.f32).toStdvec
        (.announce notesAnnounce)).map List.length = .ok 83 := by decide
    rw [serialised] at size
    have size : body.length = 83 := Except.ok.inj size
    rw [size]
    decide
  have nonempty : ∀ chunk ∈ [notesFrame], chunk ≠ [] := by
    intro chunk member
    obtain rfl := List.mem_singleton.mp member
    decide
  exact (reads_iff (fun _ _ => rfl) nonempty).mpr
    (decodeStream_encoded (StructureMessage.postcard_inverts _) encoded fits)

private theorem pairHosts_announce :
    AnnounceRecorded sha256Digest (StructureMessage.postcard Library.Postcard.Format.f32)
      (fun _ => []) pairHosts pairImage := by
  have named : pairImage.SelfNamed sha256Digest := withComputedId_selfNamed _ _
  have short : (utf8 (pairImage.declaredId sha256Digest)).length < 2 ^ 64 := by
    rw [named.declaredId_eq,
      utf8_ascii fun c member => (computeId_idChar sha256Digest pairImage c member).1,
      List.length_map, length_computeId]
    decide
  have carries : ∀ sessionId ∈ some (pairImage.declaredId sha256Digest), ∃ body,
      (StructureMessage.postcard Library.Postcard.Format.f32).toStdvec (.reconnect sessionId) =
        .ok body := by
    rintro sessionId ⟨⟩
    obtain ⟨body, serialised, _⟩ := StructureMessage.write_reconnect Library.Postcard.Format.f32 short
    exact ⟨body, serialised⟩
  intro n entry addr found parsed
  match n, found with
  | 0, found =>
      cases found
      obtain ⟨link, connected, announced, _⟩ := @sampleHost_connects pairHosts.endpoint 0 addr rfl
        (some (pairImage.declaredId sha256Digest)) (by simpa using short)
      refine ⟨link, connected, ?_⟩
      rw [announced]
      exact ⟨rfl, rfl, rfl, rfl, rfl, rfl, rfl, rfl⟩
  | 1, found =>
      cases found
      have dialled : pairHosts.endpoint 1 addr =
          .opened ⟨⟨[notesFrame], none⟩, fun _ => .ok ()⟩ := rfl
      obtain ⟨link, connected, announced, _⟩ := connect_of_reads notesFrame_reads dialled carries
      refine ⟨link, connected, ?_⟩
      rw [announced]
      exact ⟨rfl, rfl, rfl, rfl, rfl, rfl, rfl, rfl⟩
  | n + 2, found => cases found

def crowdedStrip (count : Nat) : Strip ℚ :=
  (List.replicate count (.hostAnnounced sampleAnnounce (.v4 ⟨127, 0, 0, 1⟩ 7001))).foldl Strip.live
    (.new 1200 800)

private theorem crowdedStrip_reachable (count : Nat) : (crowdedStrip count).LiveReachable :=
  ⟨1200, 800, _, rfl⟩

private theorem crowdedStrip_succ (count : Nat) :
    crowdedStrip (count + 1) =
      (crowdedStrip count).live (.hostAnnounced sampleAnnounce (.v4 ⟨127, 0, 0, 1⟩ 7001)) := by
  unfold crowdedStrip
  rw [List.replicate_succ', List.foldl_append]
  rfl

private theorem length_crowdedStrip (count : Nat) : (crowdedStrip count).surfaces.length = count := by
  induction count with
  | zero => rfl
  | succ count ih =>
      rw [crowdedStrip_succ, Strip.live, Strip.append_surfaces, List.length_append, ih]
      rfl

private theorem viewportWidth_crowdedStrip (count : Nat) : (crowdedStrip count).viewportWidth = 1200 := by
  induction count with
  | zero => rfl
  | succ count ih => rw [crowdedStrip_succ, Strip.live_viewportWidth, ih]

private theorem pairHosts_live :
    ∃ links strip, connectLive (StructureMessage.postcard Library.Postcard.Format.f32)
        (fun _ => []) pairHosts [.v4 ⟨127, 0, 0, 1⟩ 7001, .v4 ⟨127, 0, 0, 1⟩ 7002]
        (.new (1200 : ℚ) 800) = .ok (links, strip) ∧
      strip.viewportWidth = 1200 ∧ strip.surfaces.length = 2 := by
  obtain ⟨first, connected, _⟩ := @sampleHost_connects pairHosts.endpoint 0
    (.v4 ⟨127, 0, 0, 1⟩ 7001) rfl none (by simp)
  have dialled : pairHosts.endpoint 1 (.v4 ⟨127, 0, 0, 1⟩ 7002) =
      .opened ⟨⟨[notesFrame], none⟩, fun _ => .ok ()⟩ := rfl
  have nothing : ∀ sessionId ∈ (none : Option Str), ∃ body,
      (StructureMessage.postcard Library.Postcard.Format.f32).toStdvec (.reconnect sessionId) =
        .ok body := by simp
  obtain ⟨second, connectedNext, _⟩ := @connect_of_reads _ _ _ (fun _ => []) _ _ _ _ _ _ _ _
    notesFrame_reads dialled nothing
  refine ⟨[first, second], ((((Strip.new (1200 : ℚ) 800).pump (pairHosts.arrivals 0)).live
    (.hostAnnounced first.announce (.v4 ⟨127, 0, 0, 1⟩ 7001))).pump (pairHosts.arrivals 1)).live
    (.hostAnnounced second.announce (.v4 ⟨127, 0, 0, 1⟩ 7002)), ?_, ?_, ?_⟩
  · simp only [connectLive, connectHost, List.foldlM_cons, List.foldlM_nil, List.length_nil,
      List.length_singleton, List.nil_append, connected, connectedNext, withContext, bind,
      Except.bind, pure, Except.pure]
    rfl
  · simp only [Strip.live_viewportWidth, (Strip.pump_viewport (F := ℚ) _ _).1]
    rfl
  · have kept (strip : Strip ℚ) (arrivals : List FrameEvent) :
        (strip.pump arrivals).surfaces.length = strip.surfaces.length := by
      have ids := congrArg List.length (Strip.map_pump (g := Surface.id) (fun _ _ => rfl) strip arrivals)
      simpa using ids
    simp only [Strip.live, Strip.append_surfaces, List.length_append, kept]
    rfl

theorem pairImage_restored :
    (∃ links strip, resume sha256Digest (StructureMessage.postcard Library.Postcard.Format.f32)
          (fun _ => []) pairHosts (fun _ => .ok pairImage) [] (.new 1200 800) = .ok (links, strip) ∧
        imageFromStrip sha256Digest strip pairImage.created = pairImage) ∧
      ∃ links strip, connectLive (StructureMessage.postcard Library.Postcard.Format.f32)
          (fun _ => []) pairHosts [.v4 ⟨127, 0, 0, 1⟩ 7001, .v4 ⟨127, 0, 0, 1⟩ 7002]
          (.new (1200 : ℚ) 800) = .ok (links, strip) ∧
        Restorable (imageFromStrip sha256Digest strip "2026-06-28T19:44:09Z".toList)
          strip.viewportWidth := by
  have restores := checkpoint_restores (F := ℚ) sha256Digest
    (StructureMessage.postcard Library.Postcard.Format.f32) (fun _ => [])
  have named : pairImage.SelfNamed sha256Digest := withComputedId_selfNamed _ _
  constructor
  · obtain ⟨links, strip, resumed, checkpoint⟩ := restores.1 pairImage 1200 800 pairHosts
      (fun _ => .ok pairImage) [] (by norm_num) pairImage_restorable rfl pairHosts_announce
    rw [named.renamed_eq] at checkpoint
    exact ⟨links, strip, resumed, checkpoint⟩
  · obtain ⟨links, strip, connected, width, length⟩ := pairHosts_live
    have reachable : strip.LiveReachable := connectLive_reachable ⟨1200, 800, [], rfl⟩ connected
    refine ⟨links, strip, connected, (restores.2 strip _ reachable ?_).mpr ?_⟩
    · rw [width]
      norm_num
    · rw [length]
      decide

/-- The order of the last surface wraps around. -/
theorem crowdedStrip_not_restorable :
    (crowdedStrip (2 ^ 32 + 1)).LiveReachable ∧
      0 < (crowdedStrip (2 ^ 32 + 1)).viewportWidth ∧
      ¬ Restorable
        (imageFromStrip sha256Digest (crowdedStrip (2 ^ 32 + 1)) "2026-06-28T19:44:09Z".toList)
        (crowdedStrip (2 ^ 32 + 1)).viewportWidth := by
  have positive : 0 < (crowdedStrip (2 ^ 32 + 1)).viewportWidth := by
    rw [viewportWidth_crowdedStrip]
    norm_num
  refine ⟨crowdedStrip_reachable _, positive, ?_⟩
  rw [restorable_imageFromStrip (crowdedStrip_reachable _) positive, length_crowdedStrip]
  omega

end Simulboot
