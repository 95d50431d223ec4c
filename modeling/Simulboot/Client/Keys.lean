import Simulboot.Client.Live
import Simulboot.Client.Rebinding

/-!
# Surface ids as keys

The compositor finds surfaces by their ids everywhere. Ids come from the hosts,
and neither way of placing a surface compares them.
-/

set_option autoImplicit false
set_option linter.unusedSectionVars false

namespace Simulboot

open Library

variable {F : Type} [Zero F] [One F] [OfNat F 3] [Add F] [Sub F] [Div F] [Max F]
variable [LT F] [LE F] [DecidableLT F] [DecidableLE F]

namespace Strip

/-- Ids are keys: no two surfaces share one, so each operation by id concerns the
one surface that has it. -/
structure Keyed (strip : Strip F) : Prop where
  distinct : (strip.surfaces.map Surface.id).Nodup
  one : ∀ id, strip.hasSurface id = true → ∃ s, strip.surfaces.filter (fun s => s.id = id) = [s]
  get : ∀ s ∈ strip.surfaces, strip.get s.id = some s
  surfaceLeft : ∀ before s after, strip.surfaces = before ++ s :: after →
    strip.surfaceLeft s.id = some ((before.map Surface.width).foldl (· + ·) 0)
  noteFrame : ∀ id pts, (strip.noteFrame id pts).surfaces =
    strip.surfaces.map fun s => if s.id = id then s.frameNoted pts else s
  remove : ∀ id, (strip.remove id).2.surfaces.map Surface.id =
    (strip.surfaces.map Surface.id).filter (· ≠ id)

private theorem leftOf_append {s : Surface F} {before : List (Surface F)} (x : F)
    (fresh : s.id ∉ before.map Surface.id) (after : List (Surface F)) :
    leftOf s.id x (before ++ s :: after) =
      some ((before.map Surface.width).foldl (· + ·) x) := by
  induction before generalizing x with
  | nil => simp [leftOf]
  | cons head rest ih =>
      rw [List.map_cons, List.mem_cons, not_or] at fresh
      rw [List.cons_append, leftOf, if_neg fun same => fresh.1 same.symm, ih _ fresh.2]
      rfl

private theorem updateFirst_eq_map {id : SurfaceId} {f : Surface F → Surface F}
    {surfaces : List (Surface F)} (distinct : (surfaces.map Surface.id).Nodup) :
    updateFirst (fun s => s.id = id) f surfaces =
      surfaces.map fun s => if s.id = id then f s else s := by
  induction surfaces with
  | nil => rfl
  | cons head rest ih =>
      obtain ⟨fresh, distinct⟩ := List.nodup_cons.mp distinct
      rw [updateFirst, List.map_cons]
      by_cases here : head.id = id
      · have others : ∀ s ∈ rest, (if s.id = id then f s else s) = s := by
          intro s member
          refine if_neg fun same => fresh ?_
          rw [here, ← same]
          exact List.mem_map_of_mem member
        rw [if_pos (decide_eq_true here), if_pos here, List.map_congr_left others, List.map_id']
      · rw [if_neg (by simpa using here), if_neg here, ih distinct]

private theorem map_id_remove {strip : Strip F} (distinct : (strip.surfaces.map Surface.id).Nodup)
    (id : SurfaceId) :
    (strip.remove id).2.surfaces.map Surface.id =
      (strip.surfaces.map Surface.id).filter (· ≠ id) := by
  unfold remove
  cases found : strip.surfaces.find? fun s => s.id = id with
  | none =>
      have absent : ∀ other ∈ strip.surfaces.map Surface.id, decide (other ≠ id) = true := by
        intro other member
        obtain ⟨s, inside, rfl⟩ := List.mem_map.mp member
        simpa using List.find?_eq_none.mp found s inside
      exact (List.filter_eq_self.mpr absent).symm
  | some removed =>
      have erased : (strip.surfaces.eraseP fun s => s.id = id).map Surface.id =
          (strip.surfaces.map Surface.id).erase id := by
        rw [List.erase_eq_eraseP', List.eraseP_map]
        rfl
      rw [clampScroll_surfaces, map_renumber fun _ _ => rfl, erased, distinct.erase_eq_filter]
      exact List.filter_congr fun other _ => Bool.eq_iff_iff.mpr (by simp)

/-- Where no two surfaces share an id, every operation by id is well defined. -/
theorem keyed_iff {strip : Strip F} :
    strip.Keyed ↔ (strip.surfaces.map Surface.id).Nodup := by
  refine ⟨Keyed.distinct, fun distinct => ?_⟩
  have alone : ∀ before s after, strip.surfaces = before ++ s :: after →
      s.id ∉ before.map Surface.id ∧ s.id ∉ after.map Surface.id := by
    intro before s after split
    rw [split, List.map_append, List.map_cons, List.nodup_append] at distinct
    obtain ⟨_, later, apart⟩ := distinct
    refine ⟨fun member => ?_, (List.nodup_cons.mp later).1⟩
    exact apart s.id member s.id List.mem_cons_self rfl
  have others : ∀ {id : SurfaceId} {surfaces : List (Surface F)}, id ∉ surfaces.map Surface.id →
      ∀ s ∈ surfaces, ¬ decide (s.id = id) = true := by
    intro id surfaces absent s member same
    exact absent (List.mem_map.mpr ⟨s, member, of_decide_eq_true same⟩)
  constructor
  · exact distinct
  · intro id present
    obtain ⟨s, member, rfl⟩ := List.mem_map.mp (hasSurface_iff.mp present)
    obtain ⟨before, after, split⟩ := List.append_of_mem member
    obtain ⟨left, right⟩ := alone before s after split
    refine ⟨s, ?_⟩
    rw [split, List.filter_append, List.filter_eq_nil_iff.mpr (others left),
      List.filter_cons_of_pos (by simp), List.filter_eq_nil_iff.mpr (others right),
      List.nil_append]
  · intro s member
    obtain ⟨before, after, split⟩ := List.append_of_mem member
    have left := List.find?_eq_none.mpr (others (alone before s after split).1)
    unfold Strip.get
    rw [split, List.find?_append, left, List.find?_cons_of_pos (by simp), Option.none_or]
  · intro before s after split
    unfold surfaceLeft
    rw [split, leftOf_append 0 (alone before s after split).1]
  · intro id pts
    exact updateFirst_eq_map distinct
  · exact map_id_remove distinct

end Strip

/-! ## Announced ids -/

variable {W E : Type}

section

variable (postcard : Postcard (StructureMessage W) E) (debug : StructureMessage W → Str)

/-- The id that the host of the `n`-th dial announces, if it announces one. -/
def announcedId (endpoint : Endpoint) (n : Nat) (addr : SocketAddr) : Option SurfaceId :=
  match endpoint n addr with
  | .opened stream =>
      match readAnnounce postcard debug stream.recv with
      | .ok (announce, _) => some announce.id
      | .error _ => none
  | _ => none

def announcedIds (endpoint : Endpoint) : Nat → List SocketAddr → List SurfaceId
  | _, [] => []
  | n, addr :: addrs =>
      (announcedId postcard debug endpoint n addr).toList ++ announcedIds endpoint (n + 1) addrs

end

variable [RustFloat F] {postcard : Postcard (StructureMessage W) E}
  {debug : StructureMessage W → Str} {hosts : Hosts}

private theorem announcedId_of_connect {endpoint : Endpoint} {n : Nat} {addr : SocketAddr}
    {resumeSessionId : Option Str} {link : Link}
    (connected : connect postcard debug endpoint n addr resumeSessionId = .ok link) :
    announcedId postcard debug endpoint n addr = some link.announce.id := by
  obtain ⟨stream, dialled, connected⟩ := bind_eq_ok connected
  obtain ⟨⟨announce, buf, recv⟩, announced, connected⟩ := bind_eq_ok connected
  obtain ⟨_, _, connected⟩ := bind_eq_ok connected
  cases connected
  unfold announcedId
  rw [dial_eq_ok.mp dialled]
  simp only [announced]

theorem ids_connectLive {addrs : List SocketAddr} {strip : Strip F} {after : List Link × Strip F}
    (connected : connectLive postcard debug hosts addrs strip = .ok after) :
    after.2.surfaces.map Surface.id =
      strip.surfaces.map Surface.id ++ announcedIds postcard debug hosts.endpoint 0 addrs := by
  have all : ∀ (addrs : List SocketAddr) (state : List Link × Strip F),
      addrs.foldlM (connectHost postcard debug hosts) state = .ok after →
        after.2.surfaces.map Surface.id = state.2.surfaces.map Surface.id ++
          announcedIds postcard debug hosts.endpoint state.1.length addrs := by
    intro addrs
    induction addrs with
    | nil =>
        intro state run
        cases run
        rw [announcedIds, List.append_nil]
    | cons addr addrs ih =>
        intro state run
        obtain ⟨middle, first, run⟩ := bind_eq_ok run
        obtain ⟨link, dialled, rfl⟩ := connectHost_eq_ok first
        have placed : ((state.2.pump (hosts.arrivals state.1.length)).live
            (.hostAnnounced link.announce addr)).surfaces.map Surface.id =
              state.2.surfaces.map Surface.id ++ [link.announce.id] := by
          rw [Strip.live, Strip.append_surfaces, List.map_append,
            Strip.map_pump fun _ _ => rfl]
          rfl
        rw [ih _ run, placed, List.length_append, List.length_singleton, announcedIds,
          announcedId_of_connect dialled, Option.toList_some, List.append_assoc]
  exact all addrs ([], strip) connected

private theorem ids_reconnected {sessionId : Str} {n : Nat} {entries : List SurfaceEntry}
    {links : List Link} (reconnected : Reconnected postcard debug hosts sessionId n entries links) :
    announcedIds postcard debug hosts.endpoint n
        (entries.filterMap fun entry => SocketAddr.parse entry.host.address) =
      links.map fun link => link.announce.id := by
  induction reconnected with
  | nil => rfl
  | cons first _ ih =>
      obtain ⟨addr, parsed, connected⟩ := first
      rw [List.filterMap_cons, parsed, announcedIds, announcedId_of_connect connected, ih]
      rfl

theorem ids_resumedStrip (image : SessionImage F) (viewportWidth viewportHeight : F)
    {links : List Link} (size : links.length = image.surfaces.length)
    (arrivals : Nat → List FrameEvent) :
    ((resumedStrip arrivals image (.new viewportWidth viewportHeight) links).surfaces.map
      Surface.id).Perm (links.map fun link => link.announce.id) := by
  have bound : (image.surfaces.zip links).map
      (Surface.id ∘ restored (.new viewportWidth viewportHeight)) =
        links.map fun link => link.announce.id := by
    have second := congrArg (List.map fun link : Link => link.announce.id)
      (List.map_snd_zip size.le : (image.surfaces.zip links).map Prod.snd = links)
    rw [List.map_map] at second
    exact second
  rw [map_resumedStrip fun _ => rfl, ← bound]
  exact (List.perm_insertionSort _ _).map _

variable (postcard debug hosts) in
/-- The surfaces of a session have distinct ids exactly where the hosts that it
dials announce distinct ids. -/
theorem keyed_iff_announced_distinct (viewportWidth viewportHeight : F) :
    (∀ (addrs : List SocketAddr) (links : List Link) (strip : Strip F),
        connectLive postcard debug hosts addrs (.new viewportWidth viewportHeight) =
            .ok (links, strip) →
          (strip.Keyed ↔ (announcedIds postcard debug hosts.endpoint 0 addrs).Nodup)) ∧
      ∀ (sha256 : Sha256) (fetchImage : Str → Except (AnyhowError E) (SessionImage F)) (url : Str)
        (image : SessionImage F) (links : List Link) (strip : Strip F),
        fetchImage url = .ok image →
        resume sha256 postcard debug hosts fetchImage url (.new viewportWidth viewportHeight) =
            .ok (links, strip) →
          (strip.Keyed ↔ (announcedIds postcard debug hosts.endpoint 0
            (image.surfaces.filterMap fun entry =>
              SocketAddr.parse entry.host.address)).Nodup) := by
  constructor
  · intro addrs links strip connected
    rw [Strip.keyed_iff, ids_connectLive connected]
    rfl
  · intro sha256 fetchImage url image links strip fetched resumed
    obtain ⟨reconnected, rfl⟩ := (resume_eq_ok fetched).mp resumed
    rw [Strip.keyed_iff, ids_reconnected reconnected]
    exact (ids_resumedStrip image _ _ reconnected.length_eq _).nodup_iff

/-! ## A host dialled twice -/

private theorem announcedIds_sampleHosts (n : Nat) (addrs : List SocketAddr) :
    announcedIds (StructureMessage.postcard Library.Postcard.Format.f32) (fun _ => [])
        sampleHosts.endpoint n addrs =
      List.replicate addrs.length sampleAnnounce.id := by
  induction addrs generalizing n with
  | nil => rfl
  | cons addr addrs ih =>
      obtain ⟨link, connected, announced, _⟩ :=
        sampleHost_connects sampleHosts.endpoint
          (rfl : sampleHosts.endpoint n addr = sampleHost) none (by simp)
      rw [announcedIds, announcedId_of_connect connected, announced, ih, List.length_cons,
        List.replicate_succ]
      rfl

theorem sampleHosts_live (addrs : List SocketAddr) (state : List Link × Strip ℚ) :
    ∃ after, addrs.foldlM
      (connectHost (StructureMessage.postcard Library.Postcard.Format.f32) (fun _ => [])
        sampleHosts) state = .ok after := by
  induction addrs generalizing state with
  | nil => exact ⟨state, rfl⟩
  | cons addr addrs ih =>
      obtain ⟨link, connected, _⟩ := sampleHost_connects sampleHosts.endpoint
        (rfl : sampleHosts.endpoint state.1.length addr = sampleHost) none (by simp)
      have dialled : connectHost (StructureMessage.postcard Library.Postcard.Format.f32)
          (fun _ => []) sampleHosts state addr = .ok (state.1 ++ [link],
            (state.2.pump (sampleHosts.arrivals state.1.length)).live
              (.hostAnnounced link.announce addr)) := by
        simp only [connectHost, connected, withContext, bind, Except.bind]
        rfl
      rw [List.foldlM_cons, dialled]
      exact ih _

theorem sampleHost_keyed :
    (∃ links strip, connectLive (StructureMessage.postcard Library.Postcard.Format.f32)
          (fun _ => []) sampleHosts [.v4 ⟨127, 0, 0, 1⟩ 7001] (.new (1200 : ℚ) 800) =
            .ok (links, strip) ∧ strip.Keyed) ∧
      ∃ links strip, resume sha256Digest (StructureMessage.postcard Library.Postcard.Format.f32)
          (fun _ => []) sampleHosts (fun _ => .ok (sampleImage sampleAnnounce.id)) []
          (.new 1200 800) = .ok (links, strip) ∧ strip.Keyed := by
  have keyed := keyed_iff_announced_distinct (F := ℚ)
    (StructureMessage.postcard Library.Postcard.Format.f32) (fun _ => []) sampleHosts 1200 800
  constructor
  · obtain ⟨⟨links, strip⟩, connected⟩ :=
      sampleHosts_live [.v4 ⟨127, 0, 0, 1⟩ 7001] ([], .new 1200 800)
    refine ⟨links, strip, connected, (keyed.1 _ links strip connected).mpr ?_⟩
    rw [announcedIds_sampleHosts]
    exact List.nodup_singleton _
  · obtain ⟨links, strip, resumed, _⟩ := sampleImage_resumed sampleAnnounce.id
    refine ⟨links, strip, resumed, (keyed.2 _ _ _ _ links strip rfl resumed).mpr ?_⟩
    rw [announcedIds_sampleHosts, List.nodup_replicate]
    exact (List.length_filterMap_le _ _).trans le_rfl

/-- Both surfaces of a host that is dialled twice have its id. -/
theorem host_dialled_twice_not_keyed :
    ∃ links strip, connectLive (StructureMessage.postcard Library.Postcard.Format.f32)
        (fun _ => []) sampleHosts
        [.v4 ⟨127, 0, 0, 1⟩ 7001, .v4 ⟨127, 0, 0, 1⟩ 7001] (.new (1200 : ℚ) 800) =
          .ok (links, strip) ∧ ¬ strip.Keyed := by
  obtain ⟨⟨links, strip⟩, connected⟩ :=
    sampleHosts_live [.v4 ⟨127, 0, 0, 1⟩ 7001, .v4 ⟨127, 0, 0, 1⟩ 7001] ([], .new 1200 800)
  refine ⟨links, strip, connected, fun keyed => ?_⟩
  have distinct := keyed.distinct
  rw [ids_connectLive connected, announcedIds_sampleHosts] at distinct
  exact absurd distinct (by decide)

end Simulboot
