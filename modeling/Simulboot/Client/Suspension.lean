import Simulboot.Client.Checkpoint
import Simulboot.Client.Parking

/-!
# Suspending and fetching back

A live session is checkpointed, parked and fetched by its URL. The hash in the
URL is taken over the strip's own strings, the check over the ones read back.
-/

set_option autoImplicit false
set_option linter.unusedSectionVars false

namespace Simulboot

open Library Library.Xml Library.Http

/-! ## Orders -/

theorem pairwise_range_ofNat {n : Nat} :
    ((List.range n).map UInt32.ofNat).Pairwise (· ≤ ·) ↔ n ≤ 2 ^ 32 := by
  rw [List.pairwise_map]
  constructor
  · intro sorted
    by_contra large
    have wrapped := List.pairwise_iff_getElem.mp sorted (2 ^ 32 - 1) (2 ^ 32)
      (by simp; omega) (by simp; omega) (by omega)
    simp only [List.getElem_range] at wrapped
    exact absurd wrapped (by decide)
  · intro small
    have below : ∀ i ∈ List.range n, i < 2 ^ 32 := fun i member =>
      (List.mem_range.mp member).trans_le small
    refine List.pairwise_lt_range.imp_of_mem fun {i j} left right less => ?_
    rw [UInt32.le_iff_toNat_le, UInt32.toNat_ofNat_of_lt' (below i left),
      UInt32.toNat_ofNat_of_lt' (below j right)]
    exact less.le

private theorem unpadded_display (addr : SocketAddr) : Unpadded addr.display := by
  have solid : ∀ c, IsAddressChar c → isSpace c = false := by
    intro c inAddress
    by_contra space
    have blank : c ∈ " \t\r\n".toList := by
      simp only [isSpace, Bool.not_eq_false, Bool.or_eq_true, beq_iff_eq] at space
      rcases space with ((rfl | rfl) | rfl) | rfl <;> decide
    have outside : ∀ c ∈ " \t\r\n".toList, ¬ ((toDigit 16 c).isSome = true ∨ c ∈ ".:[]%".toList) := by
      decide
    exact outside c blank inAddress
  exact ⟨fun c head => solid c (addr.display_addressChar c (List.mem_of_head? head)),
    fun c last => solid c (addr.display_addressChar c (List.mem_of_getLast? last))⟩

/-! ## Parking -/

section

variable {F : Type} [Zero F] [RustFloat F] (E : Type)

/-- The broker serves the image under its id, and a client that fetches it by
its URL gets it back, id and content. -/
structure SurvivesParking (sha256 : Sha256) (xml : QuickXml) (img : SessionImage F) : Prop where
  routed : route "GET".toList (sessionPath (img.declaredId sha256)) (img.served sha256) = .ok
  resumed : ∀ (network : Network) (host : Str) (port : UInt16), '/' ∉ host →
    network.Reaches host port (img.served sha256) →
      httpGet (E := E) network host port (sessionPath (img.declaredId sha256)) =
          .ok (img.served sha256).body ∧
        ∃ back, fetchImage (E := E) sha256 xml network
            (sessionUrl host port (img.declaredId sha256)) = .ok back ∧
          SessionImage.fromXml xml (img.toXml sha256) = .ok back ∧
          back.id = img.id ∧ SameContent back img

variable {E} {sha256 : Sha256} {xml : QuickXml} (documented : Documented xml)
  (laws : RustFloat.Documented F)

include documented laws

private theorem survivesParking_iff_normal {img : SessionImage F} (named : img.SelfNamed sha256) :
    SurvivesParking E sha256 xml img ↔
      img.Trimmed ∧ img.Ordered ∧ RustFloat.isNaN img.layout.scrollPos = false := by
  constructor
  · intro survives
    obtain ⟨_, back, fetched, _, _, same⟩ := survives.resumed _ [] 80 (by simp)
      (Network.only_reaches [] 80 (img.served sha256))
    have number := (laws.isNaN_of_eq _ _ same.scrollPos).2
    obtain ⟨rfl, _⟩ := (fetchImage_parked documented laws named number (by simp)
      (Network.only_reaches _ _ _)).mp fetched
    obtain ⟨trimmed, ordered⟩ := (SessionImage.normalForm_sameContent_iff laws _ number).mp same
    exact ⟨trimmed, ordered, number⟩
  · rintro ⟨trimmed, ordered, number⟩
    refine ⟨route_served named, fun network host port noSlash reaches => ?_⟩
    have computed := SessionImage.computeId_normalForm laws sha256 img.id number trimmed ordered
    have read := fromXml_toXml documented laws sha256 img number
    have declared : some (img.id.getD (img.computeId sha256)) = img.id := by
      unfold SessionImage.SelfNamed at named
      rw [named, Option.getD_some]
    rw [declared] at read
    refine ⟨httpGet_parked named reaches, img.normalForm img.id, ?_, read, rfl,
      (SessionImage.normalForm_sameContent_iff laws _ number).mpr ⟨trimmed, ordered⟩⟩
    refine (fetchImage_parked documented laws named number noSlash reaches).mpr ⟨rfl, ?_⟩
    rw [computed]
    exact idMatches_computeId.mpr (.inl rfl)

end

/-! ## Suspension of a live strip -/

variable {F : Type} [Zero F] [One F] [OfNat F 3] [Add F] [Sub F] [Div F] [Max F]
variable [LT F] [LE F] [DecidableLT F] [DecidableLE F] [RustFloat F] {E : Type}
variable {sha256 : Sha256} {xml : QuickXml}

theorem imageFromStrip_selfNamed (strip : Strip F) (created : Str) :
    (imageFromStrip sha256 strip created).SelfNamed sha256 :=
  withComputedId_selfNamed _ _

theorem trimmed_imageFromStrip {strip : Strip F} {created : Str} :
    (imageFromStrip sha256 strip created).Trimmed ↔
      ∀ s ∈ strip.surfaces, Unpadded s.provenance.machineName ∧
        Unpadded s.provenance.captureDescription := by
  have recorded : (imageFromStrip sha256 strip created).surfaces =
      strip.surfaces.map surfaceEntry := rfl
  unfold SessionImage.Trimmed
  rw [recorded, List.forall_mem_map]
  refine forall₂_congr fun s _ => ?_
  rw [SurfaceEntry.trimmed_eq_self_iff]
  exact ⟨And.right, fun texts => ⟨unpadded_display s.hostAddr, texts⟩⟩

theorem Strip.Numbered.ordered_imageFromStrip {strip : Strip F} (numbered : strip.Numbered)
    (sha256 : Sha256) (created : Str) :
    (imageFromStrip sha256 strip created).Ordered ↔ strip.surfaces.length ≤ 2 ^ 32 := by
  have recorded : (imageFromStrip sha256 strip created).surfaces =
      strip.surfaces.map surfaceEntry := rfl
  have byOrder : (strip.surfaces.map surfaceEntry).Pairwise (fun a b => a.order ≤ b.order) ↔
      ((strip.surfaces.map surfaceEntry).map SurfaceEntry.order).Pairwise (· ≤ ·) :=
    List.pairwise_map.symm
  unfold SessionImage.Ordered
  rw [recorded, byOrder, order_surfaceEntry, numbered, pairwise_range_ofNat]

/-- A suspended session comes back exactly where no host padded its machine name
or capture description with space, orders did not wrap, and the strip was not
scrolled to NaN. -/
theorem suspension_survives_iff (documented : Documented xml) (laws : RustFloat.Documented F)
    {strip : Strip F} (reachable : strip.LiveReachable) (created : Str) :
    SurvivesParking E sha256 xml (imageFromStrip sha256 strip created) ↔
      (∀ s ∈ strip.surfaces, Unpadded s.provenance.machineName ∧
          Unpadded s.provenance.captureDescription) ∧
        strip.surfaces.length ≤ 2 ^ 32 ∧ RustFloat.isNaN strip.scrollPos = false := by
  rw [survivesParking_iff_normal documented laws (imageFromStrip_selfNamed strip created),
    trimmed_imageFromStrip, reachable.numbered.ordered_imageFromStrip]
  rfl

/-! ## A host that pads its name -/

def announceOf (machineName : Str) : SurfaceAnnounce :=
  { id := surfaceIdFromSeed sha256Digest (machineName ++ ":window:Editor".toList)
    name := "Editor".toList, width := 1920, height := 1080, codec := .av1
    provenance :=
      { os := .windows, machineName, tailscaleAddr := "100.0.0.1".toList
        captureDescription := "window:Editor".toList } }

def stripOf (machineName : Str) : Strip ℚ :=
  (Strip.new 1200 800).live
    (.hostAnnounced (announceOf machineName) (.v4 ⟨100, 0, 0, 1⟩ 7001))

private theorem stripOf_reachable (machineName : Str) : (stripOf machineName).LiveReachable :=
  ⟨1200, 800, [_], rfl⟩

theorem suspension_survives_for_plain_name :
    SurvivesParking Str sha256Digest Scanner.quickXml
      (imageFromStrip sha256Digest (stripOf "workshop".toList) "2026-06-28T19:44:09Z".toList) := by
  refine (suspension_survives_iff Scanner.documented ExactFloat.documented
    (stripOf_reachable _) _).mpr ⟨?_, by decide, rfl⟩
  have texts : trim "workshop".toList = "workshop".toList ∧
      trim "window:Editor".toList = "window:Editor".toList := by decide
  intro s member
  obtain rfl := List.mem_singleton.mp member
  exact ⟨trim_eq_self_iff.mp texts.1, trim_eq_self_iff.mp texts.2⟩

theorem padded_name_loses_session :
    (stripOf " workshop".toList).LiveReachable ∧
      ¬ SurvivesParking Str sha256Digest Scanner.quickXml
        (imageFromStrip sha256Digest (stripOf " workshop".toList)
          "2026-06-28T19:44:09Z".toList) := by
  refine ⟨stripOf_reachable _, fun survives => ?_⟩
  obtain ⟨trimmed, _⟩ := (survivesParking_iff_normal Scanner.documented ExactFloat.documented
    (imageFromStrip_selfNamed _ _)).mp survives
  have unpadded := (trimmed_imageFromStrip.mp trimmed _ (List.mem_singleton_self _)).1
  have changed : trim " workshop".toList ≠ " workshop".toList := by decide
  exact changed (trim_eq_self_iff.mpr unpadded)

end Simulboot
