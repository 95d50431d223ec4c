import Simulboot.Session.Canonical
import Simulboot.Session.RoundTrip

/-!
# Images in normal form

Exactly which images come back from their text with their content unchanged.
-/

set_option autoImplicit false

namespace Simulboot

open Library Library.Xml

theorem SurfaceEntry.trimmed_eq_self_iff {surf : SurfaceEntry} :
    surf.trimmed = surf ↔
      Unpadded surf.host.address ∧ Unpadded surf.host.machine ∧ Unpadded surf.host.capture := by
  rw [← trim_eq_self_iff, ← trim_eq_self_iff, ← trim_eq_self_iff]
  cases surf with
  | mk id name order host codec width height => cases host; simp [SurfaceEntry.trimmed]

private theorem SurfaceEntry.trimmed_trimmed (surf : SurfaceEntry) :
    surf.trimmed.trimmed = surf.trimmed := by
  simp only [SurfaceEntry.trimmed, trim, trimMatches_idem]

namespace SessionImage

variable {F : Type} [Zero F] [RustFloat F]

def Ordered (img : SessionImage F) : Prop :=
  img.surfaces.Pairwise fun a b => a.order ≤ b.order

/-- No surface loses character data to the reader. -/
def Trimmed (img : SessionImage F) : Prop :=
  ∀ surf ∈ img.surfaces, surf.trimmed = surf

theorem normalForm_surfaces_eq_iff {img : SessionImage F} (id : Option Str) :
    (img.normalForm id).surfaces = img.surfaces ↔ img.Trimmed ∧ img.Ordered := by
  have sorted : (img.normalForm id).Ordered := List.pairwise_insertionSort _ _
  constructor
  · intro same
    refine ⟨fun surf member => ?_, ?_⟩
    · rw [← same, normalForm, List.mem_insertionSort] at member
      obtain ⟨source, _, rfl⟩ := List.mem_map.mp member
      exact source.trimmed_trimmed
    · unfold Ordered
      rw [← same]
      exact sorted
  · rintro ⟨trimmed, ordered⟩
    have unchanged : img.surfaces.map SurfaceEntry.trimmed = img.surfaces := by
      rw [List.map_congr_left trimmed]
      exact List.map_id' _
    rw [normalForm, unchanged]
    exact List.Pairwise.insertionSort_eq ordered

variable (laws : RustFloat.Documented F)

include laws

/-- The content survives exactly for trimmed surfaces in order. -/
theorem normalForm_sameContent_iff {img : SessionImage F} (id : Option Str)
    (number : RustFloat.isNaN img.layout.scrollPos = false) :
    SameContent (img.normalForm id) img ↔ img.Trimmed ∧ img.Ordered := by
  rw [← normalForm_surfaces_eq_iff id]
  exact ⟨SameContent.surfaces, fun same =>
    ⟨rfl, rfl, same, laws.dropZeroSign_eq number, rfl⟩⟩

/-- Such an image also keeps its id. -/
theorem computeId_normalForm (sha256 : Sha256) {img : SessionImage F} (id : Option Str)
    (number : RustFloat.isNaN img.layout.scrollPos = false) (trimmed : img.Trimmed)
    (ordered : img.Ordered) :
    (img.normalForm id).computeId sha256 = img.computeId sha256 := by
  have kept : RustFloat.isNaN (img.normalForm id).layout.scrollPos = false := by
    rw [normalForm, laws.isNaN_dropZeroSign, number]
  have bytes := (canonicalBytes_eq_iff_sameContent laws kept).mpr
    ((normalForm_sameContent_iff laws _ number).mpr ⟨trimmed, ordered⟩)
  unfold computeId
  rw [bytes]

end SessionImage

def tidySession : SessionImage ℚ :=
  let id := surfaceIdFromSeed sha256Digest "mac:window:Safari".toList
  (SessionImage.new (F := ℚ) "2026-06-28T19:44:09Z".toList
    [{ id, name := "Safari <1>".toList, order := 0, codec := .h265, width := 1280, height := 800
       host :=
        { address := "100.0.0.1:7001".toList, os := .macOS, machine := "mac".toList
          capture := "window:Safari & co".toList } }]
    { scrollPos := 12, focus := some id }).withComputedId sha256Digest

theorem tidySession_trimmed : tidySession.Trimmed := by
  have texts : trim "100.0.0.1:7001".toList = "100.0.0.1:7001".toList ∧
      trim "mac".toList = "mac".toList ∧
      trim "window:Safari & co".toList = "window:Safari & co".toList := by decide
  intro surf member
  obtain rfl := List.mem_singleton.mp member
  unfold SurfaceEntry.trimmed
  simp only [texts]

end Simulboot
