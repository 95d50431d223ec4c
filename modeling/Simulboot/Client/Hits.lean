import Simulboot.Client.Geometry
import Simulboot.Library.Tiling

/-!
# Hits and what is visible

Hit-testing, the visible surfaces, the left edges and the content width each add up
the widths anew. With exact arithmetic they all speak of one tiling of the strip.
-/

set_option autoImplicit false
set_option linter.unusedSectionVars false

namespace Simulboot

open Library

variable {F : Type} [Field F] [LinearOrder F] [IsStrictOrderedRing F]

namespace Strip

/-! ## The four loops -/

/-- The surfaces with their left edges. -/
def laidOut (strip : Strip F) : List (Surface F × F) :=
  tiles Surface.width 0 strip.surfaces

private theorem findAt_eq (stripX x : F) (surfaces : List (Surface F)) :
    findAt stripX x surfaces =
      (tiles Surface.width x surfaces).find? fun tile => Covers Surface.width stripX tile := by
  induction surfaces generalizing x with
  | nil => rfl
  | cons s rest ih =>
      unfold findAt tiles
      by_cases here : x ≤ stripX ∧ stripX < x + s.width
      · have covered : decide (Covers Surface.width stripX (s, x)) = true := decide_eq_true here
        rw [if_pos here, List.find?_cons, covered]
      · have missed : decide (Covers Surface.width stripX (s, x)) = false := decide_eq_false here
        rw [if_neg here, List.find?_cons, missed, ih]

private theorem leftOf_eq (id : SurfaceId) (x : F) (surfaces : List (Surface F)) :
    leftOf id x surfaces =
      ((tiles Surface.width x surfaces).find? fun tile => tile.1.id = id).map Prod.snd := by
  induction surfaces generalizing x with
  | nil => rfl
  | cons s rest ih =>
      unfold leftOf tiles
      by_cases here : s.id = id
      · rw [if_pos here, List.find?_cons, decide_eq_true here]
        rfl
      · rw [if_neg here, List.find?_cons, decide_eq_false here, ih]

private theorem visibleFrom_eq (viewL viewR x : F) (surfaces : List (Surface F)) :
    visibleFrom viewL viewR x surfaces =
      ((tiles Surface.width x surfaces).filter fun tile =>
        viewL < tile.2 + tile.1.width && tile.2 < viewR).map Prod.fst := by
  induction surfaces generalizing x with
  | nil => rfl
  | cons s rest ih =>
      unfold visibleFrom tiles
      by_cases here : viewL < x + s.width ∧ x < viewR
      · rw [if_pos here, List.filter_cons_of_pos (by simpa using here), List.map_cons, ih]
      · rw [if_neg here, List.filter_cons_of_neg (by simpa using here), ih]

/-! ## One tiling -/

/-- Distinct surfaces of a width and a height, under a viewport of some size that is
scrolled within the content. -/
structure Shown (strip : Strip F) : Prop where
  width : 0 < strip.viewportWidth
  height : 0 < strip.viewportHeight
  distinct : (strip.surfaces.map Surface.id).Nodup
  widths : ∀ s ∈ strip.surfaces, 0 < s.width
  heights : ∀ s ∈ strip.surfaces, 0 < s.height
  scrolled : strip.Scrolled

/-- The points of the viewport. -/
def InView (strip : Strip F) (vx vy : F) : Prop :=
  (0 ≤ vx ∧ vx < strip.viewportWidth) ∧ 0 ≤ vy ∧ vy ≤ strip.viewportHeight

/-- A strip coordinate lies within a surface. -/
def Within (strip : Strip F) (x : F) (s : Surface F) : Prop :=
  ∃ left, strip.surfaceLeft s.id = some left ∧ left ≤ x ∧ x < left + s.width

/-- A hit names a surface and the point in the surface's own space. -/
def HitOn (strip : Strip F) (x : F) (hit : Hit F) (s : Surface F) : Prop :=
  s.id = hit.id ∧ ∃ left, strip.surfaceLeft s.id = some left ∧
    left ≤ x ∧ x < left + s.width ∧ left + hit.nx * s.width = x ∧
    (0 ≤ hit.nx ∧ hit.nx < 1) ∧ 0 ≤ hit.ny ∧ hit.ny ≤ 1

private theorem mem_laidOut_iff {strip : Strip F} (distinct : (strip.surfaces.map Surface.id).Nodup)
    {s : Surface F} {left : F} (member : s ∈ strip.surfaces) :
    (s, left) ∈ strip.laidOut ↔ strip.surfaceLeft s.id = some left := by
  have items : strip.laidOut.map Prod.fst = strip.surfaces := map_fst_tiles _ 0 strip.surfaces
  have once : (strip.laidOut.map fun tile => tile.1.id).Nodup := by
    have split : (strip.laidOut.map fun tile => tile.1.id) =
        (strip.laidOut.map Prod.fst).map Surface.id := by
      rw [List.map_map]
      rfl
    rwa [split, items]
  unfold surfaceLeft
  rw [leftOf_eq]
  change _ ↔ (strip.laidOut.find? fun tile => tile.1.id = s.id).map Prod.snd = some left
  constructor
  · intro listed
    have present : (strip.laidOut.find? fun tile => tile.1.id = s.id).isSome = true := by
      rw [List.find?_isSome]
      exact ⟨(s, left), listed, decide_eq_true rfl⟩
    obtain ⟨first, found⟩ := Option.isSome_iff_exists.mp present
    have named : first.1.id = s.id := by simpa using List.find?_some found
    have same : first = (s, left) :=
      List.inj_on_of_nodup_map once (List.mem_of_find?_eq_some found) listed named
    rw [found, same]
    rfl
  · intro found
    obtain ⟨first, here, rfl⟩ := Option.map_eq_some_iff.mp found
    have named : first.1.id = s.id := by simpa using List.find?_some here
    have listed := List.mem_of_find?_eq_some here
    have same : first.1 = s :=
      List.inj_on_of_nodup_map distinct (mem_of_mem_tiles listed) member named
    rw [← same]
    exact listed

theorem hitTest_eq {strip : Strip F} {vx vy : F} (inView : strip.InView vx vy) :
    strip.hitTest vx vy =
      (strip.laidOut.find? fun tile => Covers Surface.width (vx + strip.scrollPos) tile).map
        fun tile =>
          { id := tile.1.id
            nx := (vx + strip.scrollPos - tile.2) / tile.1.width
            ny := clamp (vy / tile.1.height) 0 1 } := by
  have band : ¬ (vy < 0 ∨ strip.viewportHeight < vy) := by
    rw [not_or, not_lt, not_lt]
    exact inView.2
  unfold hitTest
  rw [if_neg band]
  simp only [findAt_eq]
  rfl

theorem mem_visible_iff {strip : Strip F} {s : Surface F} :
    s ∈ strip.visible ↔ ∃ left, (s, left) ∈ strip.laidOut ∧
      strip.scrollPos < left + s.width ∧ left < strip.scrollPos + strip.viewportWidth := by
  unfold visible
  rw [visibleFrom_eq]
  simp only [List.mem_map, List.mem_filter, Bool.and_eq_true, decide_eq_true_eq]
  constructor
  · rintro ⟨⟨_, left⟩, ⟨listed, meets⟩, rfl⟩
    exact ⟨left, listed, meets⟩
  · rintro ⟨left, listed, meets⟩
    exact ⟨(s, left), ⟨listed, meets⟩, rfl⟩

namespace Shown

variable {strip : Strip F} (shown : strip.Shown)

include shown

private theorem wide : ∀ s ∈ strip.surfaces, 0 ≤ s.width := fun s member => (shown.widths s member).le

private theorem within_iff {x : F} {s : Surface F} (member : s ∈ strip.surfaces) :
    strip.Within x s ↔ ∃ left, (s, left) ∈ strip.laidOut ∧ Covers Surface.width x (s, left) := by
  unfold Within
  refine exists_congr fun left => ?_
  rw [mem_laidOut_iff shown.distinct member]
  rfl

private theorem coordinate {vx vy : F} (inView : strip.InView vx vy) :
    0 ≤ vx + strip.scrollPos ∧ strip.scrollPos ≤ vx + strip.scrollPos ∧
      vx + strip.scrollPos < strip.scrollPos + strip.viewportWidth := by
  obtain ⟨⟨left, right⟩, _⟩ := inView
  refine ⟨add_nonneg left shown.scrolled.1, le_add_of_nonneg_left left, ?_⟩
  rw [add_comm]
  exact add_lt_add_right right strip.scrollPos

theorem hitTest_isSome_iff {vx vy : F} (inView : strip.InView vx vy) :
    (strip.hitTest vx vy).isSome = true ↔ vx + strip.scrollPos < strip.contentWidth := by
  rw [hitTest_eq inView, Option.isSome_map, List.find?_isSome, contentWidth_eq_sum]
  simp only [decide_eq_true_eq]
  unfold laidOut
  rw [exists_covers_iff shown.wide, zero_add, and_iff_right (shown.coordinate inView).1]

private theorem hitOn_of_hitTest {vx vy : F} (inView : strip.InView vx vy) {hit : Hit F}
    (found : strip.hitTest vx vy = some hit) :
    ∃ s ∈ strip.surfaces, strip.HitOn (vx + strip.scrollPos) hit s := by
  rw [hitTest_eq inView] at found
  obtain ⟨⟨s, left⟩, here, rfl⟩ := Option.map_eq_some_iff.mp found
  have listed := List.mem_of_find?_eq_some here
  have member : s ∈ strip.surfaces := mem_of_mem_tiles listed
  obtain ⟨after, before⟩ : Covers Surface.width (vx + strip.scrollPos) (s, left) := by
    simpa using List.find?_some here
  have width := shown.widths s member
  have unit := clamp_mem (v := vy / s.height) (zero_le_one (α := F))
  refine ⟨s, member, rfl, left, (mem_laidOut_iff shown.distinct member).mp listed, after, before,
    ?_, ⟨?_, ?_⟩, unit⟩
  · rw [div_mul_cancel₀ _ width.ne', add_sub_cancel]
  · exact div_nonneg (sub_nonneg.mpr after) width.le
  · rw [div_lt_one width, sub_lt_iff_lt_add']
    exact before

private theorem hitTest_of_within {vx vy : F} (inView : strip.InView vx vy) {s : Surface F}
    (member : s ∈ strip.surfaces) (within : strip.Within (vx + strip.scrollPos) s) :
    ∃ hit, strip.hitTest vx vy = some hit ∧ hit.id = s.id := by
  obtain ⟨left, listed, covers⟩ := (shown.within_iff member).mp within
  have present : (strip.laidOut.find? fun tile =>
      Covers Surface.width (vx + strip.scrollPos) tile).isSome = true := by
    rw [List.find?_isSome]
    exact ⟨(s, left), listed, decide_eq_true covers⟩
  obtain ⟨tile, here⟩ := Option.isSome_iff_exists.mp present
  have same : tile = (s, left) :=
    covers_unique shown.wide (List.mem_of_find?_eq_some here) listed
      (by simpa using List.find?_some here) covers
  rw [hitTest_eq inView, here, same]
  exact ⟨_, rfl, rfl⟩

theorem within_unique {x : F} {s other : Surface F} (member : s ∈ strip.surfaces)
    (otherMember : other ∈ strip.surfaces) (within : strip.Within x s)
    (otherWithin : strip.Within x other) : other = s := by
  obtain ⟨left, listed, covers⟩ := (shown.within_iff member).mp within
  obtain ⟨otherLeft, otherListed, otherCovers⟩ := (shown.within_iff otherMember).mp otherWithin
  exact congrArg Prod.fst (covers_unique shown.wide otherListed listed otherCovers covers)

/-- A surface is visible where the viewport shows a point of it. -/
theorem visible_iff_within {s : Surface F} (member : s ∈ strip.surfaces) :
    s ∈ strip.visible ↔ ∃ x, strip.scrollPos ≤ x ∧
      x < strip.scrollPos + strip.viewportWidth ∧ strip.Within x s := by
  have window : strip.scrollPos < strip.scrollPos + strip.viewportWidth :=
    lt_add_of_pos_right _ shown.width
  rw [mem_visible_iff]
  constructor
  · intro ⟨left, listed, meets⟩
    obtain ⟨x, after, before, covers⟩ :=
      (meets_iff_exists_covers window (s, left) (shown.widths s member)).mp meets
    exact ⟨x, after, before, (shown.within_iff member).mpr ⟨left, listed, covers⟩⟩
  · intro ⟨x, after, before, within⟩
    obtain ⟨left, listed, covers⟩ := (shown.within_iff member).mp within
    exact ⟨left, listed, (meets_iff_exists_covers window (s, left)
      (shown.widths s member)).mpr ⟨x, after, before, covers⟩⟩

theorem visible_infix : strip.visible <:+: strip.surfaces := by
  have run := meets_infix strip.scrollPos (strip.scrollPos + strip.viewportWidth) 0 shown.wide
  have items := run.map Prod.fst
  rw [map_fst_tiles] at items
  unfold visible
  rwa [visibleFrom_eq]

end Shown

/-- Hit-testing finds a surface exactly within the content: the one surface there,
which is visible, and the point in its own space. The surfaces that some point of
the viewport hits are the visible ones, a run of the strip. -/
theorem hits_are_visible {strip : Strip F} (shown : strip.Shown) :
    (∀ vx vy, strip.InView vx vy →
      ((strip.hitTest vx vy).isSome = true ↔ vx + strip.scrollPos < strip.contentWidth) ∧
      ∀ hit, strip.hitTest vx vy = some hit →
        ∃ s ∈ strip.visible, strip.HitOn (vx + strip.scrollPos) hit s ∧
          ∀ other ∈ strip.surfaces, strip.Within (vx + strip.scrollPos) other → other = s) ∧
      (∀ s ∈ strip.surfaces, s ∈ strip.visible ↔
        ∃ vx vy, strip.InView vx vy ∧ ∃ hit, strip.hitTest vx vy = some hit ∧ hit.id = s.id) ∧
      strip.visible <:+: strip.surfaces := by
  refine ⟨fun vx vy inView => ⟨shown.hitTest_isSome_iff inView, fun hit found => ?_⟩,
    fun s member => ⟨fun seen => ?_, ?_⟩, shown.visible_infix⟩
  · obtain ⟨s, member, hitOn⟩ := shown.hitOn_of_hitTest inView found
    obtain ⟨_, left, placed, after, before, _⟩ := id hitOn
    have within : strip.Within (vx + strip.scrollPos) s := ⟨left, placed, after, before⟩
    obtain ⟨_, low, high⟩ := shown.coordinate inView
    refine ⟨s, (shown.visible_iff_within member).mpr ⟨_, low, high, within⟩, hitOn,
      fun other otherMember otherWithin => ?_⟩
    exact shown.within_unique member otherMember within otherWithin
  · obtain ⟨x, low, high, within⟩ := (shown.visible_iff_within member).mp seen
    have inView : strip.InView (x - strip.scrollPos) 0 :=
      ⟨⟨sub_nonneg.mpr low, sub_lt_iff_lt_add'.mpr high⟩, le_rfl, shown.height.le⟩
    have here : strip.Within (x - strip.scrollPos + strip.scrollPos) s := by
      rwa [sub_add_cancel]
    exact ⟨_, _, inView, shown.hitTest_of_within inView member here⟩
  · intro ⟨vx, vy, inView, hit, found, named⟩
    obtain ⟨hitSurface, hitMember, same, left, placed, after, before, _⟩ :=
      shown.hitOn_of_hitTest inView found
    have equal : hitSurface = s :=
      List.inj_on_of_nodup_map shown.distinct hitMember member (same.trans named)
    obtain ⟨_, low, high⟩ := shown.coordinate inView
    subst equal
    exact (shown.visible_iff_within member).mpr ⟨_, low, high, left, placed, after, before⟩

/-- Two surfaces wider than the viewport, scrolled into the first one. -/
def scrolledStrip : Strip ℚ :=
  { new 1200 800 with
    surfaces := [sampleSurface 0 1000, { sampleSurface 1 700 with id := numberedId 8 }]
    scrollPos := 300 }

theorem scrolledStrip_hits :
    ((scrolledStrip.hitTest 999 400).isSome = true ↔
        (999 : ℚ) + 300 < scrolledStrip.contentWidth) ∧
      scrolledStrip.visible <:+: scrolledStrip.surfaces := by
  have content : scrolledStrip.contentWidth = 1700 := by
    rw [contentWidth_eq_sum]
    norm_num [scrolledStrip, sampleSurface]
  have scrolled : scrolledStrip.Scrolled := by
    refine ⟨by norm_num [scrolledStrip], ?_⟩
    unfold maxScroll
    rw [content]
    norm_num [scrolledStrip, new]
  have shown : scrolledStrip.Shown :=
    { width := by norm_num [scrolledStrip, new]
      height := by norm_num [scrolledStrip, new]
      distinct := by decide
      widths := by simp [scrolledStrip, sampleSurface]
      heights := by norm_num [scrolledStrip, sampleSurface, surfaceFromAnnounce, new]
      scrolled }
  obtain ⟨hits, _, run⟩ := hits_are_visible shown
  have inView : scrolledStrip.InView 999 400 := by
    norm_num [InView, scrolledStrip, new]
  exact ⟨(hits 999 400 inView).1, run⟩

end Strip

end Simulboot
