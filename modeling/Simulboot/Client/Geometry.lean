import Mathlib.Algebra.Order.BigOperators.Group.List
import Mathlib.Algebra.Order.Field.Basic
import Simulboot.Client.Operations
import Simulboot.Library.ExactFloat

/-!
# Geometry of a strip

With exact arithmetic in place of floats: over every run of operations the
scroll position stays within the content and the focus on a surface of the
strip. In a live run every surface also keeps its third of the viewport.
-/

set_option autoImplicit false
set_option linter.unusedSectionVars false

namespace Simulboot

open Library

variable {F : Type} [Field F] [LinearOrder F] [IsStrictOrderedRing F]

theorem clamp_mem {v low high : F} (range : low ≤ high) :
    low ≤ clamp v low high ∧ clamp v low high ≤ high := by
  unfold clamp
  by_cases below : v < low
  · rw [if_pos below, if_neg (not_lt.mpr range)]
    exact ⟨le_rfl, range⟩
  · rw [if_neg below]
    by_cases above : high < v
    · rw [if_pos above]
      exact ⟨range, le_rfl⟩
    · rw [if_neg above]
      exact ⟨not_lt.mp below, not_lt.mp above⟩

theorem clamp_eq_self {v low high : F} (above : low ≤ v) (below : v ≤ high) :
    clamp v low high = v := by
  unfold clamp
  rw [if_neg (not_lt.mpr above), if_neg (not_lt.mpr below)]

namespace Strip

theorem contentWidth_eq_sum (strip : Strip F) :
    strip.contentWidth = (strip.surfaces.map Surface.width).sum :=
  List.sum_eq_foldl.symm

theorem contentWidth_of_uniform {strip : Strip F} {width : F}
    (uniform : ∀ w ∈ strip.surfaces.map Surface.width, w = width) :
    strip.contentWidth = strip.surfaces.length * width := by
  rw [contentWidth_eq_sum, List.sum_eq_card_nsmul _ width uniform, List.length_map, nsmul_eq_mul]

private theorem maxScroll_nonneg (strip : Strip F) : 0 ≤ strip.maxScroll :=
  le_max_right _ _

/-- The scroll position lies within the content. -/
def Scrolled (strip : Strip F) : Prop :=
  0 ≤ strip.scrollPos ∧ strip.scrollPos ≤ strip.maxScroll

private theorem clampScroll_scrolled (strip : Strip F) : strip.clampScroll.Scrolled :=
  clamp_mem strip.maxScroll_nonneg

private theorem findAt_mem {stripX x : F} {surfaces : List (Surface F)} {found : Surface F × F}
    (hit : findAt stripX x surfaces = some found) : found.1 ∈ surfaces := by
  induction surfaces generalizing x with
  | nil => cases hit
  | cons s rest ih =>
      simp only [findAt] at hit
      split at hit
      · cases hit
        exact List.mem_cons_self
      · exact List.mem_cons_of_mem _ (ih hit)

private theorem hitTest_mem {strip : Strip F} {vx vy : F} {hit : Hit F}
    (found : strip.hitTest vx vy = some hit) : hit.id ∈ strip.surfaces.map Surface.id := by
  unfold hitTest at found
  split at found
  · cases found
  · obtain ⟨place, at_, rfl⟩ := Option.map_eq_some_iff.mp found
    exact List.mem_map.mpr ⟨place.1, findAt_mem at_, rfl⟩

/-! ## Safety of every call -/

def Focused (strip : Strip F) : Prop :=
  ∀ id ∈ strip.focus, id ∈ strip.surfaces.map Surface.id

private theorem focused_remove {strip : Strip F} (focused : strip.Focused) (id : SurfaceId) :
    (strip.remove id).2.Focused := by
  unfold remove
  split
  · exact focused
  · intro other after
    rw [clampScroll_surfaces, map_renumber fun _ _ => rfl]
    rw [clampScroll_focus] at after
    simp only at after
    split at after
    · cases after
    · rename_i elsewhere
      obtain ⟨s, member, rfl⟩ := List.mem_map.mp (focused other after)
      have spared : ¬ decide (s.id = id) = true := by
        rw [decide_eq_true_eq]
        rintro rfl
        exact elsewhere after
      exact List.mem_map_of_mem
        ((List.mem_eraseP_of_neg (p := fun s : Surface F => decide (s.id = id)) spared).mpr member)

private theorem focused_apply {strip : Strip F} (focused : strip.Focused) (op : Operation F) :
    (strip.apply op).Focused := by
  cases op with
  | append surface =>
      intro id after
      rw [apply_append, List.map_append]
      exact List.mem_append_left _ (focused id after)
  | insertOrdered surface =>
      intro id after
      have placed : strip.placedBy (.insertOrdered surface) = some surface := rfl
      rw [((apply_perm placed).map Surface.id).mem_iff, List.map_append]
      exact List.mem_append_left _ (focused id after)
  | remove id => exact focused_remove focused id
  | scrollBy dx => exact focused
  | setScroll pos => exact focused
  | setFocus id =>
      simp only [apply, setFocus]
      split
      · rename_i present
        intro other after
        cases after
        exact hasSurface_iff.mp present
      · exact focused
  | setFocusOpt id =>
      intro other after
      obtain ⟨_, present⟩ := Option.filter_eq_some_iff.mp after
      exact hasSurface_iff.mp present
  | click vx vy =>
      simp only [apply, click]
      split
      · exact focused
      · rename_i hit found
        intro other after
        cases after
        exact hitTest_mem found
  | noteFrame id pts =>
      intro other after
      have ids : (strip.apply (.noteFrame id pts)).surfaces.map Surface.id =
          strip.surfaces.map Surface.id :=
        map_updateFirst (f := Surface.frameNoted pts) (fun _ => rfl) _
      rw [ids]
      exact focused other after

private theorem Scrolled.of_contentWidth_le {strip after : Strip F} (scrolled : strip.Scrolled)
    (pos : after.scrollPos = strip.scrollPos) (viewport : after.viewportWidth = strip.viewportWidth)
    (grown : strip.contentWidth ≤ after.contentWidth) : after.Scrolled := by
  unfold Scrolled maxScroll at scrolled ⊢
  rw [pos, viewport]
  exact ⟨scrolled.1, scrolled.2.trans (max_le_max_right _ (sub_le_sub_right grown _))⟩

private theorem contentWidth_placed {strip : Strip F} {op : Operation F} {surface : Surface F}
    (placed : strip.placedBy op = some surface) :
    (strip.apply op).contentWidth = strip.contentWidth + surface.width := by
  have widths := ((apply_perm placed).map Surface.width).sum_eq
  rw [contentWidth_eq_sum, contentWidth_eq_sum, widths, List.map_append, List.sum_append,
    List.map_singleton, List.sum_singleton]

/-- Surfaces have a width, the scroll position lies within the content, and the
focus is on a surface. -/
structure Safe (strip : Strip F) : Prop where
  widths : ∀ s ∈ strip.surfaces, 0 < s.width
  scrolled : strip.Scrolled
  focused : strip.Focused

/-- The sizes a caller has to see to: `append` falls back to the viewport. -/
def WidthPositive : Operation F → Prop
  | .insertOrdered surface => 0 < surface.width
  | _ => True

def HeightPositive : Operation F → Prop
  | .insertOrdered surface => 0 < surface.height
  | _ => True

private theorem placed_width_pos {strip : Strip F} {op : Operation F} {surface : Surface F}
    (viewport : 0 < strip.viewportWidth) (positive : WidthPositive op)
    (placed : strip.placedBy op = some surface) : 0 < surface.width := by
  cases op with
  | append given =>
      cases placed
      simp only [appended]
      split
      · exact div_pos viewport (by norm_num)
      · rename_i wide
        exact not_le.mp wide
  | insertOrdered given =>
      cases placed
      exact positive
  | _ => cases placed

private theorem placed_height_pos {strip : Strip F} {op : Operation F} {surface : Surface F}
    (viewport : 0 < strip.viewportHeight) (positive : HeightPositive op)
    (placed : strip.placedBy op = some surface) : 0 < surface.height := by
  cases op with
  | append given =>
      cases placed
      simp only [appended]
      split
      · exact viewport
      · rename_i tall
        exact not_le.mp tall
  | insertOrdered given =>
      cases placed
      exact positive
  | _ => cases placed

/-- What holds of a fixed value of every surface, and of the one being placed,
holds of every surface behind the call. -/
theorem forall_apply {β : Type} {g : Surface F → β} (fixed : ∀ s : Surface F, g s.body = g s)
    {p : β → Prop} {strip : Strip F} {op : Operation F}
    (before : ∀ s ∈ strip.surfaces, p (g s))
    (added : ∀ surface, strip.placedBy op = some surface → p (g surface)) :
    ∀ s ∈ (strip.apply op).surfaces, p (g s) := by
  intro s member
  cases placed : strip.placedBy op with
  | some surface =>
      rcases List.mem_append.mp ((apply_perm placed).mem_iff.mp member) with old | new
      · exact before s old
      · obtain rfl := List.mem_singleton.mp new
        exact added s placed
  | none =>
      have kept := (map_apply_sublist fixed placed).subset (List.mem_map_of_mem member)
      obtain ⟨same, old, equal⟩ := List.mem_map.mp kept
      rw [← equal]
      exact before same old

theorem Safe.apply {strip : Strip F} (safe : strip.Safe) (viewport : 0 < strip.viewportWidth)
    {op : Operation F} (positive : WidthPositive op) : (strip.apply op).Safe := by
  have widths := forall_apply (g := Surface.width) (fun _ => rfl) (p := (0 < ·)) safe.widths
    fun surface placed => placed_width_pos viewport positive placed
  refine ⟨widths, ?_, focused_apply safe.focused op⟩
  cases op with
  | append surface =>
      have placed : strip.placedBy (.append surface) = some (strip.appended surface) := rfl
      refine safe.scrolled.of_contentWidth_le rfl rfl ?_
      rw [contentWidth_placed placed]
      exact le_add_of_nonneg_right (placed_width_pos viewport positive placed).le
  | insertOrdered surface =>
      have placed : strip.placedBy (.insertOrdered surface) = some surface := rfl
      refine safe.scrolled.of_contentWidth_le rfl rfl ?_
      rw [contentWidth_placed placed]
      exact le_add_of_nonneg_right (placed_width_pos viewport positive placed).le
  | remove id =>
      simp only [Strip.apply, remove]
      split
      · exact safe.scrolled
      · exact clampScroll_scrolled _
  | scrollBy dx => exact clampScroll_scrolled _
  | setScroll pos => exact clampScroll_scrolled _
  | setFocus id =>
      simp only [Strip.apply, setFocus]
      split <;> exact safe.scrolled
  | setFocusOpt id => exact safe.scrolled
  | click vx vy =>
      simp only [Strip.apply, click]
      split <;> exact safe.scrolled
  | noteFrame id pts =>
      have kept : (strip.apply (.noteFrame id pts)).surfaces.map Surface.width =
          strip.surfaces.map Surface.width :=
        map_updateFirst (f := Surface.frameNoted pts) (fun _ => rfl) _
      refine safe.scrolled.of_contentWidth_le rfl rfl (le_of_eq ?_)
      rw [contentWidth_eq_sum, contentWidth_eq_sum, kept]

theorem safe_new (viewportWidth viewportHeight : F) : (new viewportWidth viewportHeight).Safe :=
  ⟨by simp [new], ⟨le_rfl, maxScroll_nonneg _⟩, by simp [Focused, new]⟩

/-- Over every run of operations on an empty strip, as long as inserted surfaces
have a width: the focus is on a surface of the strip, the scroll position within
the content, and every size positive. No call changes the size of a surface that
it does not place. -/
theorem run_safe {viewportWidth viewportHeight : F} (width : 0 < viewportWidth)
    (height : 0 < viewportHeight) {ops : List (Operation F)}
    (positive : ∀ op ∈ ops, WidthPositive op) :
    let strip := (new viewportWidth viewportHeight).run ops
    (∀ id ∈ strip.focus, id ∈ strip.surfaces.map Surface.id) ∧
      (0 ≤ strip.scrollPos ∧ strip.scrollPos ≤ strip.maxScroll) ∧
      (∀ s ∈ strip.surfaces, 0 < s.width) ∧
      ((∀ op ∈ ops, HeightPositive op) → ∀ s ∈ strip.surfaces, 0 < s.height) ∧
      ∀ op : Operation F,
        (∀ surface, strip.placedBy op = some surface →
          ((strip.apply op).surfaces.map Surface.body).Perm
            (strip.surfaces.map Surface.body ++ [surface.body])) ∧
        (strip.placedBy op = none →
          ((strip.apply op).surfaces.map Surface.body).Sublist
            (strip.surfaces.map Surface.body)) := by
  intro strip
  have safe : strip.Safe := by
    have both := run_induction (fun strip => 0 < strip.viewportWidth ∧ strip.Safe)
      (fun _ op => WidthPositive op)
      (fun strip op ⟨viewport, safe⟩ met =>
        ⟨(strip.apply_viewport op).1 ▸ viewport, safe.apply viewport met⟩)
      ⟨width, safe_new viewportWidth viewportHeight⟩ (Throughout.of_forall positive)
    exact both.2
  refine ⟨safe.focused, safe.scrolled, safe.widths, fun tall => ?_, fun op => ⟨?_, ?_⟩⟩
  · have empty : 0 < (new viewportWidth viewportHeight).viewportHeight ∧
        ∀ s ∈ (new viewportWidth viewportHeight).surfaces, 0 < s.height :=
      ⟨height, by simp [new]⟩
    have both := run_induction
      (fun strip => 0 < strip.viewportHeight ∧ ∀ s ∈ strip.surfaces, 0 < s.height)
      (fun _ op => HeightPositive op)
      (fun strip op ⟨viewport, heights⟩ met =>
        ⟨(strip.apply_viewport op).2 ▸ viewport,
          forall_apply (g := Surface.height) (fun _ => rfl) (p := (0 < ·)) heights
            fun surface placed => placed_height_pos viewport met placed⟩)
      empty (Throughout.of_forall tall)
    exact both.2
  · intro surface placed
    have added := (apply_perm placed).map Surface.body
    rwa [List.map_append, List.map_singleton] at added
  · intro places
    exact map_apply_sublist (fun _ => rfl) places

/-- A surface of the sample host, at an order and of a given width. -/
def sampleSurface (order : UInt32) (width : ℚ) : Surface ℚ :=
  { surfaceFromAnnounce sampleAnnounce (.v4 ⟨127, 0, 0, 1⟩ 7001) (new 1200 800) with
    order, width }

/-- A surface is restored, another appended, and the first one removed while the
strip is scrolled and the surface focused. -/
def sampleRun : List (Operation ℚ) :=
  [.insertOrdered (sampleSurface 4 1000), .append (sampleSurface 0 0), .scrollBy 150,
    .click 10 10, .noteFrame sampleAnnounce.id 40, .remove sampleAnnounce.id]

theorem sampleRun_safe :
    let strip := (new (1200 : ℚ) 800).run sampleRun
    (∀ id ∈ strip.focus, id ∈ strip.surfaces.map Surface.id) ∧
      (0 ≤ strip.scrollPos ∧ strip.scrollPos ≤ strip.maxScroll) ∧
      ∀ s ∈ strip.surfaces, 0 < s.width ∧ 0 < s.height := by
  have width : (0 : ℚ) < 1200 := by norm_num
  have height : (0 : ℚ) < 800 := by norm_num
  have wide : ∀ op ∈ sampleRun, WidthPositive op := by
    simp [sampleRun, WidthPositive, sampleSurface]
  have tall : ∀ op ∈ sampleRun, HeightPositive op := by
    simp [sampleRun, HeightPositive, sampleSurface, surfaceFromAnnounce, new]
  obtain ⟨focused, scrolled, widths, heights, _⟩ := run_safe width height wide
  exact ⟨focused, scrolled, fun s member => ⟨widths s member, heights tall s member⟩⟩

/-! ## Live runs -/

structure WellPlaced (strip : Strip F) : Prop where
  widths : ∀ w ∈ strip.surfaces.map Surface.width, w = strip.defaultSurfaceWidth
  scrolled : strip.Scrolled
  focused : ∀ id ∈ strip.focus, id ∈ strip.surfaces.map Surface.id

theorem WellPlaced.maxScroll_eq {strip : Strip F} (placed : strip.WellPlaced) :
    strip.maxScroll =
      max (strip.surfaces.length * (strip.viewportWidth / 3) - strip.viewportWidth) 0 := by
  unfold maxScroll
  rw [contentWidth_of_uniform placed.widths]
  rfl

theorem live_viewportWidth (strip : Strip F) (action : LiveAction F) :
    (strip.live action).viewportWidth = strip.viewportWidth := by
  rw [← apply_operation]
  exact (strip.apply_viewport _).1

private theorem live_wellPlaced (strip : Strip F) (action : LiveAction F)
    (positive : 0 < strip.viewportWidth) (placed : strip.WellPlaced) :
    (strip.live action).WellPlaced := by
  have third : 0 < strip.defaultSurfaceWidth := div_pos positive (by norm_num)
  have safe : strip.Safe :=
    ⟨fun s member => placed.widths s.width (List.mem_map_of_mem member) ▸ third, placed.scrolled,
      placed.focused⟩
  have met : WidthPositive (action.operation strip) := by
    cases action <;> exact trivial
  have after := safe.apply positive met
  have widths : ∀ s ∈ (strip.apply (action.operation strip)).surfaces,
      s.width = strip.defaultSurfaceWidth := by
    refine forall_apply (g := Surface.width) (fun _ => rfl)
      (p := (· = strip.defaultSurfaceWidth))
      (fun s member => placed.widths s.width (List.mem_map_of_mem member)) fun surface added => ?_
    cases action with
    | hostAnnounced announce addr =>
        cases added
        exact ite_self _
    | _ => cases added
  have third : (strip.live action).defaultSurfaceWidth = strip.defaultSurfaceWidth := by
    unfold defaultSurfaceWidth
    rw [live_viewportWidth]
  rw [apply_operation] at after widths
  refine ⟨?_, after.scrolled, after.focused⟩
  rw [List.forall_mem_map, third]
  exact widths

theorem LiveReachable.wellPlaced {strip : Strip F} (reachable : strip.LiveReachable)
    (positive : 0 < strip.viewportWidth) : strip.WellPlaced := by
  obtain ⟨viewportWidth, viewportHeight, actions, rfl⟩ := reachable
  have width : ∀ actions : List (LiveAction F),
      (actions.foldl Strip.live (new viewportWidth viewportHeight)).viewportWidth =
        viewportWidth := by
    intro actions
    exact live_induction (fun strip => strip.viewportWidth = viewportWidth) rfl
      (fun strip action same => (live_viewportWidth strip action).trans same) actions
  rw [width] at positive
  have safe := safe_new viewportWidth viewportHeight
  have both := live_induction
    (fun strip => strip.viewportWidth = viewportWidth ∧ strip.WellPlaced)
    ⟨rfl, by simp [new], safe.scrolled, safe.focused⟩
    (fun strip action ⟨same, placed⟩ => ⟨(live_viewportWidth strip action).trans same,
      live_wellPlaced strip action (same ▸ positive) placed⟩) actions
  exact both.2

end Strip

end Simulboot
