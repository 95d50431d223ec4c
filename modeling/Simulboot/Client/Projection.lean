import Simulboot.Client.Operations
import Simulboot.Client.Render

/-!
# What the strip does not look at

Operations place, order, size and find surfaces. Whatever else a surface holds can be
rewritten before an operation or behind it, with the same outcome.
-/

set_option autoImplicit false
set_option linter.unusedSectionVars false

namespace Simulboot

open Library

variable {F : Type} [Zero F] [One F] [OfNat F 3] [Add F] [Sub F] [Div F] [Max F]
variable [LT F] [LE F] [DecidableLT F] [DecidableLE F]

/-- A change of a surface that keeps its id and leaves its placement alone. -/
structure Surface.Overlooked (g : Surface F → Surface F) : Prop where
  id : ∀ s, (g s).id = s.id
  placed : ∀ (s : Surface F) order width height,
    g { s with order, width, height } = { g s with order, width, height }

namespace Surface.Overlooked

variable {g : Surface F → Surface F} (overlooked : Surface.Overlooked g)

include overlooked

private theorem placement (s : Surface F) :
    g s = { g s with order := s.order, width := s.width, height := s.height } :=
  overlooked.placed s s.order s.width s.height

private theorem order (s : Surface F) : (g s).order = s.order :=
  (congrArg Surface.order (overlooked.placement s)).trans rfl

private theorem width (s : Surface F) : (g s).width = s.width :=
  (congrArg Surface.width (overlooked.placement s)).trans rfl

private theorem height (s : Surface F) : (g s).height = s.height :=
  (congrArg Surface.height (overlooked.placement s)).trans rfl

end Surface.Overlooked

theorem Surface.still_overlooked : Surface.Overlooked (Surface.still (F := F)) where
  id _ := rfl
  placed _ _ _ _ := rfl

namespace Strip

/-- A strip with each of its surfaces changed. -/
def project (g : Surface F → Surface F) (strip : Strip F) : Strip F :=
  { strip with surfaces := strip.surfaces.map g }

variable {g : Surface F → Surface F} (overlooked : Surface.Overlooked g)

include overlooked

/-! ## What the operations read -/

theorem contentWidth_project (strip : Strip F) :
    (strip.project g).contentWidth = strip.contentWidth := by
  have widths : (strip.surfaces.map g).map Surface.width = strip.surfaces.map Surface.width := by
    rw [List.map_map]
    exact List.map_congr_left fun s _ => overlooked.width s
  unfold contentWidth project
  rw [widths]

theorem clampScroll_project (strip : Strip F) :
    (strip.project g).clampScroll = strip.clampScroll.project g := by
  unfold clampScroll maxScroll
  rw [contentWidth_project overlooked]
  rfl

theorem hasSurface_project (strip : Strip F) (id : SurfaceId) :
    (strip.project g).hasSurface id = strip.hasSurface id := by
  have same : ((fun s : Surface F => decide (s.id = id)) ∘ g) = fun s => decide (s.id = id) :=
    funext fun s => by rw [Function.comp_apply, overlooked.id]
  unfold hasSurface project
  rw [List.any_map, same]

private theorem findAt_map (stripX x : F) (surfaces : List (Surface F)) :
    findAt stripX x (surfaces.map g) =
      (findAt stripX x surfaces).map fun found => (g found.1, found.2) := by
  induction surfaces generalizing x with
  | nil => rfl
  | cons s rest ih =>
      rw [List.map_cons, findAt, findAt, overlooked.width]
      split
      · rfl
      · exact ih (x + s.width)

private theorem visibleFrom_map (viewL viewR x : F) (surfaces : List (Surface F)) :
    visibleFrom viewL viewR x (surfaces.map g) = (visibleFrom viewL viewR x surfaces).map g := by
  induction surfaces generalizing x with
  | nil => rfl
  | cons s rest ih =>
      rw [List.map_cons, visibleFrom, visibleFrom, overlooked.width]
      split
      · rw [List.map_cons, ← ih]
      · exact ih (x + s.width)

theorem hitTest_project (strip : Strip F) (vx vy : F) :
    (strip.project g).hitTest vx vy = strip.hitTest vx vy := by
  have found := findAt_map overlooked (vx + strip.scrollPos) 0 strip.surfaces
  unfold hitTest
  change (if vy < 0 ∨ strip.viewportHeight < vy then none else _) = _
  split
  · rfl
  · change Option.map _ (findAt (vx + strip.scrollPos) 0 (strip.surfaces.map g)) = _
    rw [found, Option.map_map]
    congr 1
    funext place
    simp only [Function.comp_apply, overlooked.id, overlooked.width, overlooked.height]
    rfl

private theorem renumber_map (surfaces : List (Surface F)) :
    renumber (surfaces.map g) = (renumber surfaces).map g := by
  unfold renumber
  rw [List.zipIdx_map, List.map_map, List.map_map]
  refine List.map_congr_left fun numbered _ => ?_
  have placed := overlooked.placed numbered.1 (.ofNat numbered.2) numbered.1.width numbered.1.height
  have kept := overlooked.placement numbered.1
  simp only [Function.comp_apply, Prod.map_fst, Prod.map_snd, id_eq]
  rw [placed]
  rw [kept]

/-! ## What the operations do -/

theorem append_project (strip : Strip F) (surface : Surface F) :
    ((strip.project g).append (g surface)).2 = (strip.append surface).2.project g := by
  have placed := overlooked.placed surface (.ofNat strip.surfaces.length)
    (if surface.width ≤ 0 then strip.defaultSurfaceWidth else surface.width)
    (if surface.height ≤ 0 then strip.viewportHeight else surface.height)
  unfold append project
  simp only [List.length_map, List.map_append, List.map_singleton, placed, overlooked.width,
    overlooked.height]
  rfl

theorem insertOrdered_project (strip : Strip F) (surface : Surface F) :
    (strip.project g).insertOrdered (g surface) = (strip.insertOrdered surface).project g := by
  have byOrder : ∀ a ∈ strip.surfaces ++ [surface], ∀ b ∈ strip.surfaces ++ [surface],
      a.order ≤ b.order ↔ (g a).order ≤ (g b).order := by
    intro a _ b _
    rw [overlooked.order, overlooked.order]
  unfold insertOrdered project
  rw [List.map_insertionSort (fun a b : Surface F => a.order ≤ b.order)
    (fun a b : Surface F => a.order ≤ b.order) g _ byOrder, List.map_append, List.map_singleton]

theorem remove_project (strip : Strip F) (id : SurfaceId) :
    ((strip.project g).remove id).2 = (strip.remove id).2.project g := by
  have same : ((fun s : Surface F => decide (s.id = id)) ∘ g) = fun s => decide (s.id = id) :=
    funext fun s => by rw [Function.comp_apply, overlooked.id]
  have found : (strip.project g).surfaces.find? (fun s => s.id = id) =
      (strip.surfaces.find? fun s => s.id = id).map g := by
    rw [project, List.find?_map, same]
  have erased : (strip.project g).surfaces.eraseP (fun s => s.id = id) =
      (strip.surfaces.eraseP fun s => s.id = id).map g := by
    rw [project, List.eraseP_map, same]
  unfold remove
  rw [found]
  cases strip.surfaces.find? fun s => s.id = id with
  | none => rfl
  | some removed =>
      rw [Option.map_some]
      dsimp only
      rw [erased, renumber_map overlooked, ← clampScroll_project overlooked]
      rfl

omit overlooked in
theorem noteFrame_project (framed : ∀ pts s, g (Surface.frameNoted pts s) = g s) (strip : Strip F)
    (id : SurfaceId) (pts : UInt64) : (strip.noteFrame id pts).project g = strip.project g := by
  unfold project noteFrame
  rw [map_updateFirst (f := Surface.frameNoted pts) (framed pts)]

theorem setFocus_project (strip : Strip F) (id : SurfaceId) :
    ((strip.project g).setFocus id).2 = (strip.setFocus id).2.project g := by
  unfold setFocus
  rw [hasSurface_project overlooked]
  split <;> rfl

theorem setFocusOpt_project (strip : Strip F) (id : Option SurfaceId) :
    (strip.project g).setFocusOpt id = (strip.setFocusOpt id).project g := by
  have same : (strip.project g).hasSurface = strip.hasSurface :=
    funext (hasSurface_project overlooked strip)
  unfold setFocusOpt
  rw [same]
  rfl

theorem click_project (strip : Strip F) (vx vy : F) :
    ((strip.project g).click vx vy).2 = (strip.click vx vy).2.project g := by
  unfold click
  rw [hitTest_project overlooked]
  split <;> rfl

omit overlooked in
theorem viewport_of_project {strip other : Strip F} (alike : strip.project g = other.project g) :
    strip.viewportWidth = other.viewportWidth ∧ strip.viewportHeight = other.viewportHeight :=
  ⟨(congrArg viewportWidth alike :), (congrArg viewportHeight alike :)⟩

/-- Actions treat alike what differs only where nothing looks. -/
theorem live_project_congr (framed : ∀ pts s, g (Surface.frameNoted pts s) = g s)
    {strip other : Strip F} (alike : strip.project g = other.project g) (action : LiveAction F) :
    (strip.live action).project g = (other.live action).project g := by
  cases action with
  | hostAnnounced announce addr =>
      obtain ⟨width, height⟩ := viewport_of_project alike
      have same : surfaceFromAnnounce announce addr strip =
          surfaceFromAnnounce announce addr other := by
        unfold surfaceFromAnnounce defaultSurfaceWidth
        rw [width, height]
      simp only [live, ← append_project overlooked, same, alike]
  | surfaceRemoved id => simp only [live, ← remove_project overlooked, alike]
  | scrolledBy dx =>
      have scrolled : ∀ strip : Strip F,
          (strip.scrollBy dx).project g = (strip.project g).scrollBy dx := fun strip =>
        (clampScroll_project overlooked { strip with scrollPos := strip.scrollPos + dx }).symm
      simp only [live, scrolled, alike]
  | scrolledTo pos =>
      have scrolled : ∀ strip : Strip F,
          (strip.setScroll pos).project g = (strip.project g).setScroll pos := fun strip =>
        (clampScroll_project overlooked { strip with scrollPos := pos }).symm
      simp only [live, scrolled, alike]
  | focused id => simp only [live, ← setFocus_project overlooked, alike]
  | focusedOpt id => simp only [live, ← setFocusOpt_project overlooked, alike]
  | clicked vx vy => simp only [live, ← click_project overlooked, alike]
  | frameArrived id pts => simp only [live, noteFrame_project framed, alike]

theorem foldl_live_project_congr (framed : ∀ pts s, g (Surface.frameNoted pts s) = g s)
    {strip other : Strip F} (alike : strip.project g = other.project g)
    (actions : List (LiveAction F)) :
    (actions.foldl live strip).project g = (actions.foldl live other).project g := by
  induction actions generalizing strip other with
  | nil => exact alike
  | cons action actions ih => exact ih (live_project_congr overlooked framed alike action)

theorem line_project (named : ∀ s, (g s).name = s.name) (showScroll : F → Str) (strip : Strip F) :
    HeadlessRenderer.line showScroll (strip.project g) = HeadlessRenderer.line showScroll strip := by
  have visible : (strip.project g).visible = strip.visible.map g :=
    visibleFrom_map overlooked _ _ _ _
  have labels : strip.label ∘ g = strip.label := by
    funext s
    simp only [Function.comp_apply, label, named, overlooked.id]
  unfold HeadlessRenderer.line
  rw [visible, List.map_map]
  exact congrArg _ (congrArg _ (by rw [← labels]; rfl))

omit overlooked in
/-- A checkpoint reads the entries of the surfaces. -/
theorem imageFromStrip_project [RustFloat F]
    (recorded : ∀ s, surfaceEntry (g s) = surfaceEntry s) (sha256 : Sha256) (strip : Strip F)
    (created : Str) :
    imageFromStrip sha256 (strip.project g) created = imageFromStrip sha256 strip created := by
  have entries : (strip.surfaces.map g).map surfaceEntry = strip.surfaces.map surfaceEntry := by
    rw [List.map_map]
    exact List.map_congr_left fun s _ => recorded s
  unfold imageFromStrip project
  rw [entries]
  rfl

end Strip

end Simulboot
