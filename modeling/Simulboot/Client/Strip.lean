import Mathlib.Data.List.Sort
import Simulboot.Library.SocketAddr
import Simulboot.Wire

/-!
# The surface strip

Surfaces on an infinite horizontal strip, the viewport scrolled over it, and the
focus. `F` stands for `f32`, with the operations the code uses.
-/

set_option autoImplicit false
set_option linter.unusedSectionVars false

namespace Simulboot

open Library

structure Surface (F : Type) where
  id : SurfaceId
  name : Str
  order : UInt32
  width : F
  height : F
  sourceWidth : UInt32
  sourceHeight : UInt32
  codec : Codec
  provenance : HostProvenance
  hostAddr : SocketAddr
  lastPts : Option UInt64
  framesReceived : UInt64

structure Strip (F : Type) where
  surfaces : List (Surface F)
  scrollPos : F
  viewportWidth : F
  viewportHeight : F
  focus : Option SurfaceId

/-- A surface under a point, with the point in the surface's own 0–1 space. -/
structure Hit (F : Type) where
  id : SurfaceId
  nx : F
  ny : F

def updateFirst {α : Type} (test : α → Bool) (f : α → α) : List α → List α
  | [] => []
  | head :: rest => if test head then f head :: rest else head :: updateFirst test f rest

variable {F : Type}

def renumber (surfaces : List (Surface F)) : List (Surface F) :=
  surfaces.zipIdx.map fun numbered => { numbered.1 with order := .ofNat numbered.2 }

def Surface.frameNoted (pts : UInt64) (s : Surface F) : Surface F :=
  { s with lastPts := some pts, framesReceived := s.framesReceived + 1 }

/-- `f32::clamp`. -/
def clamp [LT F] [DecidableLT F] (v low high : F) : F :=
  let v := if v < low then low else v
  if high < v then high else v

variable [Zero F] [One F] [OfNat F 3] [Add F] [Sub F] [Div F] [Max F]
variable [LT F] [LE F] [DecidableLT F] [DecidableLE F]

namespace Strip

def new (viewportWidth viewportHeight : F) : Strip F :=
  { surfaces := [], scrollPos := 0, viewportWidth, viewportHeight, focus := none }

def defaultSurfaceWidth (strip : Strip F) : F :=
  strip.viewportWidth / 3

def contentWidth (strip : Strip F) : F :=
  (strip.surfaces.map Surface.width).foldl (· + ·) 0

def maxScroll (strip : Strip F) : F :=
  max (strip.contentWidth - strip.viewportWidth) 0

def clampScroll (strip : Strip F) : Strip F :=
  { strip with scrollPos := clamp strip.scrollPos 0 strip.maxScroll }

/-- Append a surface at the right end and return its order, the current count. -/
def append (strip : Strip F) (surface : Surface F) : UInt32 × Strip F :=
  let order := UInt32.ofNat strip.surfaces.length
  let width := if surface.width ≤ 0 then strip.defaultSurfaceWidth else surface.width
  let height := if surface.height ≤ 0 then strip.viewportHeight else surface.height
  (order, { strip with surfaces := strip.surfaces ++ [{ surface with order, width, height }] })

/-- Insert a surface whose order is authoritative. -/
def insertOrdered (strip : Strip F) (surface : Surface F) : Strip F :=
  { strip with
    surfaces := (strip.surfaces ++ [surface]).insertionSort fun a b => a.order ≤ b.order }

/-- Remove the first surface with an id and close the gap. -/
def remove (strip : Strip F) (id : SurfaceId) : Option (Surface F) × Strip F :=
  match strip.surfaces.find? fun s => s.id = id with
  | none => (none, strip)
  | some removed =>
      (some removed,
        clampScroll
          { strip with
            surfaces := renumber (strip.surfaces.eraseP fun s => s.id = id)
            focus := if strip.focus = some id then none else strip.focus })

def get (strip : Strip F) (id : SurfaceId) : Option (Surface F) :=
  strip.surfaces.find? fun s => s.id = id

def noteFrame (strip : Strip F) (id : SurfaceId) (pts : UInt64) : Strip F :=
  { strip with
    surfaces := updateFirst (fun s => s.id = id) (Surface.frameNoted pts) strip.surfaces }

/-- The left edge of the first surface with an id, where `x` is that of the first
surface of all. -/
def leftOf (id : SurfaceId) (x : F) : List (Surface F) → Option F
  | [] => none
  | s :: rest => if s.id = id then some x else leftOf id (x + s.width) rest

def surfaceLeft (strip : Strip F) (id : SurfaceId) : Option F :=
  leftOf id 0 strip.surfaces

def scrollBy (strip : Strip F) (dx : F) : Strip F :=
  clampScroll { strip with scrollPos := strip.scrollPos + dx }

def setScroll (strip : Strip F) (pos : F) : Strip F :=
  clampScroll { strip with scrollPos := pos }

def hasSurface (strip : Strip F) (id : SurfaceId) : Bool :=
  strip.surfaces.any fun s => s.id = id

def setFocus (strip : Strip F) (id : SurfaceId) : Bool × Strip F :=
  if strip.hasSurface id then (true, { strip with focus := some id }) else (false, strip)

def setFocusOpt (strip : Strip F) (id : Option SurfaceId) : Strip F :=
  { strip with focus := id.filter strip.hasSurface }

/-- The surfaces that reach into a window, where `x` is the left edge of the first. -/
def visibleFrom (viewL viewR x : F) : List (Surface F) → List (Surface F)
  | [] => []
  | s :: rest =>
      let r := x + s.width
      if viewL < r ∧ x < viewR then s :: visibleFrom viewL viewR r rest
      else visibleFrom viewL viewR r rest

/-- Surfaces intersecting the viewport, in strip order. -/
def visible (strip : Strip F) : List (Surface F) :=
  visibleFrom strip.scrollPos (strip.scrollPos + strip.viewportWidth) 0 strip.surfaces

/-- The surface whose horizontal extent holds a strip coordinate, and its left
edge, where `x` is the left edge of the first. -/
def findAt (stripX x : F) : List (Surface F) → Option (Surface F × F)
  | [] => none
  | s :: rest =>
      let r := x + s.width
      if x ≤ stripX ∧ stripX < r then some (s, x) else findAt stripX r rest

def hitTest (strip : Strip F) (vx vy : F) : Option (Hit F) :=
  if vy < 0 ∨ strip.viewportHeight < vy then none
  else
    let stripX := vx + strip.scrollPos
    (findAt stripX 0 strip.surfaces).map fun found =>
      { id := found.1.id
        nx := (stripX - found.2) / found.1.width
        ny := clamp (vy / found.1.height) 0 1 }

def click (strip : Strip F) (vx vy : F) : Option (Hit F) × Strip F :=
  match strip.hitTest vx vy with
  | none => (none, strip)
  | some hit => (some hit, { strip with focus := some hit.id })

theorem hasSurface_iff {strip : Strip F} {id : SurfaceId} :
    strip.hasSurface id = true ↔ id ∈ strip.surfaces.map Surface.id := by
  simp [hasSurface]

/-! ## What the operations leave alone -/

@[simp] theorem clampScroll_surfaces (strip : Strip F) :
    strip.clampScroll.surfaces = strip.surfaces := rfl

@[simp] theorem clampScroll_focus (strip : Strip F) : strip.clampScroll.focus = strip.focus := rfl

@[simp] theorem clampScroll_viewportWidth (strip : Strip F) :
    strip.clampScroll.viewportWidth = strip.viewportWidth := rfl

@[simp] theorem setFocus_surfaces (strip : Strip F) (id : SurfaceId) :
    (strip.setFocus id).2.surfaces = strip.surfaces := by
  unfold setFocus
  split <;> rfl

@[simp] theorem click_surfaces (strip : Strip F) (vx vy : F) :
    (strip.click vx vy).2.surfaces = strip.surfaces := by
  unfold click
  split <;> rfl

@[simp] theorem append_surfaces (strip : Strip F) (surface : Surface F) :
    (strip.append surface).2.surfaces = strip.surfaces ++
      [{ surface with
          order := .ofNat strip.surfaces.length
          width := if surface.width ≤ 0 then strip.defaultSurfaceWidth else surface.width
          height := if surface.height ≤ 0 then strip.viewportHeight else surface.height }] := rfl

/-- Removing changes the surfaces only where there is one to remove. -/
theorem remove_surfaces (strip : Strip F) (id : SurfaceId) :
    (strip.remove id).2.surfaces = strip.surfaces ∨
      (strip.remove id).2.surfaces = renumber (strip.surfaces.eraseP fun s => s.id = id) := by
  unfold remove
  split
  · exact .inl rfl
  · exact .inr rfl

end Strip

omit [Zero F] [One F] [OfNat F 3] [Add F] [Sub F] [Div F] [Max F] [LT F] [LE F] [DecidableLT F]
  [DecidableLE F]

/-- A change to one element that keeps a value of it keeps that value of all. -/
theorem map_updateFirst {α β : Type} {test : α → Bool} {f : α → α} {g : α → β}
    (kept : ∀ a, g (f a) = g a) (items : List α) :
    (updateFirst test f items).map g = items.map g := by
  induction items with
  | nil => rfl
  | cons head rest ih =>
      unfold updateFirst
      split
      · simp [kept]
      · simp [ih]

theorem map_order_renumber (surfaces : List (Surface F)) :
    (renumber surfaces).map Surface.order =
      (List.range surfaces.length).map UInt32.ofNat := by
  unfold renumber
  rw [List.map_map, List.range_eq_range', ← List.zipIdx_map_snd 0 surfaces, List.map_map]
  rfl

theorem map_renumber {β : Type} {g : Surface F → β}
    (kept : ∀ (s : Surface F) order, g { s with order } = g s) (surfaces : List (Surface F)) :
    (renumber surfaces).map g = surfaces.map g := by
  unfold renumber
  rw [List.map_map]
  have values : (g ∘ fun numbered : Surface F × Nat =>
      ({ numbered.1 with order := .ofNat numbered.2 } : Surface F)) = g ∘ Prod.fst := by
    funext numbered
    exact kept numbered.1 _
  rw [values, ← List.map_map, List.zipIdx_map_fst]

end Simulboot
