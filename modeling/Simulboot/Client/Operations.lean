import Simulboot.Client.Resume

/-!
# Runs of strip operations

Calls of the strip's operations in any order, from an empty strip. A restored
session is one such run and a live session another, and the two may be mixed.
-/

set_option autoImplicit false
set_option linter.unusedSectionVars false

namespace Simulboot

open Library

variable {F : Type} [Zero F] [One F] [OfNat F 3] [Add F] [Sub F] [Div F] [Max F]
variable [LT F] [LE F] [DecidableLT F] [DecidableLE F]

/-- A call of one of the operations that change a strip. -/
inductive Operation (F : Type) where
  | append (surface : Surface F)
  | insertOrdered (surface : Surface F)
  | remove (id : SurfaceId)
  | scrollBy (dx : F)
  | setScroll (pos : F)
  | setFocus (id : SurfaceId)
  | setFocusOpt (id : Option SurfaceId)
  | click (vx vy : F)
  | noteFrame (id : SurfaceId) (pts : UInt64)

/-- The part of a surface that only its placement determines: everything but the
order and the frame diagnostics. -/
def Surface.body (s : Surface F) : Surface F :=
  { s.still with order := 0 }

namespace Strip

def apply (strip : Strip F) : Operation F → Strip F
  | .append surface => (strip.append surface).2
  | .insertOrdered surface => strip.insertOrdered surface
  | .remove id => (strip.remove id).2
  | .scrollBy dx => strip.scrollBy dx
  | .setScroll pos => strip.setScroll pos
  | .setFocus id => (strip.setFocus id).2
  | .setFocusOpt id => strip.setFocusOpt id
  | .click vx vy => (strip.click vx vy).2
  | .noteFrame id pts => strip.noteFrame id pts

def run (strip : Strip F) (ops : List (Operation F)) : Strip F :=
  ops.foldl apply strip

@[simp] theorem run_nil (strip : Strip F) : strip.run [] = strip := rfl

@[simp] theorem run_cons (strip : Strip F) (op : Operation F) (ops : List (Operation F)) :
    strip.run (op :: ops) = (strip.apply op).run ops := rfl

/-- A property of every call of a run, in the state that it meets. -/
def Throughout (holds : Strip F → Operation F → Prop) : Strip F → List (Operation F) → Prop
  | _, [] => True
  | strip, op :: ops => holds strip op ∧ Throughout holds (strip.apply op) ops

theorem Throughout.of_forall {holds : Operation F → Prop} {strip : Strip F}
    {ops : List (Operation F)} (all : ∀ op ∈ ops, holds op) :
    Throughout (fun _ => holds) strip ops := by
  induction ops generalizing strip with
  | nil => trivial
  | cons op ops ih =>
      exact ⟨all op (by simp), ih fun other member => all other (by simp [member])⟩

/-- What holds of a strip and through every call that a condition lets pass
holds of all strips of a run whose calls meet it. -/
theorem run_induction (invariant : Strip F → Prop) (condition : Strip F → Operation F → Prop)
    (kept : ∀ strip op, invariant strip → condition strip op → invariant (strip.apply op))
    {strip : Strip F} {ops : List (Operation F)} (start : invariant strip)
    (met : Throughout condition strip ops) : invariant (strip.run ops) := by
  induction ops generalizing strip with
  | nil => exact start
  | cons op ops ih => exact ih (kept strip op start met.1) met.2

/-- What a call that meets a condition and an invariant leaves true stays true
throughout. -/
theorem Throughout.iff_of_invariant (invariant : Strip F → Prop)
    {left right : Strip F → Operation F → Prop}
    (kept : ∀ strip op, invariant strip → left strip op → invariant (strip.apply op))
    (same : ∀ strip op, invariant strip → (left strip op ↔ right strip op))
    {strip : Strip F} {ops : List (Operation F)} (start : invariant strip) :
    Throughout left strip ops ↔ Throughout right strip ops := by
  induction ops generalizing strip with
  | nil => exact Iff.rfl
  | cons op ops ih =>
      constructor
      · intro ⟨first, later⟩
        exact ⟨(same strip op start).mp first, (ih (kept strip op start first)).mp later⟩
      · intro ⟨first, later⟩
        have first := (same strip op start).mpr first
        exact ⟨first, (ih (kept strip op start first)).mpr later⟩

/-! ## What a call does to the surfaces -/

def appended (strip : Strip F) (surface : Surface F) : Surface F :=
  { surface with
    order := .ofNat strip.surfaces.length
    width := if surface.width ≤ 0 then strip.defaultSurfaceWidth else surface.width
    height := if surface.height ≤ 0 then strip.viewportHeight else surface.height }

/-- The surface that a call puts on the strip, if any. -/
def placedBy (strip : Strip F) : Operation F → Option (Surface F)
  | .append surface => some (strip.appended surface)
  | .insertOrdered surface => some surface
  | _ => none

theorem apply_append (strip : Strip F) (surface : Surface F) :
    (strip.apply (.append surface)).surfaces = strip.surfaces ++ [strip.appended surface] := rfl

theorem apply_perm {strip : Strip F} {op : Operation F} {surface : Surface F}
    (placed : strip.placedBy op = some surface) :
    (strip.apply op).surfaces.Perm (strip.surfaces ++ [surface]) := by
  cases op with
  | append _ =>
      cases placed
      exact .refl _
  | insertOrdered _ =>
      cases placed
      exact List.perm_insertionSort _ _
  | _ => cases placed

/-- Calls that neither place nor remove a surface change frame diagnostics only. -/
theorem map_still_apply {strip : Strip F} {op : Operation F} (places : strip.placedBy op = none)
    (stays : ∀ id, op ≠ .remove id) :
    (strip.apply op).surfaces.map Surface.still = strip.surfaces.map Surface.still := by
  cases op with
  | append surface => cases places
  | insertOrdered surface => cases places
  | remove id => exact absurd rfl (stays id)
  | scrollBy dx => rfl
  | setScroll pos => rfl
  | setFocus id => rw [apply, setFocus_surfaces]
  | setFocusOpt id => rfl
  | click vx vy => rw [apply, click_surfaces]
  | noteFrame id pts => exact map_updateFirst (f := Surface.frameNoted pts) (fun _ => rfl) _

/-- A value that neither the order nor the diagnostics of a surface influence is
left alone by calls that place none. -/
theorem map_apply_sublist {β : Type} {g : Surface F → β} (fixed : ∀ s : Surface F, g s.body = g s)
    {strip : Strip F} {op : Operation F} (places : strip.placedBy op = none) :
    ((strip.apply op).surfaces.map g).Sublist (strip.surfaces.map g) := by
  cases op with
  | remove id =>
      rcases strip.remove_surfaces id with same | removed
      · rw [apply, same]
      · rw [apply, removed, map_renumber fun s order => (fixed _).symm.trans (fixed s)]
        exact List.eraseP_sublist.map g
  | _ =>
      have still := map_still_apply places (by simp)
      have kept : ∀ surfaces : List (Surface F),
          surfaces.map g = (surfaces.map Surface.still).map g := by
        intro surfaces
        rw [List.map_map]
        exact List.map_congr_left fun s _ => (fixed s).symm.trans (fixed s.still)
      rw [kept, still, ← kept]

theorem apply_viewport (strip : Strip F) (op : Operation F) :
    (strip.apply op).viewportWidth = strip.viewportWidth ∧
      (strip.apply op).viewportHeight = strip.viewportHeight := by
  cases op with
  | remove id =>
      simp only [apply, remove]
      split <;> exact ⟨rfl, rfl⟩
  | setFocus id =>
      simp only [apply, setFocus]
      split <;> exact ⟨rfl, rfl⟩
  | click vx vy =>
      simp only [apply, click]
      split <;> exact ⟨rfl, rfl⟩
  | _ => exact ⟨rfl, rfl⟩

end Strip

/-! ## Live sessions -/

def LiveAction.operation (strip : Strip F) : LiveAction F → Operation F
  | .hostAnnounced announce addr => .append (surfaceFromAnnounce announce addr strip)
  | .surfaceRemoved id => .remove id
  | .scrolledBy dx => .scrollBy dx
  | .scrolledTo pos => .setScroll pos
  | .focused id => .setFocus id
  | .focusedOpt id => .setFocusOpt id
  | .clicked vx vy => .click vx vy
  | .frameArrived id pts => .noteFrame id pts

theorem Strip.apply_operation (strip : Strip F) (action : LiveAction F) :
    strip.apply (action.operation strip) = strip.live action := by
  cases action <;> rfl

end Simulboot
