import Simulboot.Client.Projection
import Simulboot.Content.Accounting

/-!
# Frames do not interfere

Frames change what a strip shows of its surfaces and nothing else: with all steps of the
content channels erased, a run places, scrolls and focuses alike, logs the same lines and
ends with the same checkpoint.
-/

set_option autoImplicit false
set_option linter.unusedSectionVars false

namespace Simulboot

open Library Library.Postcard

variable {F : Type} [Zero F] [One F] [OfNat F 3] [Add F] [Sub F] [Div F] [Max F]
variable [LT F] [LE F] [DecidableLT F] [DecidableLE F]

namespace Strip

private theorem change_project_still {strip other : Strip F}
    (alike : strip.project Surface.still = other.project Surface.still) (change : StripChange F) :
    (strip.change change).project Surface.still = (other.change change).project Surface.still := by
  have overlooked := Surface.still_overlooked (F := F)
  cases change with
  | restored entry announce addr =>
      obtain ⟨width, height⟩ := viewport_of_project alike
      have same : restoredSurface entry announce addr strip =
          restoredSurface entry announce addr other := by
        unfold restoredSurface surfaceFromAnnounce defaultSurfaceWidth
        rw [width, height]
      simp only [Strip.change, ← insertOrdered_project overlooked, same, alike]
  | live action => exact live_project_congr overlooked (fun _ _ => rfl) alike action

end Strip

namespace Content

variable {ι : Type} [DecidableEq ι] {format : Format FrameHeader} {ids : ι → SurfaceId}
  {showScroll : F → Str} {s s' t : Content ι F}

/-- Steps that are not about frames. -/
def frameless : ContentAction ι F → Bool
  | .changes _ | .presents => true
  | .link _ _ | .hands _ | .takes | .notes => false

/-- The same, as far as it does not concern frames. -/
structure Alike (s t : Content ι F) : Prop where
  strip : s.strip.project Surface.still = t.strip.project Surface.still
  renderer : s.renderer = t.renderer
  logged : s.logged = t.logged

private theorem Alike.skips (alike : Alike s t) {action : ContentAction ι F}
    (frames : frameless action = false) (stepped : s.step format ids showScroll action = .ok s') : Alike s' t := by
  cases action with
  | link i action =>
      obtain ⟨link, _, rfl⟩ := link_eq_ok.mp stepped
      exact { alike with }
  | hands i =>
      obtain ⟨ev, events, _, _, rfl⟩ := hands_eq_ok.mp stepped
      exact { alike with }
  | takes =>
      obtain ⟨ev, events, _, _, rfl⟩ := takes_eq_ok.mp stepped
      exact { alike with }
  | notes =>
      obtain ⟨ev, _, rfl⟩ := notes_eq_ok.mp stepped
      exact { alike with strip := (Strip.noteFrame_project (fun _ _ => rfl) _ _ _).trans alike.strip }
  | changes change => cases frames
  | presents => cases frames

private theorem Alike.line (alike : Alike s t) :
    HeadlessRenderer.line showScroll s.strip = HeadlessRenderer.line showScroll t.strip := by
  have line := Strip.line_project (Surface.still_overlooked (F := F)) (fun _ => rfl) showScroll
  rw [← line, alike.strip, line]

private theorem Alike.follows (alike : Alike s t) {action : ContentAction ι F}
    (still : frameless action = true) (stepped : s.step format ids showScroll action = .ok s') :
    ∃ t', t.step format ids showScroll action = .ok t' ∧ Alike s' t' := by
  cases action with
  | changes change =>
      obtain ⟨frameless, rfl⟩ := onlyIf_eq_ok.mp stepped
      exact ⟨_, onlyIf_eq_ok.mpr ⟨frameless, rfl⟩,
        { alike with strip := Strip.change_project_still alike.strip change }⟩
  | presents =>
      cases stepped
      refine ⟨_, rfl, alike.strip, ?_, ?_⟩
      · simp only [presents, HeadlessRenderer.present, alike.line, alike.renderer]
      · simp only [presents, HeadlessRenderer.present, alike.line, alike.renderer, alike.logged]
  | link _ _ | hands _ | takes | notes => cases still

theorem alike_of_run {actions : List (ContentAction ι F)} (alike : Alike s t)
    (run : actions.foldlM (step format ids showScroll) s = .ok s') :
    ∃ t', (actions.filter frameless).foldlM (step format ids showScroll) t = .ok t' ∧
      Alike s' t' := by
  induction actions generalizing s t with
  | nil =>
      cases run
      exact ⟨t, rfl, alike⟩
  | cons action rest ih =>
      rw [List.foldlM_cons] at run
      obtain ⟨middle, stepped, later⟩ := bind_eq_ok run
      cases still : frameless action with
      | true =>
          obtain ⟨t', follows, alike⟩ := alike.follows still stepped
          obtain ⟨final, run, alike⟩ := ih alike later
          rw [List.filter_cons_of_pos still]
          exact ⟨final, Run.cons follows run, alike⟩
      | false =>
          rw [List.filter_cons_of_neg (by simp [still])]
          exact ih (alike.skips still stepped) later

/-- Whatever the frames of a session do, the same session without any frame logs the same
lines, hits the same surfaces, and has the same checkpoint. -/
theorem frames_do_not_interfere [RustFloat F] {viewportWidth viewportHeight : F}
    {actions : List (ContentAction ι F)}
    (reached : run format ids showScroll viewportWidth viewportHeight actions = .ok s) :
    ∃ t, run format ids showScroll viewportWidth viewportHeight (actions.filter frameless) = .ok t ∧
      t.noted = [] ∧ s.logged = t.logged ∧
      (∀ vx vy, s.strip.hitTest vx vy = t.strip.hitTest vx vy) ∧
      ∀ (sha256 : Sha256) (created : Str),
        imageFromStrip sha256 s.strip created = imageFromStrip sha256 t.strip created := by
  obtain ⟨t, quiet, alike⟩ := alike_of_run ⟨rfl, rfl, rfl⟩ reached
  refine ⟨t, quiet, ?_, alike.logged, fun vx vy => ?_, fun sha256 created => ?_⟩
  · refine @Run.invariant _ _ _ _ (fun t : Content ι F => t.noted = []) _ _ _ ?_ rfl quiet
    intro action member before after nothing stepped
    have still := (List.mem_filter.mp member).2
    cases action with
    | changes change =>
        obtain ⟨_, rfl⟩ := onlyIf_eq_ok.mp stepped
        exact nothing
    | presents =>
        cases stepped
        exact nothing
    | link _ _ | hands _ | takes | notes => cases still
  · have hits := Strip.hitTest_project (Surface.still_overlooked (F := F))
    rw [← hits, alike.strip, hits]
  · have image := Strip.imageFromStrip_project (g := Surface.still (F := F)) (fun _ => rfl) sha256
    rw [← image, alike.strip, image]

theorem sampleContent_still :
    ∃ s t, run FrameHeader.format (fun _ => sampleAnnounce.id) ExactFloat.display 1200 800
        sampleContent = .ok s ∧ s.noted ≠ [] ∧
      run FrameHeader.format (fun _ => sampleAnnounce.id) ExactFloat.display 1200 800
        (sampleContent.filter frameless) = .ok t ∧ t.noted = [] ∧ s.logged = t.logged := by
  have done : (run FrameHeader.format (fun _ => sampleAnnounce.id) ExactFloat.display 1200 800
      sampleContent).map Content.noted = .ok [⟨sampleAnnounce.id, 2⟩] := by decide
  cases reached : run FrameHeader.format (fun _ => sampleAnnounce.id) ExactFloat.display 1200 800
      sampleContent with
  | error e =>
      rw [reached] at done
      cases done
  | ok s =>
      rw [reached] at done
      have noted : s.noted = [⟨sampleAnnounce.id, 2⟩] := Except.ok.inj done
      obtain ⟨t, quiet, nothing, logged, _⟩ := frames_do_not_interfere reached
      exact ⟨s, t, rfl, noted ▸ List.cons_ne_nil _ _, quiet, nothing, logged⟩

end Content

end Simulboot
