import Simulboot.Library.Run
import Simulboot.Session

/-!
# Elements the parser does not know

The event loop reacts to local names alone. Where no text is being collected, an
event whose name it does not know leaves its state as it is.
-/

set_option autoImplicit false

namespace Simulboot

open Library Library.Xml

/-- Elements whose text the parser collects. -/
def Element.isText : Element → Bool
  | .address | .os | .machine | .capture | .codec => true
  | _ => false

namespace ParseState

/-- A name that the parser does not react to. -/
def UnknownName (name : Str) : Prop :=
  Element.ofName (localName name) = .unknown

variable {F : Type} [Zero F]

omit [Zero F] in
/-- No text is being collected, and none is left over. -/
structure Quiet (state : ParseState F) : Prop where
  textTarget : state.textTarget = none
  textBuf : state.textBuf = []

variable [RustFloat F] {xml : QuickXml}

private theorem Quiet.step_unknown {state : ParseState F} (quiet : state.Quiet) {event : Event}
    (unknown : event.Named UnknownName) : step xml state event = .ok state := by
  have cleared : { state with textBuf := [] } = state := by
    rw [← quiet.textBuf]
  cases event with
  | start e | empty e =>
      simp only [Event.Named, UnknownName] at unknown
      simp only [step, openElement, unknown, bind, Except.bind, pure, Except.pure, cleared]
  | text raw => simp only [step, quiet.textTarget]
  | close name =>
      simp only [Event.Named, UnknownName] at unknown
      simp only [step, closeElement, unknown]
  | other => rfl

theorem Quiet.run_unknown {state : ParseState F} (quiet : state.Quiet) {events : List Event}
    (unknown : ∀ event ∈ events, event.Named UnknownName) :
    events.foldlM (step xml) state = .ok state :=
  Run.fixed fun event member => quiet.step_unknown (unknown event member)

/-! ## Names without text -/

/-- A name of an element whose text is not collected. -/
def PlainName (name : Str) : Prop :=
  (Element.ofName (localName name)).isText = false

private theorem openElement_textTarget {state opened : ParseState F} {e : BytesStart}
    (plain : PlainName e.name) (accepted : openElement xml state e = .ok opened) :
    opened.textTarget = state.textTarget := by
  unfold PlainName at plain
  unfold openElement at accepted
  cases element : Element.ofName (localName e.name) <;> rw [element] at plain accepted
  case address | os | machine | capture | codec => simp [Element.isText] at plain
  case session =>
      obtain ⟨_, _, last⟩ := bind_eq_ok accepted
      cases last
      rfl
  case surface =>
      obtain ⟨_, _, last⟩ := bind_eq_ok accepted
      cases last
      rfl
  case host | unknown =>
      cases accepted
      rfl
  case dimensions =>
      cases current : state.curSurface with
      | none => simp [current] at accepted
      | some b =>
          simp only [current] at accepted
          obtain ⟨_, _, height⟩ := bind_eq_ok accepted
          obtain ⟨_, _, last⟩ := bind_eq_ok height
          cases last
          rfl
  case strip =>
      obtain ⟨_, _, last⟩ := bind_eq_ok accepted
      cases last
      rfl
  case focus =>
      obtain ⟨_, _, parsed⟩ := bind_eq_ok accepted
      obtain ⟨_, _, last⟩ := bind_eq_ok parsed
      cases last
      rfl

omit [Zero F] [RustFloat F] in
private theorem Quiet.closeElement {state closed : ParseState F} (quiet : state.Quiet) {name : Str}
    (accepted : closeElement state name = .ok closed) : closed.Quiet := by
  unfold ParseState.closeElement at accepted
  split at accepted
  · cases accepted
    exact ⟨quiet.textTarget, quiet.textBuf⟩
  · split at accepted
    · simp at accepted
    · obtain ⟨_, _, last⟩ := bind_eq_ok accepted
      cases last
      exact ⟨quiet.textTarget, quiet.textBuf⟩
  all_goals first
    | obtain ⟨_, _, last⟩ := bind_eq_ok accepted
      cases last
      exact ⟨rfl, rfl⟩
    | cases accepted
      exact quiet

theorem Quiet.step_plain {state after : ParseState F} (quiet : state.Quiet) {event : Event}
    (plain : event.Named PlainName) (accepted : step xml state event = .ok after) :
    after.Quiet := by
  cases event with
  | start e | empty e =>
      obtain ⟨opened, inside, last⟩ := bind_eq_ok accepted
      cases last
      exact ⟨(openElement_textTarget plain inside).trans quiet.textTarget, rfl⟩
  | text raw =>
      simp only [step, quiet.textTarget, Except.ok.injEq] at accepted
      exact accepted ▸ quiet
  | close name => exact quiet.closeElement accepted
  | other =>
      cases accepted
      exact quiet

omit [Zero F] [RustFloat F] in
/-- Once a codec has ended no text is collected any more. -/
theorem quiet_of_close_codec {state closed : ParseState F} {name : Str}
    (codec : Element.ofName (localName name) = .codec)
    (accepted : closeElement state name = .ok closed) : closed.Quiet := by
  unfold closeElement at accepted
  rw [codec] at accepted
  obtain ⟨_, _, last⟩ := bind_eq_ok accepted
  cases last
  exact ⟨rfl, rfl⟩

end ParseState

end Simulboot
