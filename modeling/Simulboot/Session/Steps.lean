import Simulboot.Library.XmlNesting
import Simulboot.Session.Foreign

/-!
# Steps of the parser

What one event does to the parser's state, by the element it opens or ends. Runs
over any events are reasoned about from here.
-/

set_option autoImplicit false

namespace Simulboot

open Library Library.Xml

/-! ## Events by element -/

/-- The element whose tag an event is, self-closing or not. -/
def opens (event : Event) : Option Element :=
  event.tag.map fun e => .ofName (localName e.name)

def closes (event : Event) : Option Element :=
  event.ends.map fun name => .ofName (localName name)

def TextTarget.element : TextTarget → Element
  | .address => .address
  | .os => .os
  | .machine => .machine
  | .capture => .capture
  | .codec => .codec

theorem TextTarget.isText_element (target : TextTarget) : target.element.isText = true := by
  cases target <;> rfl

theorem opens_eq_some {event : Event} {kind : Element} :
    opens event = some kind ↔
      ∃ e, event.tag = some e ∧ Element.ofName (localName e.name) = kind :=
  Option.map_eq_some_iff

/-- No event is a tag and an end tag. -/
theorem closes_of_opens {event : Event} {kind : Element} (opened : opens event = some kind) :
    closes event = none := by
  cases event with
  | close name => cases opened
  | _ => rfl

theorem opens_of_closes {event : Event} {kind : Element} (closed : closes event = some kind) :
    opens event = none := by
  cases event with
  | close name => rfl
  | _ => cases closed

namespace SurfaceBuilder

/-- What a builder has from its tag. -/
def identity (b : SurfaceBuilder) : SurfaceId × Str × UInt32 :=
  (b.id, b.name, b.order)

/-- A surface is built from all that its builder holds, and nothing may miss. -/
theorem build_eq_ok {b : SurfaceBuilder} {surf : SurfaceEntry} (built : b.build = .ok surf) :
    b = { id := surf.id, name := surf.name, order := surf.order
          address := some surf.host.address, os := some surf.host.os
          machine := some surf.host.machine, capture := some surf.host.capture
          codec := some surf.codec, width := some surf.width, height := some surf.height } := by
  have some_of_present : ∀ {α : Type} {field : Str} {value : Option α} {a : α},
      present field value = .ok a → value = some a := by
    intro α field value a found
    cases value with
    | none => cases found
    | some other => exact congrArg some (Except.ok.inj found)
  unfold build at built
  obtain ⟨address, hasAddress, built⟩ := bind_eq_ok built
  obtain ⟨os, hasOs, built⟩ := bind_eq_ok built
  obtain ⟨machine, hasMachine, built⟩ := bind_eq_ok built
  obtain ⟨capture, hasCapture, built⟩ := bind_eq_ok built
  obtain ⟨codec, hasCodec, built⟩ := bind_eq_ok built
  obtain ⟨width, hasWidth, built⟩ := bind_eq_ok built
  obtain ⟨height, hasHeight, built⟩ := bind_eq_ok built
  obtain rfl := Except.ok.inj built
  dsimp only
  rw [← some_of_present hasAddress, ← some_of_present hasOs, ← some_of_present hasMachine,
    ← some_of_present hasCapture, ← some_of_present hasCodec, ← some_of_present hasWidth,
    ← some_of_present hasHeight]

end SurfaceBuilder

namespace ParseState

variable {F : Type}

/-- What character data does to the surface it is put into. -/
structure Applied (before : SurfaceBuilder) (inHost : Bool) (target : Option TextTarget)
    (after : SurfaceBuilder) : Prop where
  identity : after.identity = before.identity
  width : after.width = before.width
  address : inHost = false → after.address = before.address
  codec : target ≠ some .codec → after.codec = before.codec

theorem applyText_eq_ok {cur : Option SurfaceBuilder} {inHost : Bool}
    {target : Option TextTarget} {text : Str} {b : SurfaceBuilder}
    (applied : applyText cur inHost target text = .ok b) :
    ∃ before, cur = some before ∧ Applied before inHost target b := by
  cases cur with
  | none => cases applied
  | some before =>
      refine ⟨before, rfl, ?_⟩
      unfold applyText at applied
      dsimp only at applied
      split at applied
      · cases applied
        exact ⟨rfl, rfl, fun outside => absurd outside (by decide), fun _ => rfl⟩
      · obtain ⟨os, _, applied⟩ := bind_eq_ok applied
        cases applied
        exact ⟨rfl, rfl, fun _ => rfl, fun _ => rfl⟩
      · cases applied
        exact ⟨rfl, rfl, fun _ => rfl, fun _ => rfl⟩
      · cases applied
        exact ⟨rfl, rfl, fun _ => rfl, fun _ => rfl⟩
      · obtain ⟨codec, _, applied⟩ := bind_eq_ok applied
        cases applied
        exact ⟨rfl, rfl, fun _ => rfl, fun other => absurd rfl other⟩
      · cases applied
        exact ⟨rfl, rfl, fun _ => rfl, fun _ => rfl⟩

/-- All that an event can do to a state. -/
inductive Stepped (xml : QuickXml) (state : ParseState F) (event : Event) : ParseState F → Prop
  | session {attrs : SessionAttrs} : opens event = some .session →
      Stepped xml state event { state with sessionAttrs := attrs, textBuf := [] }
  | surface {e : BytesStart} {b : SurfaceBuilder} : event.tag = some e →
      opens event = some .surface → SurfaceBuilder.parse xml e = .ok b →
      Stepped xml state event { state with curSurface := some b, textBuf := [] }
  | host : opens event = some .host →
      Stepped xml state event { state with inHost := true, textBuf := [] }
  | target {target : TextTarget} : opens event = some target.element →
      Stepped xml state event { state with textTarget := some target, textBuf := [] }
  | dimensions {b : SurfaceBuilder} {width height : UInt32} : opens event = some .dimensions →
      state.curSurface = some b →
      Stepped xml state event { state with
        curSurface := some { b with width := some width, height := some height }, textBuf := [] }
  | strip {pos : F} : opens event = some .strip →
      Stepped xml state event { state with
        layout := { state.layout with scrollPos := pos }, textBuf := [] }
  | focus {id : SurfaceId} : opens event = some .focus →
      Stepped xml state event { state with
        layout := { state.layout with focus := some id }, textBuf := [] }
  | other : opens event = some .unknown → Stepped xml state event { state with textBuf := [] }
  | text {buf : Str} : opens event = none → closes event = none →
      Stepped xml state event { state with textBuf := buf }
  | leaveHost : closes event = some .host →
      Stepped xml state event { state with inHost := false }
  | complete {b : SurfaceBuilder} {surf : SurfaceEntry} : closes event = some .surface →
      state.curSurface = some b → b.build = .ok surf →
      Stepped xml state event { state with
        curSurface := none, surfaces := state.surfaces ++ [surf] }
  | apply {target : TextTarget} {before after : SurfaceBuilder} :
      closes event = some target.element → state.curSurface = some before →
      Applied before state.inHost state.textTarget after →
      Stepped xml state event { state with
        curSurface := some after, textTarget := none, textBuf := [] }
  | leave {kind : Element} : closes event = some kind →
      kind ∉ [Element.host, .surface, .address, .os, .machine, .capture, .codec] →
      Stepped xml state event state

variable {xml : QuickXml} {state final : ParseState F}

/-- A surface tag, self-closing or not, brings the surface in progress. -/
theorem Stepped.begun {event : Event} (stepped : Stepped xml state event final)
    (opened : opens event = some .surface) :
    ∃ e b, event.tag = some e ∧ SurfaceBuilder.parse xml e = .ok b ∧
      final = { state with curSurface := some b, textBuf := [] } := by
  have notClosed := closes_of_opens opened
  cases stepped with
  | surface tag _ parsed => exact ⟨_, _, tag, parsed, rfl⟩
  | @target target named =>
      rw [opened] at named
      cases target <;> cases named
  | _ => simp_all

/-- The end tag of a surface completes the one in progress. -/
theorem Stepped.completed {event : Event} (stepped : Stepped xml state event final)
    (closed : closes event = some .surface) :
    ∃ b surf, state.curSurface = some b ∧ b.build = .ok surf ∧
      final = { state with curSurface := none, surfaces := state.surfaces ++ [surf] } := by
  have notOpened := opens_of_closes closed
  cases stepped with
  | complete _ current built => exact ⟨_, _, current, built, rfl⟩
  | @apply target _ _ named _ _ =>
      rw [closed] at named
      cases target <;> cases named
  | _ => simp_all

variable [Zero F] [RustFloat F]

theorem openElement_stepped {event : Event} {e : BytesStart} {middle : ParseState F}
    (tag : event.tag = some e) (entered : openElement xml state e = .ok middle) :
    Stepped xml state event { middle with textBuf := [] } := by
  have named : opens event = some (.ofName (localName e.name)) := by
    rw [opens, tag]
    rfl
  unfold openElement at entered
  cases kind : Element.ofName (localName e.name) with
  | session =>
      rw [kind] at entered named
      obtain ⟨attrs, _, entered⟩ := bind_eq_ok entered
      cases entered
      exact .session named
  | surface =>
      rw [kind] at entered named
      obtain ⟨b, parsed, entered⟩ := bind_eq_ok entered
      cases entered
      exact .surface tag named parsed
  | host =>
      rw [kind] at entered named
      cases entered
      exact .host named
  | address | os | machine | capture | codec =>
      rw [kind] at entered named
      cases entered
      exact .target named
  | dimensions =>
      rw [kind] at entered named
      dsimp only at entered
      split at entered
      · cases entered
      · rename_i b current
        obtain ⟨width, _, entered⟩ := bind_eq_ok entered
        obtain ⟨height, _, entered⟩ := bind_eq_ok entered
        cases entered
        exact .dimensions named current
  | strip =>
      rw [kind] at entered named
      obtain ⟨pos, _, entered⟩ := bind_eq_ok entered
      cases entered
      exact .strip named
  | focus =>
      rw [kind] at entered named
      obtain ⟨r, _, entered⟩ := bind_eq_ok entered
      obtain ⟨id, _, entered⟩ := bind_eq_ok entered
      cases entered
      exact .focus named
  | unknown =>
      rw [kind] at entered named
      cases entered
      exact .other named

omit [Zero F] [RustFloat F] in
theorem closeElement_stepped {name : Str} (left : closeElement state name = .ok final) :
    Stepped xml state (.close name) final := by
  have named : closes (.close name) = some (.ofName (localName name)) := rfl
  have collected : ∀ target : TextTarget, closes (.close name) = some target.element → (do
        let b ← applyText state.curSurface state.inHost state.textTarget state.textBuf
        return { state with curSurface := some b, textTarget := none, textBuf := [] }) =
      Except.ok final → Stepped xml state (.close name) final := by
    intro target named left
    obtain ⟨after, applied, left⟩ := bind_eq_ok left
    obtain ⟨before, current, kept⟩ := applyText_eq_ok applied
    cases left
    exact .apply named current kept
  unfold closeElement at left
  cases kind : Element.ofName (localName name) with
  | host =>
      rw [kind] at left named
      cases left
      exact .leaveHost named
  | surface =>
      rw [kind] at left named
      dsimp only at left
      split at left
      · cases left
      · rename_i b current
        obtain ⟨surf, built, left⟩ := bind_eq_ok left
        cases left
        exact .complete named current built
  | address =>
      rw [kind] at left named
      exact collected .address named left
  | os =>
      rw [kind] at left named
      exact collected .os named left
  | machine =>
      rw [kind] at left named
      exact collected .machine named left
  | capture =>
      rw [kind] at left named
      exact collected .capture named left
  | codec =>
      rw [kind] at left named
      exact collected .codec named left
  | session | dimensions | strip | focus | unknown =>
      rw [kind] at left named
      cases left
      exact .leave named (by decide)

theorem stepped_of_step {event : Event} (stepped : step xml state event = .ok final) :
    Stepped xml state event final := by
  cases event with
  | start e | empty e =>
      obtain ⟨middle, entered, stepped⟩ := bind_eq_ok stepped
      cases stepped
      exact openElement_stepped rfl entered
  | text raw =>
      unfold step at stepped
      dsimp only at stepped
      split at stepped
      · cases stepped
        exact .text rfl rfl
      · obtain ⟨text, _, stepped⟩ := bind_eq_ok stepped
        cases stepped
        exact .text rfl rfl
  | close name => exact closeElement_stepped stepped
  | other =>
      cases stepped
      exact .text rfl rfl

end ParseState

end Simulboot
