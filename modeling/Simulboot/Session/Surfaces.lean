import Simulboot.Session.NormalForm
import Simulboot.Session.Steps

/-!
# Surfaces of arbitrary documents

What the parser keeps of the surface elements of a document that it accepts,
however its events are ordered.
-/

set_option autoImplicit false

namespace Simulboot

open Library Library.Xml

/-! ## Surface elements -/

def surfaceTags (events : List Event) : List BytesStart :=
  (events.filterMap Event.tag).filter fun e => Element.ofName (localName e.name) = .surface

/-- A host tag, self-closing or not, that no host end tag follows. -/
def HostInForce (events : List Event) : Prop :=
  ∃ before event after, events = before ++ event :: after ∧ opens event = some .host ∧
    ∀ later ∈ after, closes later ≠ some .host

def Holds (part : Element) (inner : List Event) : Prop :=
  ∃ event ∈ inner, opens event = some part

/-- The surface carries what its own tag says. -/
structure ReadFrom (xml : QuickXml) (e : BytesStart) (surf : SurfaceEntry) : Prop where
  id : ∃ ref, attrStr xml e "id".toList = .ok ref ∧ parseSurfaceId ref = .ok surf.id
  name : attrStr xml e "name".toList = .ok surf.name
  order : attrU32 xml e "order".toList = .ok surf.order

/-- No surface element closes itself. -/
def NoneSelfClosing (events : List Event) : Prop :=
  ∀ event ∈ events, opens event = some .surface → ∃ e, event = .start e

/-- Every surface element is closed, and its inside, with the events before it, is of
some kind. -/
def EachSurface (kind : List Event → List Event → Prop) (events : List Event) : Prop :=
  ∀ before e after, events = before ++ .start e :: after → opens (.start e) = some .surface →
    ∃ inner, content 0 after = some inner ∧ kind before inner

/-- No surface of a document is dropped: the surfaces read are those of its surface
tags, and all of these are closed elements with a host, a codec and dimensions. -/
structure SurfacesKept (xml : QuickXml) (events : List Event) (surfaces : List SurfaceEntry) :
    Prop where
  matched : ∃ read, read.Perm surfaces ∧ List.Forall₂ (ReadFrom xml) (surfaceTags events) read
  noneSelfClosing : NoneSelfClosing events
  complete : EachSurface (fun _ inner => Holds .host inner ∧ Holds .codec inner ∧
    Holds .dimensions inner) events

private theorem readFrom_of_parse {xml : QuickXml} {e : BytesStart} {b : SurfaceBuilder}
    {surf : SurfaceEntry} (parsed : SurfaceBuilder.parse xml e = .ok b)
    (same : b.identity = (surf.id, surf.name, surf.order)) : ReadFrom xml e surf := by
  unfold SurfaceBuilder.parse at parsed
  obtain ⟨ref, readRef, parsed⟩ := bind_eq_ok parsed
  obtain ⟨id, readId, parsed⟩ := bind_eq_ok parsed
  obtain ⟨name, readName, parsed⟩ := bind_eq_ok parsed
  obtain ⟨order, readOrder, parsed⟩ := bind_eq_ok parsed
  cases parsed
  obtain ⟨rfl, rest⟩ := Prod.mk.inj same
  obtain ⟨rfl, rfl⟩ := Prod.mk.inj rest
  exact ⟨⟨ref, readRef, readId⟩, readName, readOrder⟩

private theorem surfaceTags_cons_of_ne {event : Event} {rest : List Event}
    (other : opens event ≠ some .surface) : surfaceTags (event :: rest) = surfaceTags rest := by
  unfold surfaceTags
  cases tag : event.tag with
  | none => rw [List.filterMap_cons_none tag]
  | some e =>
      rw [List.filterMap_cons_some tag, List.filter_cons_of_neg]
      intro named
      exact other (opens_eq_some.mpr ⟨e, tag, of_decide_eq_true named⟩)

private theorem surfaceTags_append_of_ne {inner rest : List Event}
    (others : ∀ event ∈ inner, opens event ≠ some .surface) :
    surfaceTags (inner ++ rest) = surfaceTags rest := by
  induction inner with
  | nil => rfl
  | cons event more ih =>
      obtain ⟨own, later⟩ := List.forall_mem_cons.mp others
      rw [List.cons_append, surfaceTags_cons_of_ne own, ih later]

namespace ParseState

variable {F : Type} {xml : QuickXml} {state final : ParseState F}

/-! ## What one step keeps -/

/-- The surfaces are untouched, and the one in progress is still the same one. -/
structure SameSurfaces (before after : ParseState F) : Prop where
  surfaces : after.surfaces = before.surfaces
  current : after.curSurface.map SurfaceBuilder.identity =
    before.curSurface.map SurfaceBuilder.identity

private theorem Stepped.sameSurfaces {event : Event} (stepped : Stepped xml state event final)
    (opened : opens event ≠ some .surface) (closed : closes event ≠ some .surface) :
    SameSurfaces state final := by
  cases stepped with
  | surface _ named _ => exact absurd named opened
  | complete named _ _ => exact absurd named closed
  | dimensions _ current => exact ⟨rfl, by rw [current]; rfl⟩
  | apply _ current applied =>
      refine ⟨rfl, ?_⟩
      rw [current]
      exact congrArg some applied.identity
  | _ => exact ⟨rfl, rfl⟩

/-- How many surfaces are in progress. -/
def held (state : ParseState F) : Nat :=
  state.curSurface.toList.length

private theorem SameSurfaces.held_eq (same : SameSurfaces state final) : final.held = state.held := by
  have lengths := congrArg (fun o => o.toList.length) same.current
  simp only [Option.toList_map, List.length_map] at lengths
  exact lengths

private theorem Stepped.held_le {event : Event} (stepped : Stepped xml state event final) :
    final.held + (if closes event = some .surface then 1 else 0) ≤
      state.held + if opens event = some .surface then 1 else 0 := by
  by_cases opened : opens event = some .surface
  · rw [closes_of_opens opened, if_pos opened, if_neg (by simp)]
    have bound : final.held ≤ 1 := by
      unfold held
      cases final.curSurface <;> simp
    omega
  · rw [if_neg opened]
    by_cases closed : closes event = some .surface
    · rw [if_pos closed]
      obtain ⟨b, surf, current, _, rfl⟩ := stepped.completed closed
      simp [held, current]
    · rw [if_neg closed]
      exact (stepped.sameSurfaces opened closed).held_eq.le

private theorem Stepped.inHost_iff {event : Event} (stepped : Stepped xml state event final) :
    final.inHost = true ↔
      opens event = some .host ∨ (state.inHost = true ∧ closes event ≠ some .host) := by
  cases stepped with
  | leaveHost named => simp [named, opens_of_closes named]
  | complete named _ _ => simp [named, opens_of_closes named]
  | leave named other =>
      have outside : closes event ≠ some .host := by
        rw [named]
        rintro ⟨rfl⟩
        exact other (by simp)
      simp [outside, opens_of_closes named]
  | @apply target _ _ named _ _ =>
      have outside : closes event ≠ some .host := by
        rw [named]
        cases target <;> decide
      simp [outside, opens_of_closes named]
  | @target target named =>
      have outside : opens event ≠ some .host := by
        rw [named]
        cases target <;> decide
      simp [outside, closes_of_opens named]
  | text opened closed => simp [opened, closed]
  | session named => simp [named, closes_of_opens named]
  | surface _ named _ => simp [named, closes_of_opens named]
  | host named => simp [named]
  | dimensions named _ => simp [named, closes_of_opens named]
  | strip named => simp [named, closes_of_opens named]
  | focus named => simp [named, closes_of_opens named]
  | other named => simp [named, closes_of_opens named]

/-! ## What stays missing -/

private theorem Stepped.lacks {α : Type} {event : Event} (stepped : Stepped xml state event final)
    {part : SurfaceBuilder → Option α} (other : opens event ≠ some .surface)
    (sized : opens event = some .dimensions → ∀ (b : SurfaceBuilder) (width height : UInt32),
      part { b with width := some width, height := some height } = part b)
    (collected : ∀ (target : TextTarget) (before after : SurfaceBuilder),
      closes event = some target.element → Applied before state.inHost state.textTarget after →
        part after = part before)
    (missing : ∀ b, state.curSurface = some b → part b = none) :
    ∀ b, final.curSurface = some b → part b = none := by
  intro b current
  cases stepped with
  | surface _ named _ => exact absurd named other
  | dimensions named before =>
      obtain rfl := Option.some.inj current
      rw [sized named, missing _ before]
  | complete _ _ _ => cases current
  | apply named before applied =>
      obtain rfl := Option.some.inj current
      rw [collected _ _ _ named applied, missing _ before]
  | _ => exact missing b current

private theorem Stepped.collecting {event : Event} (stepped : Stepped xml state event final)
    (absent : opens event ≠ some .codec) (collects : final.textTarget = some .codec) :
    state.textTarget = some .codec ∧ ∀ target : TextTarget, opens event ≠ some target.element := by
  have apart : ∀ kind, opens event = some kind → kind.isText = false →
      ∀ target : TextTarget, opens event ≠ some target.element := by
    intro kind named other target textual
    obtain rfl := Option.some.inj (named.symm.trans textual)
    exact absurd target.isText_element (Bool.eq_false_iff.mp other)
  have ended : opens event = none → ∀ target : TextTarget, opens event ≠ some target.element := by
    intro none target textual
    rw [none] at textual
    cases textual
  cases stepped with
  | target named =>
      obtain rfl := Option.some.inj collects
      exact absurd named absent
  | apply _ _ _ => cases collects
  | session named => exact ⟨collects, apart _ named rfl⟩
  | surface _ named _ => exact ⟨collects, apart _ named rfl⟩
  | host named => exact ⟨collects, apart _ named rfl⟩
  | dimensions named _ => exact ⟨collects, apart _ named rfl⟩
  | strip named => exact ⟨collects, apart _ named rfl⟩
  | focus named => exact ⟨collects, apart _ named rfl⟩
  | other named => exact ⟨collects, apart _ named rfl⟩
  | text none _ => exact ⟨collects, ended none⟩
  | leaveHost named => exact ⟨collects, ended (opens_of_closes named)⟩
  | complete named _ _ => exact ⟨collects, ended (opens_of_closes named)⟩
  | leave named _ => exact ⟨collects, ended (opens_of_closes named)⟩

/-! ## Along a run -/

section

variable [Zero F] [RustFloat F] {events inner : List Event}

private theorem run_sameSurfaces (run : events.foldlM (step xml) state = .ok final)
    (others : ∀ event ∈ events, opens event ≠ some .surface ∧ closes event ≠ some .surface) :
    SameSurfaces state final := by
  have kept : ∀ event ∈ events, ∀ before after, SameSurfaces state before →
      step xml before event = .ok after → SameSurfaces state after := by
    intro event member before after same stepped
    obtain ⟨opened, closed⟩ := others event member
    have next := (stepped_of_step stepped).sameSurfaces opened closed
    exact ⟨next.surfaces.trans same.surfaces, next.current.trans same.current⟩
  exact Run.invariant kept ⟨rfl, rfl⟩ run

private theorem run_held_le (run : events.foldlM (step xml) state = .ok final) :
    final.held + events.countP (fun event => closes event = some .surface) ≤
      state.held + events.countP fun event => opens event = some .surface := by
  induction events generalizing state with
  | nil =>
      cases run
      exact le_refl _
  | cons event rest ih =>
      obtain ⟨middle, stepped, later⟩ := bind_eq_ok run
      have first := (stepped_of_step stepped).held_le
      have remaining := ih later
      rw [List.countP_cons, List.countP_cons]
      simp only [decide_eq_true_eq]
      omega

private theorem hostInForce_cons {event : Event} {rest : List Event} :
    HostInForce (event :: rest) ↔ HostInForce rest ∨
      (opens event = some .host ∧ ∀ later ∈ rest, closes later ≠ some .host) := by
  constructor
  · rintro ⟨before, host, after, split, opened, open_⟩
    cases before with
    | nil =>
        obtain ⟨rfl, rfl⟩ := List.cons.inj split
        exact .inr ⟨opened, open_⟩
    | cons first more => exact .inl ⟨more, host, after, (List.cons.inj split).2, opened, open_⟩
  · rintro (⟨before, host, after, rfl, opened, open_⟩ | ⟨opened, open_⟩)
    · exact ⟨event :: before, host, after, rfl, opened, open_⟩
    · exact ⟨[], event, rest, rfl, opened, open_⟩

private theorem run_inHost_iff (run : events.foldlM (step xml) state = .ok final) :
    final.inHost = true ↔ HostInForce events ∨
      (state.inHost = true ∧ ∀ event ∈ events, closes event ≠ some .host) := by
  induction events generalizing state with
  | nil =>
      cases run
      simp [HostInForce]
  | cons event rest ih =>
      obtain ⟨middle, stepped, later⟩ := bind_eq_ok run
      rw [ih later, (stepped_of_step stepped).inHost_iff, hostInForce_cons, List.forall_mem_cons]
      tauto

private theorem countP_closes {left : List Str} (nested : nesting [] events = some left)
    (starts : NoneSelfClosing events) :
    left.countP (fun name => Element.ofName (localName name) = .surface) +
        events.countP (fun event => closes event = some .surface) =
      events.countP fun event => opens event = some .surface := by
  have counted := count_ends (fun name => Element.ofName (localName name) = .surface) [] nested
  have closing : ∀ event : Event, event.ends.any
      (fun name => Element.ofName (localName name) = .surface) =
        decide (closes event = some .surface) := by
    intro event
    unfold closes
    cases event.ends <;> simp
  have opening : ∀ event ∈ events, event.begins.any
      (fun name => Element.ofName (localName name) = .surface) = true ↔
        decide (opens event = some .surface) = true := by
    intro event member
    cases event with
    | start e => simp [Event.begins, opens, Event.tag]
    | empty e =>
        have other : opens (.empty e) ≠ some .surface := by
          intro opened
          obtain ⟨_, wrong⟩ := starts _ member opened
          cases wrong
        simp [Event.begins, other]
    | _ => simp [Event.begins, opens, Event.tag]
  rw [List.countP_nil, Nat.zero_add, List.countP_congr opening] at counted
  simpa only [closing] using counted

/-! ## One surface element -/

/-- A surface that is still in progress at its end tag has no other one in it: behind
an inner tag, which takes its place, there would be an end tag too many. -/
theorem no_inner_surface (run : inner.foldlM (step xml) state = .ok final)
    (inProgress : final.held = 1) (nested : nesting [] inner = some [])
    (starts : NoneSelfClosing inner) :
    ∀ event ∈ inner, opens event ≠ some .surface ∧ closes event ≠ some .surface := by
  have balanced := countP_closes nested starts
  rw [List.countP_nil, Nat.zero_add] at balanced
  have never : ∀ event ∈ inner, opens event ≠ some .surface := by
    intro event member opened
    obtain ⟨front, rest, rfl⟩ := List.append_of_mem member
    obtain ⟨middle, _, later⟩ := Run.append_eq_ok run
    obtain ⟨next, stepped, runRest⟩ := bind_eq_ok later
    have frontCount : front.countP (fun event => closes event = some .surface) ≤
        front.countP fun event => opens event = some .surface := by
      rw [nesting_append] at nested
      obtain ⟨left, nestedFront, _⟩ := Option.bind_eq_some_iff.mp nested
      have counted := countP_closes nestedFront fun event member =>
        starts event (List.mem_append_left _ member)
      omega
    have restCount := run_held_le runRest
    have replaced : next.held = 1 := by
      obtain ⟨e, b, _, _, rfl⟩ := (stepped_of_step stepped).begun opened
      rfl
    rw [List.countP_append, List.countP_append, List.countP_cons, List.countP_cons,
      closes_of_opens opened, opened] at balanced
    simp only [reduceCtorEq, decide_false, Bool.false_eq_true, if_false, decide_true, if_true]
      at balanced
    omega
  have noneOpened : inner.countP (fun event => opens event = some .surface) = 0 := by
    rw [List.countP_eq_zero]
    intro event member
    simpa using never event member
  rw [noneOpened, List.countP_eq_zero] at balanced
  exact fun event member => ⟨never event member, by simpa using balanced event member⟩

private theorem run_codec {opened left : List Str} (nested : nesting opened events = some left)
    (run : events.foldlM (step xml) state = .ok final)
    (absent : ∀ event ∈ events, opens event ≠ some .surface ∧ opens event ≠ some .codec)
    (idle : state.textTarget = some .codec → ∀ name ∈ opened, ∀ target : TextTarget,
      Element.ofName (localName name) ≠ target.element)
    (missing : ∀ b, state.curSurface = some b → b.codec = none) :
    ∀ b, final.curSurface = some b → b.codec = none := by
  induction events generalizing opened state with
  | nil =>
      cases run
      exact missing
  | cons event rest ih =>
      obtain ⟨⟨noSurface, noCodec⟩, others⟩ := List.forall_mem_cons.mp absent
      obtain ⟨middle, first, later⟩ := bind_eq_ok run
      have stepped := stepped_of_step first
      have collecting : ∀ name ∈ opened, middle.textTarget = some .codec →
          ∀ target : TextTarget, Element.ofName (localName name) ≠ target.element :=
        fun name member collects => idle (stepped.collecting noCodec collects).1 name member
      have still : ∀ elsewhere : state.textTarget = some .codec →
          ∀ target : TextTarget, closes event ≠ some target.element,
          ∀ b, middle.curSurface = some b → b.codec = none := fun elsewhere =>
        stepped.lacks noSurface (fun _ _ _ _ => rfl)
          (fun target _ _ ended applied => applied.codec fun collects =>
            elsewhere collects target ended) missing
      have neverEnds : closes event = none → state.textTarget = some .codec →
          ∀ target : TextTarget, closes event ≠ some target.element := by
        intro none _ target ended
        rw [none] at ended
        cases ended
      cases event with
      | start e =>
          have inside : nesting (e.name :: opened) rest = some left := nested
          refine ih inside later others ?_ (still (neverEnds rfl))
          intro collects name member
          rcases List.mem_cons.mp member with rfl | outer
          · intro target named
            exact (stepped.collecting noCodec collects).2 target (congrArg some named)
          · exact collecting name outer collects
      | close name =>
          cases opened with
          | nil => exact absurd nested (by simp [nesting])
          | cons innermost outer =>
              rw [nesting] at nested
              split at nested
              · rename_i same
                refine ih nested later others
                  (fun collects name member => collecting name (.tail _ member) collects)
                  (still fun collects target ended => ?_)
                refine idle collects innermost (.head _) target ?_
                rw [same]
                exact Option.some.inj ended
              · cases nested
      | _ =>
          have inside : nesting opened rest = some left := nested
          exact ih inside later others (fun collects name member => collecting name member collects)
            (still (neverEnds rfl))

private theorem run_dimensions (run : events.foldlM (step xml) state = .ok final)
    (absent : ∀ event ∈ events, opens event ≠ some .surface ∧ opens event ≠ some .dimensions)
    (missing : ∀ b, state.curSurface = some b → b.width = none) :
    ∀ b, final.curSurface = some b → b.width = none := by
  have kept : ∀ event ∈ events, ∀ before after : ParseState F,
      (∀ b, before.curSurface = some b → b.width = none) → step xml before event = .ok after →
        ∀ b, after.curSurface = some b → b.width = none := by
    intro event member before after missing stepped
    obtain ⟨noSurface, noDimensions⟩ := absent event member
    exact (stepped_of_step stepped).lacks noSurface (fun sized => absurd sized noDimensions)
      (fun _ _ _ _ applied => applied.width) missing
  exact Run.invariant kept missing run

private theorem run_host (run : events.foldlM (step xml) state = .ok final)
    (absent : ∀ event ∈ events, opens event ≠ some .surface ∧ opens event ≠ some .host)
    (outside : state.inHost = false)
    (missing : ∀ b, state.curSurface = some b → b.address = none) :
    ∀ b, final.curSurface = some b → b.address = none := by
  have kept : ∀ event ∈ events, ∀ before after : ParseState F,
      (before.inHost = false ∧ ∀ b, before.curSurface = some b → b.address = none) →
        step xml before event = .ok after →
          after.inHost = false ∧ ∀ b, after.curSurface = some b → b.address = none := by
    rintro event member before after ⟨outside, missing⟩ first
    obtain ⟨noSurface, noHost⟩ := absent event member
    have stepped := stepped_of_step first
    refine ⟨?_, stepped.lacks noSurface (fun _ _ _ _ => rfl)
      (fun _ _ _ _ applied => applied.address outside) missing⟩
    rw [← Bool.not_eq_true, stepped.inHost_iff]
    simp [noHost, outside]
  exact (Run.invariant kept ⟨outside, missing⟩ run).2

/-- What reading a surface element does, and what must have stood in it. -/
structure SurfaceRead (xml : QuickXml) (e : BytesStart) (inner : List Event)
    (before after : ParseState F) : Prop where
  alone : ∀ event ∈ inner, opens event ≠ some .surface
  current : after.curSurface = none
  added : ∃ surf, after.surfaces = before.surfaces ++ [surf] ∧ ReadFrom xml e surf
  host : before.inHost = false → Holds .host inner
  codec : Holds .codec inner
  dimensions : Holds .dimensions inner

private theorem fresh_of_parse {e : BytesStart} {b : SurfaceBuilder}
    (parsed : SurfaceBuilder.parse xml e = .ok b) :
    b.address = none ∧ b.codec = none ∧ b.width = none := by
  unfold SurfaceBuilder.parse at parsed
  obtain ⟨_, _, parsed⟩ := bind_eq_ok parsed
  obtain ⟨_, _, parsed⟩ := bind_eq_ok parsed
  obtain ⟨_, _, parsed⟩ := bind_eq_ok parsed
  obtain ⟨_, _, parsed⟩ := bind_eq_ok parsed
  cases parsed
  exact ⟨rfl, rfl, rfl⟩

private theorem surfaceRead_of_run {e : BytesStart} (opened : opens (.start e) = some .surface)
    (nested : nesting [] inner = some []) (starts : NoneSelfClosing inner)
    (run : (Event.start e :: inner ++ [Event.close e.name]).foldlM (step xml) state = .ok final) :
    SurfaceRead xml e inner state final := by
  obtain ⟨before, runTag, runClose⟩ := Run.append_eq_ok run
  obtain ⟨entered, first, runInner⟩ := bind_eq_ok runTag
  obtain ⟨after, last, nothing⟩ := bind_eq_ok runClose
  cases nothing
  obtain ⟨e', b, tag, parsed, rfl⟩ := (stepped_of_step first).begun opened
  obtain rfl := Option.some.inj tag
  have closed : closes (.close e.name) = some .surface := opened
  obtain ⟨done, surf, current, built, rfl⟩ := (stepped_of_step last).completed closed
  have inProgress : before.held = 1 := by simp [held, current]
  have others := no_inner_surface runInner inProgress nested starts
  have same := run_sameSurfaces runInner others
  have identity : done.identity = b.identity := by
    have ids := same.current
    rw [current] at ids
    exact Option.some.inj ids
  have whole := SurfaceBuilder.build_eq_ok built
  obtain ⟨noAddress, noCodec, noWidth⟩ := fresh_of_parse parsed
  have held_of : ∀ part : Element,
      ((∀ event ∈ inner, opens event ≠ some .surface ∧ opens event ≠ some part) → False) →
        Holds part inner := by
    intro part impossible
    by_contra absent
    refine impossible fun event member => ⟨(others event member).1, fun found => ?_⟩
    exact absent ⟨event, member, found⟩
  refine ⟨fun event member => (others event member).1, rfl, ⟨surf, ?_, ?_⟩, fun outside => ?_,
    ?_, ?_⟩
  · rw [same.surfaces]
  · refine readFrom_of_parse parsed (identity.symm.trans ?_)
    rw [whole]
    rfl
  · refine held_of .host fun absent => ?_
    have missing := run_host runInner absent outside (by simpa using noAddress) done current
    rw [whole] at missing
    cases missing
  · refine held_of .codec fun absent => ?_
    have missing := run_codec nested runInner absent (by simp) (by simpa using noCodec) done
      current
    rw [whole] at missing
    cases missing
  · refine held_of .dimensions fun absent => ?_
    have missing := run_dimensions runInner absent (by simpa using noWidth) done current
    rw [whole] at missing
    cases missing

private theorem surfaceRead_front {e : BytesStart} {rest : List Event} {outer left : List Str}
    (opened : opens (.start e) = some .surface) (found : content 0 rest = some inner)
    (nested : nesting outer (.start e :: rest) = some left)
    (starts : NoneSelfClosing (.start e :: rest))
    (run : (Event.start e :: rest).foldlM (step xml) state = .ok final) :
    ∃ after middle, rest = inner ++ .close e.name :: after ∧ SurfaceRead xml e inner state middle ∧
      nesting outer after = some left ∧ after.foldlM (step xml) middle = .ok final := by
  have within : (nesting ([] ++ e.name :: outer) rest).isSome = true := by
    rw [List.nil_append]
    exact Option.isSome_iff_exists.mpr ⟨left, nested⟩
  obtain ⟨⟨after, rfl⟩, closed⟩ := content_split [] outer within found
  have whole : Event.start e :: (inner ++ .close e.name :: after) =
      (.start e :: inner ++ [.close e.name]) ++ after := by simp
  rw [whole] at run
  obtain ⟨middle, element, later⟩ := Run.append_eq_ok run
  refine ⟨after, middle, rfl, surfaceRead_of_run opened closed (fun event member => ?_) element,
    ?_, later⟩
  · exact starts event (.tail _ (List.mem_append_left _ member))
  · have between := nesting_under [] (e.name :: outer) closed
    rw [List.nil_append] at between
    change nesting (e.name :: outer) (inner ++ .close e.name :: after) = some left at nested
    rw [nesting_append, between, Option.bind_some, nesting, if_pos rfl] at nested
    exact nested

/-- Surfaces are read one for each tag, in the order of the tags. -/
theorem run_surfaceTags {outer left : List Str} (nested : nesting outer events = some left)
    (starts : NoneSelfClosing events)
    (ended : EachSurface (fun _ _ => True) events)
    (run : events.foldlM (step xml) state = .ok final) (outside : state.curSurface = none) :
    ∃ read, final.surfaces = state.surfaces ++ read ∧
      List.Forall₂ (ReadFrom xml) (surfaceTags events) read := by
  induction size : events.length using Nat.strong_induction_on generalizing events state outer with
  | _ count ih =>
      cases events with
      | nil =>
          cases run
          exact ⟨[], (List.append_nil _).symm, .nil⟩
      | cons event rest =>
          by_cases opened : opens event = some .surface
          · obtain ⟨e, rfl⟩ := starts event (.head _) opened
            obtain ⟨inner, found, _⟩ := ended [] e rest rfl opened
            obtain ⟨after, middle, rfl, element, nestedAfter, runAfter⟩ :=
              surfaceRead_front opened found nested starts run
            obtain ⟨surf, added, own⟩ := element.added
            have shorter : after.length < count := by
              simp only [List.length_cons, List.length_append] at size
              omega
            obtain ⟨read, appended, others⟩ := ih after.length shorter nestedAfter
              (fun event member => starts event (by simp [member]))
              (fun before e' rest split opened' => ended
                (.start e :: (inner ++ .close e.name :: before)) e' rest (by simp [split]) opened')
              runAfter element.current rfl
            refine ⟨surf :: read, by rw [appended, added]; simp, ?_⟩
            have tags : surfaceTags (.start e :: (inner ++ .close e.name :: after)) =
                e :: surfaceTags after := by
              have own : Element.ofName (localName e.name) = .surface := Option.some.inj opened
              have first : ∀ events, surfaceTags (.start e :: events) = e :: surfaceTags events := by
                intro events
                simp [surfaceTags, Event.tag, own]
              rw [first, surfaceTags_append_of_ne element.alone]
              rfl
            rw [tags]
            exact .cons own others
          · obtain ⟨middle, first, later⟩ := bind_eq_ok run
            have stepped := stepped_of_step first
            have closed : closes event ≠ some .surface := by
              intro closed
              obtain ⟨b, _, current, _, _⟩ := stepped.completed closed
              rw [outside] at current
              cases current
            have same := stepped.sameSurfaces opened closed
            have outsideStill : middle.curSurface = none := by
              have current := same.current
              rw [outside] at current
              simpa using current
            rw [← List.singleton_append, nesting_append] at nested
            obtain ⟨between, _, nestedRest⟩ := Option.bind_eq_some_iff.mp nested
            have shorter : rest.length < count := by
              rw [← size]
              exact Nat.lt_succ_self _
            obtain ⟨read, appended, others⟩ := ih rest.length shorter nestedRest
              (fun event member => starts event (.tail _ member))
              (fun before e after split => ended (event :: before) e after (by rw [split]; rfl))
              later outsideStill rfl
            refine ⟨read, by rw [appended, same.surfaces], ?_⟩
            rwa [surfaceTags_cons_of_ne opened]

end

end ParseState

/-! ## Accepted documents -/

section

variable {F : Type} [Zero F] [RustFloat F] {xml : QuickXml}

/-- An accepted document keeps its surfaces exactly when each of their elements has an
end tag and, where a host tag is still in force before it, a host tag of its own. -/
theorem surfacesKept_iff (checks : ChecksEnds xml) {text : Str} {img : SessionImage F}
    (accepted : SessionImage.fromXml xml text = .ok img) :
    SurfacesKept xml (xml.read text).events img.surfaces ↔
      NoneSelfClosing (xml.read text).events ∧
        EachSurface (fun before inner => HostInForce before → Holds .host inner)
          (xml.read text).events := by
  obtain ⟨left, nested⟩ := Option.isSome_iff_exists.mp (checks.nested text)
  obtain ⟨final, run, finished⟩ := bind_eq_ok accepted
  constructor
  · intro kept
    refine ⟨kept.noneSelfClosing, fun before e after split opened => ?_⟩
    obtain ⟨inner, found, host, _, _⟩ := kept.complete before e after split opened
    exact ⟨inner, found, fun _ => host⟩
  · rintro ⟨starts, ended⟩
    refine ⟨?_, starts, fun before e after split opened => ?_⟩
    · obtain ⟨read, appended, own⟩ := ParseState.run_surfaceTags nested starts
        (fun before e after split opened => by
          obtain ⟨inner, found, _⟩ := ended before e after split opened
          exact ⟨inner, found, trivial⟩) run rfl
      refine ⟨read, ?_, own⟩
      have sorted : img.surfaces = final.surfaces.insertionSort fun a b => a.order ≤ b.order := by
        cases ending : (xml.read text).ending with
        | error e =>
            rw [ending] at finished
            cases finished
        | ok _ =>
            rw [ending] at finished
            unfold ParseState.finish at finished
            dsimp only at finished
            split at finished
            · cases finished
            · cases finished
              rfl
      rw [sorted, appended]
      exact (List.perm_insertionSort _ _).symm
    · obtain ⟨inner, found, host⟩ := ended before e after split opened
      refine ⟨inner, found, ?_⟩
      rw [split] at nested run starts
      rw [nesting_append] at nested
      obtain ⟨outer, _, nestedRest⟩ := Option.bind_eq_some_iff.mp nested
      obtain ⟨middle, runBefore, later⟩ := Run.append_eq_ok run
      obtain ⟨_, _, _, element, _, _⟩ := ParseState.surfaceRead_front opened found nestedRest
        (fun event member => starts event (List.mem_append_right _ member)) later
      refine ⟨?_, element.codec, element.dimensions⟩
      cases inHost : middle.inHost with
      | false => exact element.host inHost
      | true =>
          rcases (ParseState.run_inHost_iff runBefore).mp inHost with inForce | ⟨initial, _⟩
          · exact host inForce
          · cases initial

end

theorem tidySession_surfacesKept_iff :
    SurfacesKept Scanner.quickXml
        (Scanner.quickXml.read (tidySession.toXml sha256Digest)).events
        (tidySession.normalForm (some (tidySession.id.getD
          (tidySession.computeId sha256Digest)))).surfaces ↔
      NoneSelfClosing (Scanner.quickXml.read (tidySession.toXml sha256Digest)).events ∧
        EachSurface (fun before inner => HostInForce before → Holds .host inner)
          (Scanner.quickXml.read (tidySession.toXml sha256Digest)).events :=
  surfacesKept_iff Scanner.checksEnds
    (fromXml_toXml Scanner.documented ExactFloat.documented sha256Digest tidySession rfl)

/-! ## A surface that closes itself -/

/-- A session with the tag of a surface, closed by its own slash. -/
def selfClosing (created : Str) (surf : SurfaceEntry) : Str :=
  ("<session created=\"".toList ++ escapeAttr created ++ "\">".toList) ++
    ("<surface id=\"".toList ++ escapeAttr (surfaceIdToStr surf.id) ++ "\" name=\"".toList ++
      escapeAttr surf.name ++ "\" order=\"".toList ++ displayU32 surf.order ++ "\"/>".toList) ++
    "</session>".toList

private theorem delivers_selfClosing (created : Str) (surf : SurfaceEntry) :
    Delivers (selfClosing created surf)
      [.start (plainStart "session".toList [("created".toList, escapeAttr created)]),
        .empty (surfaceStart surf), .close "session".toList] := by
  have session : (Tag.plain "session".toList
      [("created".toList, escapeAttr created)]).WellFormed := by
    refine literalTag_wellFormed ["created".toList] rfl (by decide) (by decide) ?_
    intro pair member
    obtain rfl := List.mem_singleton.mp member
    exact quote_not_mem_escaped _
  refine .enclosed _ _ session ?_ rfl (.plainEmpty (surfaceTag_wellFormed surf) ?_)
  · simp [Tag.plain, Tag.render, AttributeSource.plain, AttributeSource.render, Quote.char]
  · simp [Tag.plain, Tag.render, AttributeSource.plain, AttributeSource.render, Quote.char]

private theorem fromXml_selfClosing {F : Type} [Zero F] [RustFloat F] {xml : QuickXml}
    (documented : Documented xml) (created : Str) (surf : SurfaceEntry) :
    SessionImage.fromXml xml (selfClosing created surf) =
      .ok (SessionImage.new (F := F) created [] .default) := by
  have head : (selfClosing created surf).head? ≠ some '\uFEFF' := by
    have first : (selfClosing created surf).head? = some '<' := rfl
    rw [first]
    decide
  have attrs : SessionAttrs.parse xml
      (plainStart "session".toList [("created".toList, escapeAttr created)]) =
        .ok { SessionAttrs.default with created := some created } := by
    simp only [SessionAttrs.parse, plainStart, List.map_cons, List.map_nil, List.foldlM_cons,
      List.foldlM_nil, SessionAttrs.parseAttr, unescape_escapeAttr documented, bind, Except.bind]
    rfl
  have session : Element.ofName (localName
      (plainStart "session".toList [("created".toList, escapeAttr created)]).name) = .session := rfl
  have surface : Element.ofName (localName (surfaceStart surf).name) = .surface := rfl
  have closing : Element.ofName (localName "session".toList) = .session := rfl
  unfold SessionImage.fromXml
  rw [(delivers_selfClosing created surf).read documented head]
  simp only [parseReading, List.foldlM_cons, List.foldlM_nil, ParseState.step,
    ParseState.openElement, ParseState.closeElement, session, surface, closing, attrs,
    ParseState.parse_surfaceStart documented, bind, Except.bind, pure, Except.pure]
  rfl

def lostSurface : SurfaceEntry :=
  { id := surfaceIdFromSeed sha256Digest "mac:window:Mail".toList
    name := "Mail".toList
    order := 0
    host :=
      { address := "100.0.0.1:7001".toList, os := .macOS, machine := "mac".toList
        capture := "window:Mail".toList }
    codec := .h265
    width := 1280
    height := 800 }

theorem lostSurface_not_kept :
    let text := selfClosing "2026-06-28T19:44:09Z".toList lostSurface
    SessionImage.fromXml Scanner.quickXml text =
        .ok (SessionImage.new (F := ℚ) "2026-06-28T19:44:09Z".toList [] .default) ∧
      surfaceTags (Scanner.quickXml.read text).events = [surfaceStart lostSurface] ∧
      ¬ SurfacesKept Scanner.quickXml (Scanner.quickXml.read text).events [] := by
  have head : (selfClosing "2026-06-28T19:44:09Z".toList lostSurface).head? ≠ some '\uFEFF' := by
    have first : (selfClosing "2026-06-28T19:44:09Z".toList lostSurface).head? = some '<' := rfl
    rw [first]
    decide
  have read := (delivers_selfClosing "2026-06-28T19:44:09Z".toList lostSurface).read
    Scanner.documented head
  refine ⟨fromXml_selfClosing Scanner.documented _ _, by rw [read]; rfl, fun kept => ?_⟩
  have starts := kept.noneSelfClosing
  rw [read] at starts
  obtain ⟨e, wrong⟩ := starts (.empty (surfaceStart lostSurface)) (by simp) rfl
  cases wrong

end Simulboot
