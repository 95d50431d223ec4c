import Simulboot.Session.Parts
import Simulboot.Session.Steps

/-!
# Session files that are cut off

What `from_xml` makes of a prefix of a printed session. Its defaults stand in for
whatever had not been reached, so a prefix is taken for a whole document unless
everything that shows was there.
-/

set_option autoImplicit false

namespace Simulboot

open Library Library.Xml

variable {F : Type} [Zero F] [RustFloat F]

/-! ## Character data of the printed session -/

/-- Character data stands directly behind the tag of a text element, escaped. -/
inductive Worded : List Event → Prop
  | nil : Worded []
  | markup {event : Event} {rest : List Event} : (∀ raw, event ≠ .text raw) → Worded rest →
      Worded (event :: rest)
  | text {e : BytesStart} {target : TextTarget} {content : Str} {rest : List Event} :
      opens (.start e) = some target.element → Worded rest →
      Worded (.start e :: .text (escapeText content) :: rest)

namespace Worded

private theorem append {first second : List Event} (left : Worded first) (right : Worded second) :
    Worded (first ++ second) := by
  induction left with
  | nil => exact right
  | markup plain _ ih => exact .markup plain ih
  | text named _ ih => exact .text named ih

private theorem textEl (tag : Str) (target : TextTarget) (content : Str)
    (named : Element.ofName (localName tag) = target.element) :
    Worded (textElEvents tag content) := by
  have opened : opens (.start (plainStart tag [])) = some target.element := congrArg some named
  have closed : Worded [.close tag] := .markup (by simp) .nil
  unfold textElEvents textEvent
  rw [trim_escapeText]
  split
  · exact .markup (by simp) closed
  · exact .text opened closed

private theorem flatMap {α : Type} {stretch : α → List Event} (each : ∀ item, Worded (stretch item))
    (items : List α) : Worded (items.flatMap stretch) := by
  induction items with
  | nil => exact .nil
  | cons item rest ih => exact (each item).append ih

private theorem surfaceEvents (surf : SurfaceEntry) : Worded (surfaceEvents surf) := by
  have address := textEl "address".toList .address surf.host.address rfl
  have os := textEl "os".toList .os (osToStr surf.host.os) rfl
  have machine := textEl "machine".toList .machine surf.host.machine rfl
  have capture := textEl "capture".toList .capture surf.host.capture rfl
  have codec := textEl "codec".toList .codec (codecToStr surf.codec) rfl
  have host : Worded (hostEvents surf.host) :=
    (markup (by simp) (((address.append os).append machine).append capture)).append
      (markup (by simp) .nil)
  exact (markup (by simp) ((host.append codec).append (markup (by simp [dimensionsEvent]) .nil))).append
    (markup (by simp) .nil)

private theorem split {done later : List Event} {raw : Str} (worded : Worded (done ++ .text raw :: later)) :
    ∃ before e target content, done = before ++ [.start e] ∧
      opens (.start e) = some (TextTarget.element target) ∧ raw = escapeText content := by
  generalize whole : done ++ .text raw :: later = events at worded
  induction worded generalizing done with
  | nil => simp at whole
  | markup plain _ ih =>
      cases done with
      | nil => exact absurd (List.cons.inj whole).1.symm (plain raw)
      | cons first more =>
          obtain ⟨before, e, target, content, rfl, named, same⟩ := ih (List.cons.inj whole).2
          exact ⟨first :: before, e, target, content, rfl, named, same⟩
  | @text e target content rest named _ ih =>
      cases done with
      | nil => cases (List.cons.inj whole).1
      | cons first more =>
          obtain ⟨rfl, tail⟩ := List.cons.inj whole
          cases more with
          | nil =>
              obtain ⟨same, _⟩ := List.cons.inj tail
              exact ⟨[], e, target, content, rfl, named, Event.text.inj same⟩
          | cons second others =>
              obtain ⟨rfl, behind⟩ := List.cons.inj tail
              obtain ⟨before, e', target', content', rfl, named', same⟩ := ih behind
              exact ⟨_ :: _ :: before, e', target', content', rfl, named', same⟩

end Worded

private theorem printedEvents_worded (sha256 : Sha256) (img : SessionImage F) :
    Worded (img.printedEvents sha256) := by
  have plain : ∀ events : List Event, (∀ event ∈ events, ∀ raw, event ≠ .text raw) →
      Worded events := by
    intro events none
    induction events with
    | nil => exact .nil
    | cons event rest ih =>
        obtain ⟨own, others⟩ := List.forall_mem_cons.mp none
        exact .markup own (ih others)
  have behind : Worded (behindStripEvents img.layout) := by
    unfold behindStripEvents
    cases img.layout.focus <;> exact plain _ (by simp [focusEvent])
  exact (plain _ (by simp [SessionImage.sessionEvent])).append
    (((Worded.markup (by simp) (.flatMap Worded.surfaceEvents _)).append
      (plain _ (by simp))).append (plain _ (by simp [stripEvent])) |>.append behind)

namespace ParseState

variable {xml : QuickXml} {state final : ParseState F}

/-! ## What a prefix is read as -/

omit [Zero F] [RustFloat F] in
private theorem Stepped.textTarget_eq {event : Event} {target : TextTarget}
    (stepped : Stepped xml state event final) (opened : opens event = some target.element) :
    final.textTarget = some target := by
  have notClosed := closes_of_opens opened
  cases stepped with
  | @target other named =>
      rw [opened] at named
      cases target <;> cases other <;> first | rfl | cases named
  | _ => cases target <;> simp_all [TextTarget.element]

section

variable {whole done later : List Event} {node : Str}

private theorem collecting_of_worded (worded : Worded whole)
    (run : whole.foldlM (step xml) init = .ok final)
    (split : whole = done ++ textEvent node ++ later) :
    ∃ middle : ParseState F, done.foldlM (step xml) init = .ok middle ∧
      (Blank node ∨ ∃ target content, middle.textTarget = some target ∧
        trim node = escapeText content) := by
  subst split
  rw [List.append_assoc] at run worded
  obtain ⟨middle, runDone, _⟩ := Run.append_eq_ok run
  refine ⟨middle, runDone, ?_⟩
  by_cases blank : trim node = []
  · exact .inl (trim_eq_nil_iff.mp blank)
  · rw [textEvent, if_neg blank] at worded
    obtain ⟨before, e, target, content, rfl, opened, same⟩ := worded.split
    obtain ⟨earlier, _, last⟩ := Run.append_eq_ok runDone
    obtain ⟨after, stepped, nothing⟩ := bind_eq_ok last
    cases nothing
    exact .inr ⟨target, content, (stepped_of_step stepped).textTarget_eq opened, same⟩

omit [Zero F] [RustFloat F] in
private theorem padded_cut {part content : Str} (shorter : trim part <+: escapeText content) :
    '>' ∉ part ∧ (Dangling part ↔ Dangling (trim part)) := by
  obtain ⟨front, back, padded, frontBlank, backBlank⟩ := trimMatches_split isSpace part
  change part = front ++ trim part ++ back at padded
  constructor
  · rw [padded]
    simp only [List.mem_append, not_or]
    refine ⟨⟨fun member => ?_, fun member => ?_⟩, fun member => ?_⟩
    · exact absurd (frontBlank _ member) (by decide)
    · exact gt_not_mem_escapeText content (shorter.subset member)
    · exact absurd (backBlank _ member) (by decide)
  · have around : Dangling (front ++ trim part ++ back) ↔ Dangling (trim part) :=
      dangling_padded frontBlank backBlank
    rwa [← padded] at around

private theorem run_dangling (atEnd : DocumentedAtEnd xml) {part : Str} {target : TextTarget}
    (collecting : state.textTarget = some target) (dangling : Dangling (trim part)) :
    ∃ e, (textEvent part).foldlM (step xml) state = .error e := by
  obtain ⟨e, refused⟩ := atEnd.unescape_dangling _ dangling
  have visible : trim part ≠ [] := by
    intro nothing
    obtain ⟨before, after, same, _⟩ := dangling
    rw [nothing] at same
    simp at same
  refine ⟨.xml e, ?_⟩
  rw [textEvent, if_neg visible, List.foldlM_cons]
  simp only [step, collecting, unescape, refused, Except.mapError, bind, Except.bind]

private theorem run_shortened (documented : Documented xml) {part content : Str} {target : TextTarget}
    (collecting : state.textTarget = some target) (shorter : trim part <+: escapeText content)
    (whole : ¬ Dangling (trim part)) :
    ∃ after, (textEvent part).foldlM (step xml) state = .ok after := by
  rw [escapeText_eq] at shorter
  obtain ⟨count, units⟩ := units_cut shorter whole
  rw [← List.map_take, ← escapeText_eq] at units
  rw [textEvent]
  split
  · exact ⟨state, rfl⟩
  · have stepped : step xml state (.text (trim part)) =
        .ok { state with textBuf := state.textBuf ++ content.take count } := by
      rw [units]
      simp only [step, collecting, unescape_escapeText documented, bind, Except.bind]
      rfl
    exact ⟨_, Run.single stepped⟩

/-- A prefix of a document is read without an error, but for one that ends inside a
reference. -/
theorem run_cut (documented : Documented xml) (atEnd : DocumentedAtEnd xml)
    (worded : Worded whole) (run : whole.foldlM (step xml) init = .ok final) {text : Str}
    (cut : CutAt xml text [] whole) :
    (EndsInReference text ∧
        ∃ e, (xml.read text).events.foldlM (step xml) (init (F := F)) = .error e) ∨
      (¬ EndsInReference text ∧
        ∃ state : ParseState F, (xml.read text).events.foldlM (step xml) init = .ok state) := by
  obtain ⟨done, node, part, later, split, within, read, shape⟩ := cut
  obtain ⟨middle, runDone, kind⟩ := collecting_of_worded worded run split
  rw [read, List.nil_append]
  dsimp only
  rcases shape with ⟨rfl, noReference⟩ | ⟨marks, rfl, last, unopened⟩
  · rw [split] at run
    obtain ⟨state, runPart, _⟩ := Run.append_eq_ok run
    exact .inr ⟨noReference, state, runPart⟩
  rcases kind with blank | ⟨target, content, collecting, escaped⟩
  · have partBlank : Blank part := fun c member => blank c (within.subset member)
    have absent : ∀ c, isSpace c = false → c ∉ part := by
      intro c visible member
      rw [partBlank c member] at visible
      cases visible
    refine .inr ⟨?_, middle, ?_⟩
    · rw [endsInReference_iff last unopened (absent '>' (by decide))]
      rintro ⟨before, after, rfl, _⟩
      exact absent '&' (by decide) (by simp)
    · rw [textEvent_blank partBlank, List.append_nil]
      exact runDone
  · have shorter : trim part <+: escapeText content := escaped ▸ trimMatches_prefix within
    obtain ⟨noBracket, trimmed⟩ := padded_cut shorter
    rw [endsInReference_iff last unopened noBracket, trimmed]
    by_cases dangling : Dangling (trim part)
    · obtain ⟨e, refused⟩ := run_dangling atEnd collecting dangling
      exact .inl ⟨dangling, e, Run.append_error runDone refused⟩
    · obtain ⟨state, taken⟩ := run_shortened documented collecting shorter dangling
      exact .inr ⟨dangling, state, Run.append runDone taken⟩

end

/-! ## What is read before an event and behind it -/

section

omit [Zero F] [RustFloat F]

private theorem Stepped.sessionAttrs_eq {event : Event} (stepped : Stepped xml state event final)
    (untouched : opens event ≠ some .session) : final.sessionAttrs = state.sessionAttrs := by
  cases stepped with
  | session named => exact absurd named untouched
  | _ => rfl

private theorem Stepped.surfaces_eq {event : Event} (stepped : Stepped xml state event final)
    (untouched : closes event ≠ some .surface) : final.surfaces = state.surfaces := by
  cases stepped with
  | complete named _ _ => exact absurd named untouched
  | _ => rfl

private theorem Stepped.scrollPos_eq {event : Event} (stepped : Stepped xml state event final)
    (untouched : opens event ≠ some .strip) :
    final.layout.scrollPos = state.layout.scrollPos := by
  cases stepped with
  | strip named => exact absurd named untouched
  | _ => rfl

private theorem Stepped.focus_eq {event : Event} (stepped : Stepped xml state event final)
    (untouched : opens event ≠ some .focus) : final.layout.focus = state.layout.focus := by
  cases stepped with
  | focus named => exact absurd named untouched
  | _ => rfl

end

variable {α : Type} (field : ParseState F → α) {touches : Event → Prop} {events : List Event}

private theorem run_keeps
    (kept : ∀ {before after : ParseState F} {event : Event}, Stepped xml before event after →
      ¬ touches event → field after = field before)
    (run : events.foldlM (step xml) state = .ok final)
    (untouched : ∀ event ∈ events, ¬ touches event) : field final = field state := by
  have still : ∀ event ∈ events, ∀ before after, field before = field state →
      step xml before event = .ok after → field after = field state := by
    intro event member before after same stepped
    exact (kept (stepped_of_step stepped) (untouched event member)).trans same
  exact @Run.invariant _ _ _ _ (fun reached => field reached = field state) _ _ _ still rfl run

omit [Zero F] [RustFloat F] in
/-- Cutting leaves no event over but shorter character data. -/
theorem untouched_of_cutAt {text : Str} {first delivered : List Event}
    (cut : CutAt xml text first delivered) (texts : ∀ raw, ¬ touches (.text raw))
    (untouched : ∀ event ∈ delivered, ¬ touches event) :
    ∃ rest, (xml.read text).events = first ++ rest ∧ ∀ event ∈ rest, ¬ touches event := by
  obtain ⟨done, node, part, later, rfl, _, read, _⟩ := cut
  refine ⟨done ++ textEvent part, by rw [read], fun event member => ?_⟩
  rcases List.mem_append.mp member with before | last
  · exact untouched event (by simp [before])
  · unfold textEvent at last
    split at last
    · cases last
    · obtain rfl := List.mem_singleton.mp last
      exact texts _

private theorem field_before
    (kept : ∀ {before after : ParseState F} {event : Event}, Stepped xml before event after →
      ¬ touches event → field after = field before)
    {text : Str} {delivered : List Event} (cut : CutAt xml text [] delivered)
    (texts : ∀ raw, ¬ touches (.text raw)) (untouched : ∀ event ∈ delivered, ¬ touches event)
    (run : (xml.read text).events.foldlM (step xml) state = .ok final) :
    field final = field state := by
  obtain ⟨rest, same, still⟩ := untouched_of_cutAt cut texts untouched
  rw [same, List.nil_append] at run
  exact run_keeps field kept run still

/-- Behind the last event that touches a field, a prefix and the whole document agree
on it. -/
theorem field_behind
    (kept : ∀ {before after : ParseState F} {event : Event}, Stepped xml before event after →
      ¬ touches event → field after = field before)
    {text : Str} {first delivered : List Event} {short : ParseState F}
    (cut : CutAt xml text first delivered) (texts : ∀ raw, ¬ touches (.text raw))
    (untouched : ∀ event ∈ delivered, ¬ touches event)
    (run : (first ++ delivered).foldlM (step xml) state = .ok final)
    (runShort : (xml.read text).events.foldlM (step xml) state = .ok short) :
    field short = field final := by
  obtain ⟨rest, same, still⟩ := untouched_of_cutAt cut texts untouched
  rw [same] at runShort
  obtain ⟨middle, runFirst, runRest⟩ := Run.append_eq_ok run
  obtain ⟨middle', runFirst', runRest'⟩ := Run.append_eq_ok runShort
  obtain rfl := Except.ok.inj (runFirst.symm.trans runFirst')
  exact (run_keeps field kept runRest' still).trans (run_keeps field kept runRest untouched).symm

/-! ## Counting surfaces -/

private theorem run_surfaces_length (run : events.foldlM (step xml) state = .ok final) :
    final.surfaces.length =
      state.surfaces.length + events.countP fun event => closes event = some .surface := by
  induction events generalizing state with
  | nil =>
      cases run
      rfl
  | cons event rest ih =>
      obtain ⟨middle, first, later⟩ := bind_eq_ok run
      have stepped := stepped_of_step first
      rw [ih later, List.countP_cons]
      by_cases closed : closes event = some .surface
      · obtain ⟨b, surf, _, _, rfl⟩ := stepped.completed closed
        simp only [closed, decide_true, if_true, List.length_append, List.length_singleton]
        omega
      · simp [closed, stepped.surfaces_eq closed]

omit [Zero F] [RustFloat F] in
private theorem countP_of_cutAt {text : Str} {delivered : List Event} (cut : CutAt xml text [] delivered) :
    (xml.read text).events.countP (fun event => closes event = some .surface) ≤
      delivered.countP fun event => closes event = some .surface := by
  obtain ⟨done, node, part, later, rfl, _, read, _⟩ := cut
  have none : (textEvent part).countP (fun event => closes event = some .surface) = 0 := by
    unfold textEvent
    split <;> rfl
  rw [read, List.nil_append, List.countP_append, none, List.append_assoc, List.countP_append]
  omega

end ParseState

/-! ## Events of the printed session that touch a field -/

private theorem opens_ne_of_named {event : Event} {kinds : List Element}
    (named : event.Named fun name => Element.ofName (localName name) ∉ kinds) {kind : Element}
    (member : kind ∈ kinds) : opens event ≠ some kind := by
  intro opened
  obtain ⟨e, tag, rfl⟩ := opens_eq_some.mp opened
  cases event with
  | start other | empty other =>
      obtain rfl := Option.some.inj tag
      exact named member
  | _ => cases tag

private theorem opens_listEvents (surfaces : List SurfaceEntry) :
    ∀ event ∈ listEvents surfaces, ∀ kind ∈ [Element.session, .strip, .focus],
      opens event ≠ some kind := by
  have names : ∀ name ∈ surfaceNames,
      Element.ofName (localName name) ∉ [Element.session, .strip, .focus] := by decide
  have opening : Element.ofName (localName "surfaces".toList) ∉
      [Element.session, .strip, .focus] := by decide
  have inner := AllNamed.flatMap (surfaceEvents_named names) surfaces
  have list : AllNamed (fun name => Element.ofName (localName name) ∉
      [Element.session, .strip, .focus]) (listEvents surfaces) :=
    List.forall_mem_cons.mpr ⟨opening, inner⟩
  exact fun event member kind inside => opens_ne_of_named (list event member) inside

omit [Zero F] [RustFloat F] in
private theorem mem_behindStripEvents {layout : Layout F} {event : Event}
    (member : event ∈ behindStripEvents layout) :
    (∃ focus, layout.focus = some focus ∧ event = focusEvent focus) ∨
      event = .close "layout".toList ∨ event = .close "session".toList := by
  unfold behindStripEvents at member
  cases focus : layout.focus with
  | none => simpa [focus] using member
  | some id => simpa [focus] using member

omit [Zero F] [RustFloat F] in
private theorem touches_behindStripEvents (layout : Layout F) :
    ∀ event ∈ behindStripEvents layout,
      (∀ kind, kind ≠ .focus ∨ layout.focus = none → opens event ≠ some kind) ∧
        closes event ≠ some .surface := by
  intro event member
  rcases mem_behindStripEvents member with ⟨focus, present, rfl⟩ | rfl | rfl
  · have opened : opens (focusEvent focus) = some .focus := rfl
    refine ⟨fun kind other same => ?_, fun closed => by cases closed⟩
    rw [opened] at same
    rw [present] at other
    exact other.elim (fun apart => apart (Option.some.inj same).symm) (by simp)
  · exact ⟨fun _ _ opened => (by cases opened), by decide⟩
  · exact ⟨fun _ _ opened => (by cases opened), by decide⟩

private theorem opens_front (sha256 : Sha256) (img : SessionImage F) :
    ∀ event ∈ [.other, img.sessionEvent sha256], ∀ kind ≠ .session, opens event ≠ some kind := by
  intro event member kind apart opened
  simp only [List.mem_cons, List.not_mem_nil, or_false] at member
  rcases member with rfl | rfl
  · cases opened
  · exact apart (Option.some.inj opened).symm

private theorem opens_stripEvent (layout : Layout F) {kind : Element} (apart : kind ≠ .strip) :
    ∀ event ∈ [stripEvent layout], opens event ≠ some kind := by
  intro event member opened
  obtain rfl := List.mem_singleton.mp member
  exact apart (Option.some.inj opened).symm

namespace SessionImage

variable {sha256 : Sha256} {img : SessionImage F} {xml : QuickXml} {text : Str}
  {whole short : ParseState F}

/-! ## What a prefix shows of the session -/

section

variable (run : (img.printedEvents sha256).foldlM (ParseState.step xml) .init = .ok whole)
  (runShort : (xml.read text).events.foldlM (ParseState.step xml) .init = .ok short)

include run runShort

private theorem attrs_behind_opening
    (cut : CutAt xml text ([.other] ++ [img.sessionEvent sha256])
      (listEvents img.surfaces ++
        [.close "surfaces".toList, .start (plainStart "layout".toList [])] ++
        [stripEvent img.layout] ++ behindStripEvents img.layout)) :
    short.sessionAttrs = whole.sessionAttrs := by
  have untouched : ∀ event ∈ listEvents img.surfaces ++
      [.close "surfaces".toList, .start (plainStart "layout".toList [])] ++
      [stripEvent img.layout] ++ behindStripEvents img.layout, ¬ opens event = some .session := by
    simp only [List.forall_mem_append]
    exact ⟨⟨⟨fun event member => opens_listEvents _ event member _ (by simp), by decide⟩,
      opens_stripEvent _ (by decide)⟩,
      fun event member => (touches_behindStripEvents _ event member).1 _ (.inl (by decide))⟩
  exact ParseState.field_behind ParseState.sessionAttrs (fun stepped => stepped.sessionAttrs_eq)
    cut (fun raw opened => by cases opened) untouched run runShort

private theorem scrollPos_of_cut (documented : Documented xml) (atEnd : DocumentedAtEnd xml)
    (laws : RustFloat.Documented F) (isPrefix : text <+: img.toXml sha256) (between : ¬ EndsInMarkup text) :
    (img.stripText sha256 <+: text ∧ short.layout.scrollPos = whole.layout.scrollPos) ∨
      (¬ img.stripText sha256 <+: text ∧ short.layout.scrollPos = 0) := by
  have texts : ∀ raw, ¬ opens (.text raw) = some .strip := fun raw opened => by cases opened
  rcases (cut_strip sha256 documented atEnd laws isPrefix).resolve_left between with
    ⟨missed, cut⟩ | ⟨reached, cut⟩
  · refine .inr ⟨missed, ?_⟩
    have untouched : ∀ event ∈ [.other, img.sessionEvent sha256] ++ (listEvents img.surfaces ++
        [.close "surfaces".toList, .start (plainStart "layout".toList [])]),
        ¬ opens event = some .strip := by
      simp only [List.forall_mem_append]
      exact ⟨fun event member => opens_front _ _ event member _ (by decide),
        fun event member => opens_listEvents _ event member _ (by simp), by decide⟩
    exact ParseState.field_before (fun state => state.layout.scrollPos)
      (fun stepped => stepped.scrollPos_eq) cut texts untouched runShort
  · refine .inl ⟨reached, ?_⟩
    have untouched : ∀ event ∈ behindStripEvents img.layout, ¬ opens event = some .strip :=
      fun event member => (touches_behindStripEvents _ event member).1 _ (.inl (by decide))
    have split : img.printedEvents sha256 =
        ([.other, img.sessionEvent sha256] ++ (listEvents img.surfaces ++
          [.close "surfaces".toList, .start (plainStart "layout".toList [])]) ++
          [stripEvent img.layout]) ++ behindStripEvents img.layout := by
      simp only [printedEvents, List.append_assoc]
    rw [split] at run
    exact ParseState.field_behind (fun state => state.layout.scrollPos)
      (fun stepped => stepped.scrollPos_eq) cut texts untouched run runShort

private theorem focus_of_cut (documented : Documented xml) (atEnd : DocumentedAtEnd xml)
    (laws : RustFloat.Documented F) {focus : SurfaceId} (focused : img.layout.focus = some focus)
    (isPrefix : text <+: img.toXml sha256) (between : ¬ EndsInMarkup text) :
    (img.focusText sha256 focus <+: text ∧ short.layout.focus = whole.layout.focus) ∨
      (¬ img.focusText sha256 focus <+: text ∧ short.layout.focus = none) := by
  have texts : ∀ raw, ¬ opens (.text raw) = some .focus := fun raw opened => by cases opened
  rcases (cut_focus sha256 documented atEnd laws focused isPrefix).resolve_left between with
    ⟨missed, cut⟩ | ⟨reached, cut⟩
  · refine .inr ⟨missed, ?_⟩
    have untouched : ∀ event ∈ [.other, img.sessionEvent sha256] ++ (listEvents img.surfaces ++
        [.close "surfaces".toList, .start (plainStart "layout".toList [])] ++
        [stripEvent img.layout]), ¬ opens event = some .focus := by
      simp only [List.forall_mem_append]
      exact ⟨fun event member => opens_front _ _ event member _ (by decide),
        ⟨fun event member => opens_listEvents _ event member _ (by simp), by decide⟩,
        opens_stripEvent _ (by decide)⟩
    exact ParseState.field_before (fun state => state.layout.focus)
      (fun stepped => stepped.focus_eq) cut texts untouched runShort
  · refine .inl ⟨reached, ?_⟩
    have split : img.printedEvents sha256 =
        ([.other, img.sessionEvent sha256] ++ (listEvents img.surfaces ++
          [.close "surfaces".toList, .start (plainStart "layout".toList [])] ++
          [stripEvent img.layout]) ++ [focusEvent focus]) ++
        [.close "layout".toList, .close "session".toList] := by
      simp only [printedEvents, behindStripEvents, focused, Option.elim_some, List.append_assoc]
    rw [split] at run
    exact ParseState.field_behind (fun state => state.layout.focus)
      (fun stepped => stepped.focus_eq) cut texts (by decide) run runShort

private theorem surfaces_of_cut (documented : Documented xml) (atEnd : DocumentedAtEnd xml)
    (laws : RustFloat.Documented F) (nonempty : img.surfaces ≠ []) (isPrefix : text <+: img.toXml sha256)
    (between : ¬ EndsInMarkup text) :
    (img.surfacesText sha256 <+: text ∧ short.surfaces = whole.surfaces) ∨
      (¬ img.surfacesText sha256 <+: text ∧ short.surfaces.length < whole.surfaces.length) := by
  obtain ⟨front, last, listed⟩ := (List.eq_nil_or_concat' img.surfaces).resolve_left nonempty
  obtain ⟨events, list, cut⟩ := cut_surfaces sha256 documented atEnd laws listed isPrefix
  have split : img.printedEvents sha256 = (events ++ [.close "surface".toList]) ++
      ([.close "surfaces".toList, .start (plainStart "layout".toList [])] ++
        [stripEvent img.layout] ++ behindStripEvents img.layout) := by
    rw [← list]
    simp only [printedEvents, List.append_assoc]
  rw [split] at run
  rcases cut.resolve_left between with ⟨missed, cut⟩ | ⟨reached, cut⟩
  · refine .inr ⟨missed, ?_⟩
    have bound := ParseState.countP_of_cutAt cut
    rw [ParseState.run_surfaces_length runShort, ParseState.run_surfaces_length run,
      List.countP_append, List.countP_append]
    have closed : [Event.close "surface".toList].countP
        (fun event => closes event = some .surface) = 1 := by decide
    omega
  · refine .inl ⟨reached, ?_⟩
    have untouched : ∀ event ∈ [.close "surfaces".toList,
        .start (plainStart "layout".toList [])] ++ [stripEvent img.layout] ++
        behindStripEvents img.layout, ¬ closes event = some .surface := by
      simp only [List.forall_mem_append]
      refine ⟨⟨by decide, fun event member => ?_⟩,
        fun event member => (touches_behindStripEvents _ event member).2⟩
      obtain rfl := List.mem_singleton.mp member
      exact fun closed => by cases closed
    exact ParseState.field_behind ParseState.surfaces (fun stepped => stepped.surfaces_eq) cut
      (fun raw closed => by cases closed) untouched run runShort

end

/-! ## Prefixes taken for the whole -/

/-- What a prefix is accepted as shows what the whole document shows. -/
def NotMistaken (xml : QuickXml) (sha256 : Sha256) (img : SessionImage F) (text : Str) : Prop :=
  ∀ short : SessionImage F, fromXml xml text = .ok short →
    ∃ whole : SessionImage F, fromXml xml (img.toXml sha256) = .ok whole ∧
      short.canonicalBytes = whole.canonicalBytes

variable (sha256) in
private theorem run_printed (documented : Documented xml) (laws : RustFloat.Documented F) {pos : F}
    (reads : RustFloat.parse (fmtF32 img.layout.scrollPos) = some pos) :
    (img.printedEvents sha256).foldlM (ParseState.step xml) .init =
      .ok (ParseState.between
        { id := some (img.printedId sha256), created := some img.created
          schemaVersion := some img.schemaVersion }
        (img.surfaces.map SurfaceEntry.trimmed) { img.layout with scrollPos := pos }) := by
  rw [printedEvents_eq]
  have head := ParseState.run_head_at documented laws img (some (img.printedId sha256)) reads
  have declaration : ParseState.step xml (ParseState.init (F := F)) .other = .ok .init := rfl
  exact Run.cons declaration (Run.append (Run.append head rfl) (Run.single rfl))

private theorem fromXml_of_ok (ended : (xml.read text).ending = .ok ()) :
    (fromXml xml text : Except SessionError (SessionImage F)) =
      (xml.read text).events.foldlM (ParseState.step xml) .init >>= ParseState.finish := by
  unfold fromXml parseReading
  rw [ended]

private theorem fromXml_of_error {e : Str} (ended : (xml.read text).ending = .error e)
    {short : SessionImage F} : fromXml xml text ≠ .ok short := by
  intro accepted
  unfold fromXml parseReading at accepted
  rw [ended] at accepted
  obtain ⟨state, _, nothing⟩ := bind_eq_ok accepted
  cases nothing

omit [Zero F] [RustFloat F] in
private theorem finish_of_created {state : ParseState F} {created : Str}
    (present : state.sessionAttrs.created = some created) :
    state.finish = .ok
      { id := state.sessionAttrs.id, created
        schemaVersion := state.sessionAttrs.schemaVersion.getD Simulboot.schemaVersion
        surfaces := state.surfaces.insertionSort fun a b => a.order ≤ b.order
        layout := state.layout } := by
  unfold ParseState.finish
  rw [present]

section

variable {pos : F} (reads : RustFloat.parse (fmtF32 img.layout.scrollPos) = some pos)
  (runShort : (xml.read text).events.foldlM (ParseState.step xml) .init = .ok short)
  (documented : Documented xml) (atEnd : DocumentedAtEnd xml) (laws : RustFloat.Documented F)
  (isPrefix : text <+: img.toXml sha256) (between : ¬ EndsInMarkup text)

include reads runShort documented atEnd laws isPrefix between

private theorem surfaces_agree_iff :
    (short.surfaces.insertionSort fun a b => a.order ≤ b.order) =
        (img.surfaces.map SurfaceEntry.trimmed).insertionSort (fun a b => a.order ≤ b.order) ↔
      (img.surfaces ≠ [] → img.surfacesText sha256 <+: text) := by
  have run := run_printed sha256 documented laws reads
  by_cases none : img.surfaces = []
  · have bound := ParseState.countP_of_cutAt
      ((cut_whole sha256 documented atEnd laws isPrefix).resolve_left between)
    have counted := ParseState.run_surfaces_length run
    have countedShort := ParseState.run_surfaces_length runShort
    have printed : (img.surfaces.map SurfaceEntry.trimmed).length = 0 := by rw [none]; rfl
    have empty : short.surfaces = [] := by
      refine List.eq_nil_of_length_eq_zero ?_
      change (img.surfaces.map SurfaceEntry.trimmed).length = _ at counted
      omega
    rw [empty, none]
    exact iff_of_true rfl fun nonempty => absurd rfl nonempty
  · rcases surfaces_of_cut run runShort documented atEnd laws none isPrefix between with
      ⟨reached, same⟩ | ⟨missed, fewer⟩
    · rw [same]
      exact iff_of_true rfl fun _ => reached
    · refine iff_of_false (fun same => ?_) fun all => missed (all none)
      have lengths := congrArg List.length same
      rw [List.length_insertionSort, List.length_insertionSort] at lengths
      exact absurd lengths (Nat.ne_of_lt fewer)

private theorem scroll_agrees_iff (alike : RustFloat.Alike pos img.layout.scrollPos) :
    fmtF32 short.layout.scrollPos = fmtF32 pos ↔
      (RustFloat.eq img.layout.scrollPos 0 = false → img.stripText sha256 <+: text) := by
  have run := run_printed sha256 documented laws reads
  rcases scrollPos_of_cut run runShort documented atEnd laws isPrefix between with
    ⟨reached, same⟩ | ⟨missed, zero⟩
  · rw [same]
    exact iff_of_true rfl fun _ => reached
  · unfold fmtF32
    rw [zero, laws.displayUnsignedZero_inj laws.zero_isNaN, laws.zero_eq,
      laws.eq_zero_of_alike alike]
    constructor
    · intro isZero other
      rw [isZero] at other
      cases other
    · intro all
      by_contra apart
      exact missed (all (Bool.eq_false_iff.mpr apart))

private theorem focus_agrees_iff :
    short.layout.focus = img.layout.focus ↔
      ∀ focus ∈ img.layout.focus, img.focusText sha256 focus <+: text := by
  have run := run_printed sha256 documented laws reads
  cases focused : img.layout.focus with
  | none =>
      have cut := (cut_whole sha256 documented atEnd laws isPrefix).resolve_left between
      have untouched : ∀ event ∈ img.printedEvents sha256, ¬ opens event = some .focus := by
        unfold printedEvents
        simp only [List.forall_mem_append]
        exact ⟨fun event member => opens_front _ _ event member _ (by decide),
          ⟨⟨fun event member => opens_listEvents _ event member _ (by simp), by decide⟩,
            opens_stripEvent _ (by decide)⟩,
          fun event member => (touches_behindStripEvents _ event member).1 _ (.inr focused)⟩
      have still := ParseState.field_before (fun state => state.layout.focus)
        (fun stepped => stepped.focus_eq) cut (fun raw opened => by cases opened) untouched runShort
      exact iff_of_true still fun focus present => by cases present
  | some focus =>
      rcases focus_of_cut run runShort documented atEnd laws focused isPrefix between with
        ⟨reached, same⟩ | ⟨missed, nothing⟩
      · rw [same]
        refine iff_of_true focused fun other present => ?_
        obtain rfl := Option.some.inj present
        exact reached
      · rw [nothing]
        exact iff_of_false (fun same => by cases same) fun all => missed (all focus rfl)

/-- With the session tag read, what shows is what the list, the strip and the focus show. -/
theorem notMistaken_iff_allRead (alike : RustFloat.Alike pos img.layout.scrollPos)
    (attrs : short.sessionAttrs =
      { id := some (img.printedId sha256), created := some img.created
        schemaVersion := some img.schemaVersion })
    (read : (fromXml xml text : Except SessionError (SessionImage F)) = short.finish) :
    NotMistaken xml sha256 img text ↔ img.AllRead sha256 text := by
  have agree := and_congr (surfaces_agree_iff reads runShort documented atEnd laws isPrefix between)
    (and_congr (scroll_agrees_iff reads runShort documented atEnd laws isPrefix between alike)
      (focus_agrees_iff reads runShort documented atEnd laws isPrefix between))
  unfold NotMistaken
  rw [fromXml_toXml_at documented laws sha256 img reads,
    read.trans (finish_of_created (congrArg SessionAttrs.created attrs))]
  simp only [Except.ok.injEq, exists_eq_left', forall_eq', canonicalBytes_eq_iff_content laws,
    attrs]
  constructor
  · rintro ⟨_, _, surfaces, scroll, focus⟩
    obtain ⟨surfacesRead, scrollRead, focusRead⟩ := agree.mp ⟨surfaces, scroll, focus⟩
    exact ⟨surfacesRead, scrollRead, focusRead⟩
  · rintro ⟨surfacesRead, scrollRead, focusRead⟩
    obtain ⟨surfaces, scroll, focus⟩ := agree.mpr ⟨surfacesRead, scrollRead, focusRead⟩
    exact ⟨rfl, rfl, surfaces, scroll, focus⟩

end

private theorem created_of_missed (cut : CutAt xml text [] [.other])
    (runShort : (xml.read text).events.foldlM (ParseState.step xml) .init = .ok short) :
    short.sessionAttrs.created = none := by
  have still := ParseState.field_before ParseState.sessionAttrs
    (fun stepped => stepped.sessionAttrs_eq) cut (fun raw opened => by cases opened)
    (by decide) runShort
  rw [still]
  rfl

/-- A prefix is taken for the whole exactly where it is read without an error, has a
whole session tag, and misses something that shows. -/
theorem notMistaken_iff (documented : Documented xml) (atEnd : DocumentedAtEnd xml)
    (laws : RustFloat.Documented F) (readsNaN : RustFloat.ReadsNaN F)
    (isPrefix : text <+: img.toXml sha256) :
    NotMistaken xml sha256 img text ↔
      EndsInMarkup text ∨ EndsInReference text ∨ ¬ img.openingText sha256 <+: text ∨
        img.AllRead sha256 text := by
  by_cases inside : EndsInMarkup text
  · obtain ⟨e, ended⟩ := atEnd.read_inside text inside (noMark_toXml sha256 isPrefix)
    exact iff_of_true (fun short accepted => absurd accepted (fromXml_of_error ended)) (.inl inside)
  obtain ⟨pos, reads, alike⟩ := laws.parse_displayUnsignedZero_total readsNaN img.layout.scrollPos
  have alike : RustFloat.Alike pos img.layout.scrollPos := alike.imp_right And.symm
  have run := run_printed sha256 documented laws reads
  have cut := (cut_whole sha256 documented atEnd laws isPrefix).resolve_left inside
  have ended : (xml.read text).ending = .ok () := by
    obtain ⟨_, _, _, _, _, _, read, _⟩ := cut
    rw [read]
  have read := fromXml_of_ok (F := F) ended
  rcases ParseState.run_cut documented atEnd (printedEvents_worded sha256 img) run cut with
    ⟨reference, e, failed⟩ | ⟨noReference, short, runShort⟩
  · refine iff_of_true (fun image accepted => ?_) (.inr (.inl reference))
    rw [read, failed] at accepted
    cases accepted
  rw [runShort] at read
  rcases (cut_opening sha256 documented atEnd laws isPrefix).resolve_left inside with
    ⟨missed, cutBefore⟩ | ⟨reached, cutBehind⟩
  · refine iff_of_true (fun image accepted => ?_) (.inr (.inr (.inl missed)))
    have absent := created_of_missed cutBefore runShort
    rw [read] at accepted
    change short.finish = .ok image at accepted
    unfold ParseState.finish at accepted
    rw [absent] at accepted
    cases accepted
  · have attrs : short.sessionAttrs =
        { id := some (img.printedId sha256), created := some img.created
          schemaVersion := some img.schemaVersion } :=
      attrs_behind_opening run runShort cutBehind
    rw [notMistaken_iff_allRead reads runShort documented atEnd laws isPrefix inside alike attrs read]
    constructor
    · exact fun all => .inr (.inr (.inr all))
    · rintro (contra | contra | contra | all)
      · exact absurd contra inside
      · exact absurd contra noReference
      · exact absurd reached contra
      · exact all

theorem tidySession_notMistaken_iff :
    NotMistaken Scanner.quickXml sha256Digest tidySession
        (tidySession.openingText sha256Digest) ↔
      EndsInMarkup (tidySession.openingText sha256Digest) ∨
        EndsInReference (tidySession.openingText sha256Digest) ∨
        ¬ tidySession.openingText sha256Digest <+: tidySession.openingText sha256Digest ∨
        tidySession.AllRead sha256Digest (tidySession.openingText sha256Digest) := by
  have isPrefix : tidySession.openingText sha256Digest <+: tidySession.toXml sha256Digest := by
    rw [toXml_opening]
    exact List.prefix_append _ _
  exact notMistaken_iff Scanner.documented Scanner.documentedAtEnd ExactFloat.documented
    ExactFloat.readsNaN isPrefix

/-! ## A session tag alone -/

private theorem fromXml_openingText (documented : Documented xml) (sha256 : Sha256)
    (img : SessionImage F) :
    fromXml xml (img.openingText sha256) =
      .ok { id := some (img.printedId sha256), created := img.created
            schemaVersion := img.schemaVersion, surfaces := [], layout := Layout.default (F := F) }
    := by
  have element : ∀ attributes, Element.ofName
      (localName (plainStart "session".toList attributes).name) = .session := fun _ => rfl
  have head : (img.openingText sha256).head? ≠ some '\uFEFF' := by
    have first : (img.openingText sha256).head? = some '<' := rfl
    rw [first]
    decide
  unfold SessionImage.fromXml
  rw [(img.writes_openingText sha256).read documented head]
  simp only [parseReading, sessionEvent, List.foldlM_cons, List.foldlM_nil, ParseState.step,
    ParseState.openElement, element, ParseState.parse_sessionStart documented, bind, Except.bind,
    pure, Except.pure]
  rfl

theorem tidySession_cutOff :
    ∃ text, text <+: tidySession.toXml sha256Digest ∧ text ≠ tidySession.toXml sha256Digest ∧
      ¬ NotMistaken Scanner.quickXml sha256Digest tidySession text := by
  refine ⟨tidySession.openingText sha256Digest, ?_, fun same => ?_, fun kept => ?_⟩
  · rw [toXml_opening]
    exact List.prefix_append _ _
  · rw [toXml_opening, List.self_eq_append_right] at same
    simp [listText, newline] at same
  · obtain ⟨whole, read, same⟩ :=
      kept _ (fromXml_openingText Scanner.documented sha256Digest tidySession)
    rw [fromXml_toXml Scanner.documented ExactFloat.documented sha256Digest tidySession rfl] at read
    obtain rfl := Except.ok.inj read
    obtain ⟨_, _, surfaces, _⟩ := (canonicalBytes_eq_iff_content ExactFloat.documented).mp same
    exact absurd (congrArg List.length surfaces) (by decide)

end SessionImage

end Simulboot
