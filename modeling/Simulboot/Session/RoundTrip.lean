import Simulboot.Library.ExactFloat
import Simulboot.Library.Run
import Simulboot.Library.XmlReader
import Simulboot.Session.Document

/-!
# Parsing what was printed

The event loop run over a written document. Between elements the parser holds
nothing but the attributes, surfaces and layout read so far, and one surface
takes it from one such state to the next.
-/

set_option autoImplicit false

namespace Simulboot

open Library Library.Xml

variable {F : Type} [Zero F]

/-! ## The normal form -/

/-- The surface with the character data the reader gives back. -/
def SurfaceEntry.trimmed (surf : SurfaceEntry) : SurfaceEntry :=
  { surf with
    host := { surf.host with
      address := trim surf.host.address
      machine := trim surf.host.machine
      capture := trim surf.host.capture } }

/-- What comes back of an image: the surfaces sorted by order, their character
data trimmed, and the scroll position without the sign of a zero. -/
def SessionImage.normalForm [RustFloat F] (img : SessionImage F) (id : Option Str) :
    SessionImage F :=
  { img with
    id
    surfaces := (img.surfaces.map SurfaceEntry.trimmed).insertionSort fun a b => a.order ≤ b.order
    layout := { img.layout with scrollPos := RustFloat.dropZeroSign img.layout.scrollPos } }

/-! ## Reading attributes -/

section

variable {xml : QuickXml}

/-- An attribute of a plain tag is found by its local name. -/
theorem attrStr_plain {name key : Str} {attributes : List (Str × Str)} {pair : Str × Str}
    (found : attributes.find? (fun pair => localName pair.1 = key) = some pair) :
    attrStr xml (plainStart name attributes) key = unescape xml pair.2 := by
  unfold attrStr plainStart
  induction attributes with
  | nil => simp at found
  | cons first rest ih =>
      by_cases same : localName first.1 = key
      · rw [List.find?_cons_of_pos (by simpa using same)] at found
        obtain rfl := Option.some.inj found
        simp [findAttr, same]
      · rw [List.find?_cons_of_neg (by simpa using same)] at found
        simpa [findAttr, same] using ih found

theorem attrU32_of_attrStr {e : BytesStart} {key : Str} {n : UInt32}
    (read : attrStr xml e key = .ok (displayU32 n)) : attrU32 xml e key = .ok n := by
  simp [attrU32, read, parseU32_displayU32, bind, Except.bind]

end

namespace ParseState

/-- The state between two elements outside a surface. -/
def between (attrs : SessionAttrs) (surfaces : List SurfaceEntry) (layout : Layout F) :
    ParseState F :=
  { sessionAttrs := attrs, surfaces, layout, curSurface := none, inHost := false
    textTarget := none, textBuf := [] }

variable [RustFloat F] {xml : QuickXml}

variable (documented : Documented xml)

include documented

/-! ## Character data -/

private theorem run_textEvent {state : ParseState F} {target : TextTarget} (text : Str)
    (collecting : state.textTarget = some target) (empty : state.textBuf = []) :
    (textEvent (escapeText text)).foldlM (step xml) state =
      .ok { state with textBuf := trim text } := by
  unfold textEvent
  rw [trim_escapeText]
  by_cases nothing : trim text = []
  · rw [if_pos ((escapeText_eq_nil_iff _).mpr nothing), nothing, ← empty]
    rfl
  · rw [if_neg fun escaped => nothing ((escapeText_eq_nil_iff _).mp escaped)]
    apply Run.single
    simp [step, collecting, empty, unescape_escapeText documented, bind, Except.bind, pure,
      Except.pure]

theorem run_textEl {tag : Str} (target : TextTarget) {state : ParseState F} {b : SurfaceBuilder}
    (text : Str)
    (opens : ∀ state : ParseState F, step xml state (.start (plainStart tag [])) =
      .ok { state with textTarget := some target, textBuf := [] })
    (closes : ∀ state : ParseState F, step xml state (.close tag) = (do
      let b ← applyText state.curSurface state.inHost state.textTarget state.textBuf
      return { state with curSurface := some b, textTarget := none, textBuf := [] }))
    (applied : applyText state.curSurface state.inHost (some target) (trim text) = .ok b) :
    (textElEvents tag text).foldlM (step xml) state =
      .ok { state with curSurface := some b, textTarget := none, textBuf := [] } := by
  refine Run.append (Run.cons (opens state) (run_textEvent documented text rfl rfl)) ?_
  apply Run.single
  rw [closes]
  simp [applied, bind, Except.bind, pure, Except.pure]

/-! ## Surfaces -/

theorem parse_surfaceStart (surf : SurfaceEntry) :
    SurfaceBuilder.parse xml (surfaceStart surf) =
      .ok { id := surf.id, name := surf.name, order := surf.order, address := none, os := none
            machine := none, capture := none, codec := none, width := none, height := none } := by
  have id : attrStr xml (surfaceStart surf) "id".toList = .ok (surfaceIdToStr surf.id) :=
    (attrStr_plain rfl).trans (unescape_escapeAttr documented _)
  have name : attrStr xml (surfaceStart surf) "name".toList = .ok surf.name :=
    (attrStr_plain rfl).trans (unescape_escapeAttr documented _)
  have order : attrU32 xml (surfaceStart surf) "order".toList = .ok surf.order :=
    attrU32_of_attrStr ((attrStr_plain rfl).trans (unescape_displayU32 documented _))
  unfold SurfaceBuilder.parse
  rw [id, name, order]
  simp [bind, Except.bind, pure, Except.pure, parseSurfaceId_surfaceIdToStr]

private theorem step_dimensions (surf : SurfaceEntry) {state : ParseState F} {b : SurfaceBuilder}
    (current : state.curSurface = some b) :
    step xml state (dimensionsEvent surf) =
      .ok { state with
        curSurface := some { b with width := some surf.width, height := some surf.height }
        textBuf := [] } := by
  have height : attrU32 xml (plainStart "dimensions".toList
      [("height".toList, displayU32 surf.height), ("width".toList, displayU32 surf.width)])
      "height".toList = .ok surf.height :=
    attrU32_of_attrStr ((attrStr_plain rfl).trans (unescape_displayU32 documented _))
  have width : attrU32 xml (plainStart "dimensions".toList
      [("height".toList, displayU32 surf.height), ("width".toList, displayU32 surf.width)])
      "width".toList = .ok surf.width :=
    attrU32_of_attrStr ((attrStr_plain rfl).trans (unescape_displayU32 documented _))
  have element : ∀ attributes, Element.ofName
      (localName (plainStart "dimensions".toList attributes).name) = .dimensions := fun _ => rfl
  simp only [dimensionsEvent, step, openElement, element, current, width, height, bind,
    Except.bind, pure, Except.pure]

omit documented in
private theorem trim_osToStr (os : OsKind) : trim (osToStr os) = osToStr os := by
  cases os <;> decide

omit documented in
private theorem trim_codecToStr (codec : Codec) : trim (codecToStr codec) = codecToStr codec := by
  cases codec <;> decide

private theorem run_surface (surf : SurfaceEntry) (attrs : SessionAttrs) (surfaces : List SurfaceEntry)
    (layout : Layout F) :
    (surfaceEvents surf).foldlM (step xml) (between attrs surfaces layout) =
      .ok (between attrs (surfaces ++ [surf.trimmed]) layout) := by
  let inside (b : SurfaceBuilder) (inHost : Bool) : ParseState F :=
    { between attrs surfaces layout with curSurface := some b, inHost }
  let empty : SurfaceBuilder :=
    { id := surf.id, name := surf.name, order := surf.order, address := none, os := none
      machine := none, capture := none, codec := none, width := none, height := none }
  let addressed := { empty with address := some (trim surf.host.address) }
  let onOs := { addressed with os := some surf.host.os }
  let onMachine := { onOs with machine := some (trim surf.host.machine) }
  let captured := { onMachine with capture := some (trim surf.host.capture) }
  let coded := { captured with codec := some surf.codec }
  let sized := { coded with width := some surf.width, height := some surf.height }
  have opened : step xml (between attrs surfaces layout) (.start (surfaceStart surf)) =
      .ok (inside empty false) := by
    have element : Element.ofName (localName (surfaceStart surf).name) = .surface := rfl
    simp only [step, openElement, element, parse_surfaceStart documented, bind, Except.bind, pure,
      Except.pure]
    rfl
  have address : (textElEvents "address".toList surf.host.address).foldlM (step xml)
      (inside empty true) = .ok (inside addressed true) :=
    run_textEl documented _ _ (fun _ => rfl) (fun _ => rfl) rfl
  have os : (textElEvents "os".toList (osToStr surf.host.os)).foldlM (step xml)
      (inside addressed true) = .ok (inside onOs true) := by
    refine run_textEl documented .os _ (fun _ => rfl) (fun _ => rfl) ?_
    simp only [inside, applyText, trim_osToStr, osFromStr_osToStr, bind, Except.bind, pure,
      Except.pure]
    rfl
  have machine : (textElEvents "machine".toList surf.host.machine).foldlM (step xml)
      (inside onOs true) = .ok (inside onMachine true) :=
    run_textEl documented _ _ (fun _ => rfl) (fun _ => rfl) rfl
  have capture : (textElEvents "capture".toList surf.host.capture).foldlM (step xml)
      (inside onMachine true) = .ok (inside captured true) :=
    run_textEl documented _ _ (fun _ => rfl) (fun _ => rfl) rfl
  have host : (hostEvents surf.host).foldlM (step xml) (inside empty false) =
      .ok (inside captured false) := by
    have entered : step xml (inside empty false) (.start (plainStart "host".toList [])) =
        .ok (inside empty true) := rfl
    have left : step xml (inside captured true) (.close "host".toList) =
        .ok (inside captured false) := rfl
    exact Run.append (Run.cons entered (Run.append (Run.append (Run.append address os) machine)
      capture)) (Run.single left)
  have codec : (textElEvents "codec".toList (codecToStr surf.codec)).foldlM (step xml)
      (inside captured false) = .ok (inside coded false) := by
    refine run_textEl documented .codec _ (fun _ => rfl) (fun _ => rfl) ?_
    simp only [inside, applyText, trim_codecToStr, codecFromStr_codecToStr, bind, Except.bind,
      pure, Except.pure]
    rfl
  have dimensions : step xml (inside coded false) (dimensionsEvent surf) =
      .ok (inside sized false) :=
    step_dimensions documented surf rfl
  have closed : step xml (inside sized false) (.close "surface".toList) =
      .ok (between attrs (surfaces ++ [surf.trimmed]) layout) := rfl
  exact Run.append (Run.cons opened (Run.append (Run.append host codec) (Run.single dimensions)))
    (Run.single closed)

private theorem run_surfaces (added : List SurfaceEntry) (attrs : SessionAttrs) (layout : Layout F) :
    (added.flatMap surfaceEvents).foldlM (step xml) (between attrs [] layout) =
      .ok (between attrs (added.map SurfaceEntry.trimmed) layout) := by
  refine Run.flatMap (fun done => between attrs (done.map SurfaceEntry.trimmed) layout)
    (fun done next => ?_) [] added
  rw [List.map_append]
  exact run_surface documented next attrs _ layout

/-! ## The document -/

omit [Zero F] [RustFloat F] in
theorem parse_sessionStart (img : SessionImage F) (id : Option Str) :
    SessionAttrs.parse xml (plainStart "session".toList (sessionAttributes img id)) =
      .ok { id, created := some img.created, schemaVersion := some img.schemaVersion } := by
  have uri : unescape xml sessionNamespace = .ok sessionNamespace :=
    unescape_plain documented (by decide)
  have recorded : ∀ {out : SessionAttrs} {key raw val : Str}, unescape xml raw = .ok val →
      SessionAttrs.parseAttr xml out (.ok ⟨key, raw⟩) = out.set (localName key) val := by
    intro out key raw val unescaped
    simp only [SessionAttrs.parseAttr, unescaped, bind, Except.bind]
  have version : ∀ out : SessionAttrs, out.set "schema-version".toList
      (displayU32 img.schemaVersion) = .ok { out with schemaVersion := some img.schemaVersion } := by
    intro out
    change out.setVersion _ = _
    rw [SessionAttrs.setVersion, parseU32_displayU32]
  unfold SessionAttrs.parse plainStart sessionAttributes
  cases id with
  | none =>
      simp only [Option.elim_none, List.nil_append, List.map_cons, List.map_nil, List.foldlM_cons,
        List.foldlM_nil, recorded uri, recorded (unescape_escapeAttr documented _),
        recorded (unescape_displayU32 documented _)]
      exact (bind_pure (m := Except SessionError) _).trans
        (version { id := none, created := some img.created, schemaVersion := none })
  | some id =>
      simp only [Option.elim_some, List.cons_append, List.nil_append, List.map_cons, List.map_nil,
        List.foldlM_cons, List.foldlM_nil, recorded uri,
        recorded (unescape_escapeAttr documented _), recorded (unescape_displayU32 documented _)]
      exact (bind_pure (m := Except SessionError) _).trans
        (version { id := some id, created := some img.created, schemaVersion := none })

/-- The layout that a written one is read as. -/
def readLayout (layout : Layout F) : Layout F :=
  { layout with scrollPos := RustFloat.dropZeroSign layout.scrollPos }

variable (laws : RustFloat.Documented F)

include laws

private theorem step_strip {v pos : F} (reads : RustFloat.parse (fmtF32 v) = some pos)
    (attrs : SessionAttrs) (surfaces : List SurfaceEntry) (layout : Layout F) :
    step xml (between attrs surfaces layout)
        (.empty (plainStart "strip".toList [("scroll-pos".toList, fmtF32 v)])) =
      .ok (between attrs surfaces { layout with scrollPos := pos }) := by
  have read : attrStr xml (plainStart "strip".toList [("scroll-pos".toList, fmtF32 v)])
      "scroll-pos".toList = .ok (fmtF32 v) :=
    (attrStr_plain rfl).trans (unescape_fmtF32 documented laws v)
  have position : attrF32 (F := F) xml
      (plainStart "strip".toList [("scroll-pos".toList, fmtF32 v)]) "scroll-pos".toList =
        .ok pos := by
    unfold attrF32
    rw [read]
    simp only [reads, bind, Except.bind]
  have element : ∀ attributes, Element.ofName
      (localName (plainStart "strip".toList attributes).name) = .strip := fun _ => rfl
  simp only [step, openElement, element, position, bind, Except.bind, pure, Except.pure]
  rfl

omit laws in
private theorem step_focus (focus : SurfaceId) (attrs : SessionAttrs) (surfaces : List SurfaceEntry)
    (layout : Layout F) :
    step xml (between attrs surfaces layout) (focusEvent focus) =
      .ok (between attrs surfaces { layout with focus := some focus }) := by
  have read : attrStr xml (plainStart "focus".toList
      [("surface-ref".toList, escapeAttr (surfaceIdToStr focus))]) "surface-ref".toList =
        .ok (surfaceIdToStr focus) :=
    (attrStr_plain rfl).trans (unescape_escapeAttr documented _)
  have element : ∀ attributes, Element.ofName
      (localName (plainStart "focus".toList attributes).name) = .focus := fun _ => rfl
  simp only [focusEvent, step, openElement, element, read, parseSurfaceId_surfaceIdToStr, bind,
    Except.bind, pure, Except.pure]
  rfl

private theorem run_layout {layout : Layout F} {pos : F}
    (reads : RustFloat.parse (fmtF32 layout.scrollPos) = some pos)
    (attrs : SessionAttrs) (surfaces : List SurfaceEntry) :
    (layoutEvents layout).foldlM (step xml) (between attrs surfaces .default) =
      .ok (between attrs surfaces { layout with scrollPos := pos }) := by
  have opened : ∀ before : Layout F, step xml (between attrs surfaces before)
      (.start (plainStart "layout".toList [])) = .ok (between attrs surfaces before) :=
    fun _ => rfl
  have closed : ∀ after : Layout F, step xml (between attrs surfaces after)
      (.close "layout".toList) = .ok (between attrs surfaces after) := fun _ => rfl
  have strip := step_strip documented laws reads attrs surfaces .default
  cases layout with
  | mk scroll focus =>
      refine Run.append (Run.cons (opened _) (Run.cons strip ?_)) (Run.single (closed _))
      cases focus with
      | none => rfl
      | some focus => exact Run.single (step_focus documented focus attrs surfaces _)

/-- A written document is read, up to the end of its layout, as its attributes,
its trimmed surfaces and its layout, with the scroll position its text reads as. -/
theorem run_head_at (img : SessionImage F) (id : Option Str) {pos : F}
    (reads : RustFloat.parse (fmtF32 img.layout.scrollPos) = some pos) :
    (headEvents img id).foldlM (step xml) init =
      .ok (between
        { id, created := some img.created, schemaVersion := some img.schemaVersion }
        (img.surfaces.map SurfaceEntry.trimmed) { img.layout with scrollPos := pos }) := by
  have session : step xml (init (F := F))
      (.start (plainStart "session".toList (sessionAttributes img id))) =
        .ok (between { id, created := some img.created, schemaVersion := some img.schemaVersion }
          [] .default) := by
    have element : ∀ attributes, Element.ofName
        (localName (plainStart "session".toList attributes).name) = .session := fun _ => rfl
    simp only [step, openElement, element, parse_sessionStart documented, bind, Except.bind, pure,
      Except.pure]
    rfl
  have list : ∀ (attrs : SessionAttrs) (surfaces : List SurfaceEntry),
      step xml (between (F := F) attrs surfaces .default) (.start (plainStart "surfaces".toList [])) =
          .ok (between attrs surfaces .default) ∧
        step xml (between (F := F) attrs surfaces .default) (.close "surfaces".toList) =
          .ok (between attrs surfaces .default) := fun _ _ => ⟨rfl, rfl⟩
  have surfaces := run_surfaces documented img.surfaces
    { id, created := some img.created, schemaVersion := some img.schemaVersion }
    (Layout.default (F := F))
  exact Run.cons session (Run.append (Run.append (Run.cons (list _ _).1 surfaces)
    (Run.single (list _ _).2)) (run_layout documented laws reads _ _))

theorem run_head (img : SessionImage F) (id : Option Str)
    (number : RustFloat.isNaN img.layout.scrollPos = false) :
    (headEvents img id).foldlM (step xml) init =
      .ok (between
        { id, created := some img.created, schemaVersion := some img.schemaVersion }
        (img.surfaces.map SurfaceEntry.trimmed) (readLayout img.layout)) :=
  run_head_at documented laws img id (laws.parse_displayUnsignedZero number)

/-- Further children do not matter where they leave the state as it is. -/
theorem parse_document_at (img : SessionImage F) (id : Option Str) (extra : List Event) {pos : F}
    (reads : RustFloat.parse (fmtF32 img.layout.scrollPos) = some pos)
    (ignored : ∀ attrs surfaces layout, extra.foldlM (step xml) (between attrs surfaces layout) =
      .ok (between (F := F) attrs surfaces layout)) :
    parseReading xml ⟨documentEvents img id extra, .ok ()⟩ =
      .ok { img.normalForm id with layout := { img.layout with scrollPos := pos } } := by
  have closed : ∀ (attrs : SessionAttrs) (surfaces : List SurfaceEntry) (layout : Layout F),
      step xml (between attrs surfaces layout) (.close "session".toList) =
        .ok (between attrs surfaces layout) := fun _ _ _ => rfl
  have run : (documentEvents img id extra).foldlM (step xml) init = _ :=
    Run.append (Run.append (run_head_at documented laws img id reads) (ignored _ _ _))
      (Run.single (closed _ _ _))
  unfold parseReading
  rw [run]
  rfl

theorem parse_document (img : SessionImage F) (id : Option Str) (extra : List Event)
    (number : RustFloat.isNaN img.layout.scrollPos = false)
    (ignored : ∀ attrs surfaces layout, extra.foldlM (step xml) (between attrs surfaces layout) =
      .ok (between (F := F) attrs surfaces layout)) :
    parseReading xml ⟨documentEvents img id extra, .ok ()⟩ = .ok (img.normalForm id) :=
  parse_document_at documented laws img id extra (laws.parse_displayUnsignedZero number) ignored

end ParseState

section

variable [RustFloat F] {xml : QuickXml} (documented : Documented xml)
  (laws : RustFloat.Documented F)

include documented laws

/-- Any written image is read back, with the scroll position its text reads as. -/
theorem fromXml_toXml_at (sha256 : Sha256) (img : SessionImage F) {pos : F}
    (reads : RustFloat.parse (fmtF32 img.layout.scrollPos) = some pos) :
    SessionImage.fromXml xml (img.toXml sha256) =
      .ok { img.normalForm (some (img.id.getD (img.computeId sha256))) with
            layout := { img.layout with scrollPos := pos } } := by
  have head : (img.toXml sha256).head? ≠ some '\uFEFF' := by
    have first : (img.toXml sha256).head? = some '<' := rfl
    rw [first]
    decide
  unfold SessionImage.fromXml
  rw [(delivers_toXml laws sha256 img).read documented head]
  exact ParseState.parse_document_at documented laws img _ _ reads fun _ _ _ => rfl

theorem fromXml_toXml (sha256 : Sha256) (img : SessionImage F)
    (number : RustFloat.isNaN img.layout.scrollPos = false) :
    SessionImage.fromXml xml (img.toXml sha256) =
      .ok (img.normalForm (some (img.id.getD (img.computeId sha256)))) :=
  fromXml_toXml_at documented laws sha256 img (laws.parse_displayUnsignedZero number)

theorem fromXml_canonical (img : SessionImage F)
    (number : RustFloat.isNaN img.layout.scrollPos = false) :
    SessionImage.fromXml xml (img.writeDoc false false) = .ok (img.normalForm none) := by
  have head : (img.writeDoc false false).head? ≠ some '\uFEFF' := by
    have first : (img.writeDoc false false).head? = some '<' := rfl
    rw [first]
    decide
  have delivered := delivers_document laws img false none none .nil
  have same : img.writeDoc false false = img.writeDocWithId false none none := rfl
  rw [same] at head
  unfold SessionImage.fromXml
  rw [same, delivered.read documented head]
  exact ParseState.parse_document documented laws img _ _ number fun _ _ _ => rfl

/-- Parsing undoes printing up to the normal form, in the pretty form and in the
canonical form, and the scroll position comes back as the same number. -/
theorem fromXml_undoes_writing (sha256 : Sha256) (img : SessionImage F)
    (number : RustFloat.isNaN img.layout.scrollPos = false) :
    SessionImage.fromXml xml (img.toXml sha256) =
        .ok (img.normalForm (some (img.id.getD (img.computeId sha256)))) ∧
      (∃ text, fromUtf8 img.canonicalBytes = some text ∧
        SessionImage.fromXml xml text = .ok (img.normalForm none)) ∧
      RustFloat.eq (RustFloat.dropZeroSign img.layout.scrollPos) img.layout.scrollPos = true :=
  ⟨fromXml_toXml documented laws sha256 img number,
    ⟨_, fromUtf8_utf8 _, fromXml_canonical documented laws img number⟩,
    laws.dropZeroSign_eq number⟩

end

def paddedSession : SessionImage ℚ :=
  let id := surfaceIdFromSeed sha256Digest "mac:window:Safari".toList
  { id := none
    created := "2026-06-28T19:44:09Z".toList
    schemaVersion
    surfaces :=
      [{ id, name := "Safari <1>".toList, order := 0, codec := .h265, width := 1280, height := 800
         host :=
          { address := "100.0.0.1:7001".toList, os := .macOS, machine := " mac\n".toList
            capture := "window:Safari & co".toList } }]
    layout := { scrollPos := 12, focus := some id } }

theorem paddedSession_undoes_writing :
    SessionImage.fromXml Scanner.quickXml (paddedSession.toXml sha256Digest) =
        .ok (paddedSession.normalForm (some (paddedSession.computeId sha256Digest))) ∧
      (∃ text, fromUtf8 paddedSession.canonicalBytes = some text ∧
        SessionImage.fromXml Scanner.quickXml text = .ok (paddedSession.normalForm none)) ∧
      RustFloat.eq (RustFloat.dropZeroSign paddedSession.layout.scrollPos)
        paddedSession.layout.scrollPos = true :=
  fromXml_undoes_writing Scanner.documented ExactFloat.documented sha256Digest paddedSession rfl

end Simulboot
