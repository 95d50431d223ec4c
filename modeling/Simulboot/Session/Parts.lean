import Simulboot.Library.XmlCut
import Simulboot.Session.NormalForm

/-!
# Parts of printed sessions

Where the tags of a printed session end, and what the reader delivers of a prefix
that does or does not reach them.
-/

set_option autoImplicit false

namespace Simulboot

open Library Library.Xml

variable {F : Type} [Zero F] [RustFloat F]

/-! ## Parts of the printed session -/

/-- The list of surfaces up to its end tag. -/
def listText (surfaces : List SurfaceEntry) : Str :=
  newline true ++ (indent true 1 ++ "<surfaces>".toList ++ newline true) ++
    surfaces.flatMap (writeSurface true)

def stripTag (layout : Layout F) : Str :=
  "<strip scroll-pos=\"".toList ++ fmtF32 layout.scrollPos ++ "\"/>".toList

/-- What stands between the list of surfaces and the strip. -/
def stripLead : Str :=
  (indent true 1 ++ "</surfaces>".toList ++ newline true) ++
    (indent true 1 ++ "<layout>".toList ++ newline true) ++ indent true 2

def focusTag (focus : SurfaceId) : Str :=
  "<focus surface-ref=\"".toList ++ escapeAttr (surfaceIdToStr focus) ++ "\"/>".toList

/-- What stands behind the last tag of the layout. -/
def closingText : Str :=
  newline true ++ (indent true 1 ++ "</layout>".toList ++ newline true) ++ "</session>".toList

namespace SessionImage

variable (sha256 : Sha256) (img : SessionImage F)

def printedId : Str :=
  img.id.getD (img.computeId sha256)

/-- The printed session up to the end of its session tag. -/
def openingText : Str :=
  xmlDeclaration ++
    (("<session xmlns=\"".toList ++ sessionNamespace ++ "\"".toList) ++
      (" created=\"".toList ++ escapeAttr img.created ++ "\"".toList) ++
      writeId (some (img.printedId sha256)) ++
      (" schema-version=\"".toList ++ displayU32 img.schemaVersion ++ "\"".toList) ++
      ">".toList)

/-- Up to the name in the end tag of the last surface: without the `>` and the newline
behind it. -/
def surfacesText : Str :=
  img.openingText sha256 ++ (listText img.surfaces).rdrop 2

def stripText : Str :=
  img.openingText sha256 ++ listText img.surfaces ++ stripLead ++ stripTag img.layout

def focusText (focus : SurfaceId) : Str :=
  img.stripText sha256 ++ (newline true ++ indent true 2) ++ focusTag focus

/-- Everything that the parser would not supply by itself. -/
structure AllRead (text : Str) : Prop where
  surfaces : img.surfaces ≠ [] → img.surfacesText sha256 <+: text
  scroll : RustFloat.eq img.layout.scrollPos 0 = false → img.stripText sha256 <+: text
  focus : ∀ focus ∈ img.layout.focus, img.focusText sha256 focus <+: text

/-- What stands behind the strip. -/
def behindStrip : Str :=
  img.layout.focus.elim [] (fun focus => newline true ++ indent true 2 ++ focusTag focus) ++
    closingText

private theorem toXml_strip : img.toXml sha256 = img.stripText sha256 ++ img.behindStrip := by
  unfold toXml writeDocWithId stripText openingText behindStrip listText stripLead closingText
    writeLayout writeFocus printedId stripTag focusTag
  cases img.layout.focus <;>
    simp only [Option.getD_none, Option.elim_none, Option.elim_some, List.append_assoc,
      List.nil_append]

theorem toXml_opening : img.toXml sha256 = img.openingText sha256 ++
    (listText img.surfaces ++ stripLead ++ stripTag img.layout ++ img.behindStrip) := by
  rw [toXml_strip, stripText]
  simp only [List.append_assoc]

private theorem toXml_focus {focus : SurfaceId} (focused : img.layout.focus = some focus) :
    img.toXml sha256 = img.focusText sha256 focus ++ closingText := by
  rw [toXml_strip, behindStrip, focused, focusText]
  simp only [Option.elim_some, List.append_assoc]

end SessionImage

/-! ## What the parts deliver -/

private theorem focusTag_eq (focus : SurfaceId) :
    focusTag focus = '<' :: (Tag.plain "focus".toList
      [("surface-ref".toList, escapeAttr (surfaceIdToStr focus))]).render ++ "/>".toList := by
  unfold focusTag
  simp [Tag.plain, Tag.render, AttributeSource.plain, AttributeSource.render, Quote.char]

private theorem stripTag_eq (layout : Layout F) :
    stripTag layout = '<' :: (Tag.plain "strip".toList
      [("scroll-pos".toList, fmtF32 layout.scrollPos)]).render ++ "/>".toList := by
  unfold stripTag
  simp [Tag.plain, Tag.render, AttributeSource.plain, AttributeSource.render, Quote.char]

private theorem writes_blank {text : Str} (blank : Blank text) (opened : List Str) :
    Writes text [] opened opened :=
  .of_delivers (.blank blank) opened

private theorem writes_surfaceFront (surf : SurfaceEntry) (opened : List Str) :
    ∃ front events, writeSurface true surf =
        front ++ (Token.close "surface".toList []).render ++ newline true ∧
      Writes front events opened ("surface".toList :: opened) ∧
      surfaceEvents surf = events ++ [.close "surface".toList] := by
  have lead := writes_blank (blank_indent true 2) opened
  have tag := Writes.startTag (surfaceTag_wellFormed surf) opened
  have inside := Writes.of_delivers (delivers_surfaceContent true surf) ("surface".toList :: opened)
  refine ⟨_, _, ?_, (lead.append tag).append inside, ?_⟩
  · simp [writeSurface, Token.render, Tag.plain, Tag.render, AttributeSource.plain,
      AttributeSource.render, Quote.char]
  · simp [surfaceEvents, surfaceStart]

private theorem writes_listText (surfaces : List SurfaceEntry) (opened : List Str) :
    Writes (listText surfaces)
      (.start (plainStart "surfaces".toList []) :: surfaces.flatMap surfaceEvents) opened
      ("surfaces".toList :: opened) := by
  have tag := Writes.startTag (bareTag_wellFormed "surfaces".toList (isName_of_all (by decide)))
    opened
  have list := Writes.of_delivers (.flatMap (delivers_surface true) surfaces)
    ("surfaces".toList :: opened)
  have whole := ((((writes_blank (blank_newline true) opened).append
    (writes_blank (blank_indent true 1) opened)).append tag).append
    (writes_blank (blank_newline true) _)).append list
  simpa [listText, Tag.plain, Tag.render] using whole

private theorem writes_stripLead (opened : List Str) :
    Writes stripLead [.close "surfaces".toList, .start (plainStart "layout".toList [])]
      ("surfaces".toList :: opened) ("layout".toList :: opened) := by
  have named : IsName "surfaces".toList := isName_of_all (by decide)
  have close := Writes.endTag named opened
  have tag := Writes.startTag (bareTag_wellFormed "layout".toList (isName_of_all (by decide)))
    opened
  have whole := (((((writes_blank (blank_indent true 1) _).append close).append
    (writes_blank (blank_newline true) opened)).append
    (writes_blank (blank_indent true 1) opened)).append tag).append
    ((writes_blank (blank_newline true) _).append (writes_blank (blank_indent true 2) _))
  simpa [stripLead, Tag.plain, Tag.render] using whole

private theorem writes_closingText :
    Writes closingText [.close "layout".toList, .close "session".toList]
      ["layout".toList, "session".toList] [] := by
  have layoutNamed : IsName "layout".toList := isName_of_all (by decide)
  have sessionNamed : IsName "session".toList := isName_of_all (by decide)
  have layout := Writes.endTag layoutNamed ["session".toList]
  have session := Writes.endTag sessionNamed []
  have whole := (((((writes_blank (blank_newline true) _).append
    (writes_blank (blank_indent true 1) _)).append layout).append
    (writes_blank (blank_newline true) _))).append session
  simpa [closingText] using whole

def behindStripEvents (layout : Layout F) : List Event :=
  layout.focus.elim [] (fun focus => [focusEvent focus]) ++
    [.close "layout".toList, .close "session".toList]

def listEvents (surfaces : List SurfaceEntry) : List Event :=
  .start (plainStart "surfaces".toList []) :: surfaces.flatMap surfaceEvents

def stripEvent (layout : Layout F) : Event :=
  .empty (plainStart "strip".toList [("scroll-pos".toList, fmtF32 layout.scrollPos)])

namespace SessionImage

variable (sha256 : Sha256) (img : SessionImage F)

def sessionEvent : Event :=
  .start (plainStart "session".toList (sessionAttributes img (some (img.printedId sha256))))

/-- All that a printed session delivers. -/
def printedEvents : List Event :=
  [.other, img.sessionEvent sha256] ++ (listEvents img.surfaces ++
    [.close "surfaces".toList, .start (plainStart "layout".toList [])] ++
    [stripEvent img.layout] ++ behindStripEvents img.layout)

theorem printedEvents_eq : img.printedEvents sha256 =
    .other :: documentEvents img (some (img.printedId sha256)) [] := by
  simp [printedEvents, documentEvents, headEvents, layoutEvents, listEvents, stripEvent,
    behindStripEvents, sessionEvent]

theorem writes_openingText :
    Writes (img.openingText sha256) [.other, img.sessionEvent sha256] [] ["session".toList] := by
  have tag := Writes.startTag (sessionTag_wellFormed img (some (img.printedId sha256))) []
  have whole := (Writes.of_delivers delivers_xmlDeclaration []).append tag
  unfold openingText
  rw [sessionTag_opens]
  exact whole

omit [Zero F] [RustFloat F] in
private theorem writes_behindStrip :
    Writes img.behindStrip (behindStripEvents img.layout) ["layout".toList, "session".toList]
      [] := by
  unfold behindStrip behindStripEvents
  cases img.layout.focus with
  | none => exact writes_closingText
  | some focus =>
      have tag : Delivers (focusTag focus) [focusEvent focus] :=
        Delivers.plainEmpty (focusTag_wellFormed focus) (focusTag_eq focus)
      have padded := (Delivers.blank (blank_newline true)).append
        ((Delivers.blank (blank_indent true 2)).append tag)
      have whole := (Writes.of_delivers padded _).append writes_closingText
      simpa using whole

/-! ## Where the printed session can be cut -/

variable {img} {xml : QuickXml} (documented : Documented xml) (atEnd : DocumentedAtEnd xml)
  {text : Str}

omit [Zero F] [RustFloat F] in
private theorem noMark_of_prefix {whole : Str} (starts : whole.head? = some '<')
    (isPrefix : text <+: whole) : text.head? ≠ some '\uFEFF' := by
  cases text with
  | nil => simp
  | cons c rest =>
      obtain ⟨more, rfl⟩ := isPrefix
      intro mark
      rw [List.cons_append, List.head?_cons] at starts
      rw [List.head?_cons, Option.some.inj starts] at mark
      exact absurd (Option.some.inj mark) (by decide)

theorem noMark_toXml (isPrefix : text <+: img.toXml sha256) : text.head? ≠ some '\uFEFF' :=
  noMark_of_prefix rfl isPrefix

include documented atEnd

/-- The whole document is one part, cut off within. -/
theorem cut_whole (laws : RustFloat.Documented F)
    (isPrefix : text <+: img.toXml sha256) :
    EndsInMarkup text ∨ CutAt xml text [] (img.printedEvents sha256) := by
  have strip : Delivers (stripTag img.layout) [stripEvent img.layout] :=
    delivers_strip laws img.layout.scrollPos
  have back := (((writes_listText img.surfaces ["session".toList]).append
    (writes_stripLead _)).append (.of_delivers strip _)).append img.writes_behindStrip
  have nothing : Writes [] [] [] [] := .of_delivers .nil []
  have noMark := noMark_toXml sha256 isPrefix
  rw [toXml_opening] at isPrefix
  exact nothing.cut documented atEnd ((img.writes_openingText sha256).append back) isPrefix noMark

/-- Before its end or behind it, the session tag. -/
theorem cut_opening (laws : RustFloat.Documented F) (isPrefix : text <+: img.toXml sha256) :
    EndsInMarkup text ∨
      (¬ img.openingText sha256 <+: text ∧ CutAt xml text [] [.other]) ∨
      (img.openingText sha256 <+: text ∧
        CutAt xml text ([.other] ++ [img.sessionEvent sha256])
          (listEvents img.surfaces ++
            [.close "surfaces".toList, .start (plainStart "layout".toList [])] ++
            [stripEvent img.layout] ++ behindStripEvents img.layout)) := by
  have rendered : img.openingText sha256 = xmlDeclaration ++ (Token.start (Tag.plain
      "session".toList (sessionAttributes img (some (img.printedId sha256))))).render := by
    unfold openingText
    rw [sessionTag_opens]
    rfl
  have strip : Delivers (stripTag img.layout) [stripEvent img.layout] :=
    delivers_strip laws img.layout.scrollPos
  have back := (((writes_listText img.surfaces ["session".toList]).append
    (writes_stripLead _)).append (.of_delivers strip _)).append img.writes_behindStrip
  have noMark := noMark_toXml sha256 isPrefix
  have wellFormed : (Token.start (Tag.plain "session".toList
    (sessionAttributes img (some (img.printedId sha256))))).WellFormed := sessionTag_wellFormed img _
  have event : (Token.start (Tag.plain "session".toList
      (sessionAttributes img (some (img.printedId sha256))))).event = img.sessionEvent sha256 :=
    congrArg Event.start (Tag.plain_event _ _)
  rw [toXml_opening, rendered] at isPrefix
  rw [rendered, ← event, ← Token.needed_start]
  exact (Writes.of_delivers delivers_xmlDeclaration []).cut_around documented atEnd wellFormed
    trivial rfl back isPrefix noMark

theorem cut_strip (laws : RustFloat.Documented F) (isPrefix : text <+: img.toXml sha256) :
    EndsInMarkup text ∨
      (¬ img.stripText sha256 <+: text ∧ CutAt xml text []
        ([.other, img.sessionEvent sha256] ++ (listEvents img.surfaces ++
          [.close "surfaces".toList, .start (plainStart "layout".toList [])]))) ∨
      (img.stripText sha256 <+: text ∧ CutAt xml text
        ([.other, img.sessionEvent sha256] ++ (listEvents img.surfaces ++
          [.close "surfaces".toList, .start (plainStart "layout".toList [])]) ++
          [stripEvent img.layout]) (behindStripEvents img.layout)) := by
  have rendered : img.stripText sha256 =
      (img.openingText sha256 ++ (listText img.surfaces ++ stripLead)) ++ (Token.empty (Tag.plain
        "strip".toList [("scroll-pos".toList, fmtF32 img.layout.scrollPos)])).render := by
    unfold stripText
    rw [stripTag_eq]
    simp only [Token.render, List.append_assoc]
    rfl
  have front := (img.writes_openingText sha256).append
    ((writes_listText img.surfaces ["session".toList]).append (writes_stripLead _))
  have wellFormed : (Token.empty (Tag.plain "strip".toList
    [("scroll-pos".toList, fmtF32 img.layout.scrollPos)])).WellFormed := stripTag_wellFormed laws _
  have noMark := noMark_toXml sha256 isPrefix
  have event : (Token.empty (Tag.plain "strip".toList
      [("scroll-pos".toList, fmtF32 img.layout.scrollPos)])).event = stripEvent img.layout :=
    congrArg Event.empty (Tag.plain_event _ _)
  rw [toXml_strip, rendered] at isPrefix
  rw [rendered, ← event, ← Token.needed_empty]
  exact front.cut_around documented atEnd wellFormed trivial rfl img.writes_behindStrip isPrefix
    noMark

theorem cut_focus (laws : RustFloat.Documented F) {focus : SurfaceId}
    (focused : img.layout.focus = some focus) (isPrefix : text <+: img.toXml sha256) :
    EndsInMarkup text ∨
      (¬ img.focusText sha256 focus <+: text ∧ CutAt xml text []
        ([.other, img.sessionEvent sha256] ++ (listEvents img.surfaces ++
          [.close "surfaces".toList, .start (plainStart "layout".toList [])] ++
          [stripEvent img.layout]))) ∨
      (img.focusText sha256 focus <+: text ∧ CutAt xml text
        ([.other, img.sessionEvent sha256] ++ (listEvents img.surfaces ++
          [.close "surfaces".toList, .start (plainStart "layout".toList [])] ++
          [stripEvent img.layout]) ++ [focusEvent focus])
        [.close "layout".toList, .close "session".toList]) := by
  have rendered : img.focusText sha256 focus =
      (img.openingText sha256 ++ ((listText img.surfaces ++ stripLead ++ stripTag img.layout) ++
        (newline true ++ indent true 2))) ++ (Token.empty (Tag.plain
          "focus".toList [("surface-ref".toList, escapeAttr (surfaceIdToStr focus))])).render := by
    unfold focusText stripText
    rw [focusTag_eq]
    simp only [Token.render, List.append_assoc]
    rfl
  have strip : Delivers (stripTag img.layout) [stripEvent img.layout] :=
    delivers_strip laws img.layout.scrollPos
  have lead := (writes_blank (blank_newline true) ["layout".toList, "session".toList]).append
    (writes_blank (blank_indent true 2) _)
  have upTo := (((writes_listText img.surfaces ["session".toList]).append
    (writes_stripLead _)).append (.of_delivers strip _)).append lead
  rw [List.append_nil, List.append_nil] at upTo
  have front := (img.writes_openingText sha256).append upTo
  have wellFormed : (Token.empty (Tag.plain "focus".toList
    [("surface-ref".toList, escapeAttr (surfaceIdToStr focus))])).WellFormed :=
    focusTag_wellFormed focus
  have noMark := noMark_toXml sha256 isPrefix
  have event : (Token.empty (Tag.plain "focus".toList
      [("surface-ref".toList, escapeAttr (surfaceIdToStr focus))])).event = focusEvent focus :=
    congrArg Event.empty (Tag.plain_event _ _)
  rw [toXml_focus sha256 img focused, rendered] at isPrefix
  rw [rendered, ← event, ← Token.needed_empty]
  exact front.cut_around documented atEnd wellFormed trivial rfl writes_closingText isPrefix noMark

/-- The end tag of the last surface is where the list of surfaces is complete. -/
theorem cut_surfaces (laws : RustFloat.Documented F) {surfaces : List SurfaceEntry}
    {last : SurfaceEntry} (listed : img.surfaces = surfaces ++ [last])
    (isPrefix : text <+: img.toXml sha256) :
    ∃ front, [.other, img.sessionEvent sha256] ++ listEvents img.surfaces =
        front ++ [.close "surface".toList] ∧
      (EndsInMarkup text ∨
        (¬ img.surfacesText sha256 <+: text ∧ CutAt xml text [] front) ∨
        (img.surfacesText sha256 <+: text ∧ CutAt xml text (front ++ [.close "surface".toList])
          ([.close "surfaces".toList, .start (plainStart "layout".toList [])] ++
            [stripEvent img.layout] ++ behindStripEvents img.layout))) := by
  obtain ⟨lead, leadEvents, written, writesLead, delivered⟩ :=
    writes_surfaceFront last ["surfaces".toList, "session".toList]
  have list : listText img.surfaces = listText surfaces ++ (lead ++
      (Token.close "surface".toList []).render) ++ newline true := by
    unfold listText
    rw [listed, List.flatMap_append, List.flatMap_singleton, written]
    simp only [List.append_assoc]
  have needed : img.surfacesText sha256 =
      (img.openingText sha256 ++ (listText surfaces ++ lead)) ++
        (Token.close "surface".toList []).needed := by
    have ends : (Token.close "surface".toList []).render ++ newline true =
        (Token.close "surface".toList []).needed ++ ['>', '\n'] := rfl
    have dropped : ∀ text : Str, (text ++ ['>', '\n']).rdrop 2 = text := by
      intro text
      simp [List.rdrop]
    unfold surfacesText
    rw [list, List.append_assoc, List.append_assoc, ends, ← List.append_assoc, ← List.append_assoc,
      dropped]
    simp only [List.append_assoc]
  have strip : Delivers (stripTag img.layout) [stripEvent img.layout] :=
    delivers_strip laws img.layout.scrollPos
  have front := (img.writes_openingText sha256).append
    ((writes_listText surfaces ["session".toList]).append writesLead)
  have back := (((writes_blank (blank_newline true)
    ["surfaces".toList, "session".toList]).append (writes_stripLead _)).append
      (.of_delivers strip _)).append img.writes_behindStrip
  have wellFormed : (Token.close "surface".toList []).WellFormed :=
    ⟨isName_of_all (by decide), blank_nil⟩
  have noMark := noMark_toXml sha256 isPrefix
  have split : img.toXml sha256 = (img.openingText sha256 ++ (listText surfaces ++ lead)) ++
      (Token.close "surface".toList []).render ++
      (newline true ++ stripLead ++ stripTag img.layout ++ img.behindStrip) := by
    rw [toXml_opening, list]
    simp only [List.append_assoc]
  rw [split] at isPrefix
  rw [needed]
  refine ⟨[.other, img.sessionEvent sha256] ++ (listEvents surfaces ++ leadEvents), ?_,
    front.cut_around documented atEnd wellFormed trivial rfl back isPrefix noMark⟩
  unfold listEvents
  rw [listed, List.flatMap_append, List.flatMap_singleton, delivered]
  simp only [List.cons_append, List.append_assoc, List.nil_append]

end SessionImage

end Simulboot
