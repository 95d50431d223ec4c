import Simulboot.Library.XmlDelivery
import Simulboot.Session.Escaping

/-!
# The written document

The events that the pretty and the canonical text deliver. White space is all
they differ in, so the events are the same but for the declared id.
-/

set_option autoImplicit false

namespace Simulboot

open Library Library.Xml

variable {F : Type}

/-! ## Events of the pieces -/

def textElEvents (tag text : Str) : List Event :=
  .start (plainStart tag []) :: textEvent (escapeText text) ++ [.close tag]

def hostEvents (host : HostEntry) : List Event :=
  .start (plainStart "host".toList []) ::
    (textElEvents "address".toList host.address ++ textElEvents "os".toList (osToStr host.os) ++
      textElEvents "machine".toList host.machine ++ textElEvents "capture".toList host.capture) ++
    [.close "host".toList]

def dimensionsEvent (surf : SurfaceEntry) : Event :=
  .empty (plainStart "dimensions".toList
    [("height".toList, displayU32 surf.height), ("width".toList, displayU32 surf.width)])

def surfaceStart (surf : SurfaceEntry) : BytesStart :=
  plainStart "surface".toList
    [("id".toList, escapeAttr (surfaceIdToStr surf.id)), ("name".toList, escapeAttr surf.name),
      ("order".toList, displayU32 surf.order)]

def surfaceEvents (surf : SurfaceEntry) : List Event :=
  .start (surfaceStart surf) ::
    (hostEvents surf.host ++ textElEvents "codec".toList (codecToStr surf.codec) ++
      [dimensionsEvent surf]) ++
    [.close "surface".toList]

def focusEvent (focus : SurfaceId) : Event :=
  .empty (plainStart "focus".toList [("surface-ref".toList, escapeAttr (surfaceIdToStr focus))])

def layoutEvents [Zero F] [RustFloat F] (layout : Layout F) : List Event :=
  .start (plainStart "layout".toList []) ::
    (.empty (plainStart "strip".toList [("scroll-pos".toList, fmtF32 layout.scrollPos)]) ::
      layout.focus.elim [] fun focus => [focusEvent focus]) ++
    [.close "layout".toList]

def sessionAttributes (img : SessionImage F) (id : Option Str) : List (Str × Str) :=
  ("xmlns".toList, sessionNamespace) :: ("created".toList, escapeAttr img.created) ::
    (id.elim [] (fun id => [("id".toList, escapeAttr id)]) ++
      [("schema-version".toList, displayU32 img.schemaVersion)])

def headEvents [Zero F] [RustFloat F] (img : SessionImage F) (id : Option Str) : List Event :=
  .start (plainStart "session".toList (sessionAttributes img id)) ::
    (.start (plainStart "surfaces".toList []) :: img.surfaces.flatMap surfaceEvents ++
      [.close "surfaces".toList] ++ layoutEvents img.layout)

def documentEvents [Zero F] [RustFloat F] (img : SessionImage F) (id : Option Str)
    (extra : List Event) : List Event :=
  headEvents img id ++ extra ++ [.close "session".toList]

def surfaceNames : List Str :=
  ["surface".toList, "host".toList, "address".toList, "os".toList, "machine".toList,
    "capture".toList, "codec".toList, "dimensions".toList]

theorem surfaceEvents_named {kind : Str → Prop} (named : ∀ name ∈ surfaceNames, kind name)
    (surf : SurfaceEntry) : AllNamed kind (surfaceEvents surf) := by
  have text : ∀ tag ∈ surfaceNames, ∀ content, AllNamed kind (textElEvents tag content) :=
    fun tag base content => .element (named tag base) (.text _)
  have host : AllNamed kind (hostEvents surf.host) :=
    .element (named _ (by simp [surfaceNames]))
      (.append (.append (.append (text _ (by simp [surfaceNames]) _)
        (text _ (by simp [surfaceNames]) _)) (text _ (by simp [surfaceNames]) _))
        (text _ (by simp [surfaceNames]) _))
  exact .element (named _ (by simp [surfaceNames])) (.append (.append host
    (text _ (by simp [surfaceNames]) _)) (.emptyTag (named _ (by simp [surfaceNames]))))

/-! ## What is written delivers them -/

theorem blank_newline (pretty : Bool) : Blank (newline pretty) := by
  cases pretty <;> simp [newline, Blank, isSpace]

theorem blank_indent (pretty : Bool) (depth : Nat) : Blank (indent pretty depth) := by
  cases pretty with
  | false => exact blank_nil
  | true =>
      intro c member
      simp only [indent, if_true, List.mem_flatten, List.mem_replicate] at member
      obtain ⟨text, ⟨_, rfl⟩, inside⟩ := member
      revert c
      decide

theorem isName_of_all {name : Str} (all : name ≠ [] ∧ name.all isNameChar = true) :
    IsName name :=
  ⟨all.1, List.all_eq_true.mp all.2⟩

theorem quote_not_mem_displayU32 (n : UInt32) : '"' ∉ displayU32 n ∧ '<' ∉ displayU32 n :=
  ⟨not_mem_displayNat n.toNat (by decide), not_mem_displayNat n.toNat (by decide)⟩

theorem quote_not_mem_escaped (s : Str) : '"' ∉ escapeAttr s ∧ '<' ∉ escapeAttr s :=
  ⟨quote_not_mem_escapeAttr s, lt_not_mem_escapeAttr s⟩

/-- A tag whose names are given literally is checked by evaluation. -/
theorem literalTag_wellFormed {name : Str} {attributes : List (Str × Str)} (keys : List Str)
    (sameKeys : attributes.map Prod.fst = keys)
    (names : (name :: keys).all (fun text => !text.isEmpty && text.all isNameChar) = true)
    (distinct : keys.Nodup)
    (values : ∀ pair ∈ attributes, '"' ∉ pair.2 ∧ '<' ∉ pair.2) :
    (Tag.plain name attributes).WellFormed := by
  have isName : ∀ text ∈ name :: keys, IsName text := by
    intro text member
    have checked := List.all_eq_true.mp names text member
    simp only [Bool.and_eq_true, Bool.not_eq_true', List.isEmpty_eq_false_iff] at checked
    exact isName_of_all checked
  refine Tag.plain_wellFormed (isName name (by simp)) ?_ (sameKeys ▸ distinct) values
  intro pair member
  have inside : pair.1 ∈ keys := sameKeys ▸ List.mem_map_of_mem member
  exact isName _ (List.mem_cons_of_mem _ inside)

theorem bareTag_wellFormed (name : Str) (isName : IsName name) :
    (Tag.plain name []).WellFormed :=
  Tag.plain_wellFormed isName (by simp) (by simp) (by simp)

theorem delivers_textEl (pretty : Bool) (depth : Nat) (tag text : Str)
    (isName : IsName tag) :
    Delivers (writeTextEl pretty depth tag text) (textElEvents tag text) := by
  have inner := Delivers.enclosedText ("<".toList ++ tag ++ ">".toList)
    ("</".toList ++ tag ++ ">".toList) (bareTag_wellFormed tag isName)
    (by simp [Tag.render, Tag.plain]) rfl (lt_not_mem_escapeText text)
  have whole := inner.padded (blank_indent pretty depth) (blank_newline pretty)
  simpa only [writeTextEl, textElEvents, List.append_assoc] using whole

theorem delivers_host (pretty : Bool) (host : HostEntry) :
    Delivers
      ((indent pretty 3 ++ "<host>".toList ++ newline pretty) ++
        writeTextEl pretty 4 "address".toList host.address ++
        writeTextEl pretty 4 "os".toList (osToStr host.os) ++
        writeTextEl pretty 4 "machine".toList host.machine ++
        writeTextEl pretty 4 "capture".toList host.capture ++
        (indent pretty 3 ++ "</host>".toList ++ newline pretty))
      (hostEvents host) := by
  have children := (((delivers_textEl pretty 4 "address".toList host.address
    (isName_of_all (by decide))).append
    (delivers_textEl pretty 4 "os".toList (osToStr host.os)
      (isName_of_all (by decide)))).append
    (delivers_textEl pretty 4 "machine".toList host.machine
      (isName_of_all (by decide)))).append
    (delivers_textEl pretty 4 "capture".toList host.capture (isName_of_all (by decide)))
  have inner := children.padded (blank_newline pretty) (blank_indent pretty 3)
  have element := Delivers.enclosed "<host>".toList "</host>".toList
    (bareTag_wellFormed "host".toList (isName_of_all (by decide))) rfl rfl inner
  have whole := element.padded (blank_indent pretty 3) (blank_newline pretty)
  simpa only [hostEvents, List.append_assoc] using whole

theorem delivers_dimensions (surf : SurfaceEntry) :
    Delivers ("<dimensions height=\"".toList ++ displayU32 surf.height ++ "\" width=\"".toList ++
      displayU32 surf.width ++ "\"/>".toList) [dimensionsEvent surf] := by
  refine .plainEmpty (literalTag_wellFormed ["height".toList, "width".toList] rfl (by decide)
    (by decide) ?_) ?_
  · intro pair member
    simp only [List.mem_cons, List.not_mem_nil, or_false] at member
    rcases member with rfl | rfl <;> exact quote_not_mem_displayU32 _
  · simp [Tag.plain, Tag.render, AttributeSource.plain, AttributeSource.render, Quote.char]

theorem surfaceTag_wellFormed (surf : SurfaceEntry) :
    (Tag.plain "surface".toList
      [("id".toList, escapeAttr (surfaceIdToStr surf.id)), ("name".toList, escapeAttr surf.name),
        ("order".toList, displayU32 surf.order)]).WellFormed := by
  refine literalTag_wellFormed ["id".toList, "name".toList, "order".toList] rfl (by decide)
    (by decide) ?_
  intro pair member
  simp only [List.mem_cons, List.not_mem_nil, or_false] at member
  rcases member with rfl | rfl | rfl
  · exact quote_not_mem_escaped _
  · exact quote_not_mem_escaped _
  · exact quote_not_mem_displayU32 _

/-- The inside of a surface element, with the blank text around it. -/
theorem delivers_surfaceContent (pretty : Bool) (surf : SurfaceEntry) :
    Delivers
      (newline pretty ++
        ((indent pretty 3 ++ "<host>".toList ++ newline pretty) ++
          writeTextEl pretty 4 "address".toList surf.host.address ++
          writeTextEl pretty 4 "os".toList (osToStr surf.host.os) ++
          writeTextEl pretty 4 "machine".toList surf.host.machine ++
          writeTextEl pretty 4 "capture".toList surf.host.capture ++
          (indent pretty 3 ++ "</host>".toList ++ newline pretty) ++
          writeTextEl pretty 3 "codec".toList (codecToStr surf.codec) ++
          (indent pretty 3 ++
            ("<dimensions height=\"".toList ++ displayU32 surf.height ++ "\" width=\"".toList ++
              displayU32 surf.width ++ "\"/>".toList) ++ newline pretty)) ++
        indent pretty 2)
      (hostEvents surf.host ++ textElEvents "codec".toList (codecToStr surf.codec) ++
        [dimensionsEvent surf]) := by
  have codec := delivers_textEl pretty 3 "codec".toList (codecToStr surf.codec)
    (isName_of_all (by decide))
  have dimensions := (delivers_dimensions surf).padded (blank_indent pretty 3)
    (blank_newline pretty)
  exact (((delivers_host pretty surf.host).append codec).append dimensions).padded
    (blank_newline pretty) (blank_indent pretty 2)

theorem delivers_surface (pretty : Bool) (surf : SurfaceEntry) :
    Delivers (writeSurface pretty surf) (surfaceEvents surf) := by
  have element := Delivers.enclosed
    ("<surface id=\"".toList ++ escapeAttr (surfaceIdToStr surf.id) ++
      "\" name=\"".toList ++ escapeAttr surf.name ++ "\" order=\"".toList ++
      displayU32 surf.order ++ "\">".toList)
    "</surface>".toList (surfaceTag_wellFormed surf)
    (by simp [Tag.plain, Tag.render, AttributeSource.plain, AttributeSource.render, Quote.char])
    rfl (delivers_surfaceContent pretty surf)
  have whole := element.padded (blank_indent pretty 2) (blank_newline pretty)
  simpa only [writeSurface, surfaceEvents, surfaceStart, List.append_assoc] using whole

theorem focusTag_wellFormed (focus : SurfaceId) :
    (Tag.plain "focus".toList
      [("surface-ref".toList, escapeAttr (surfaceIdToStr focus))]).WellFormed := by
  refine literalTag_wellFormed ["surface-ref".toList] rfl (by decide) (by decide) ?_
  intro pair member
  obtain rfl := List.mem_singleton.mp member
  exact quote_not_mem_escaped _

theorem delivers_focus (pretty : Bool) (focus : SurfaceId) :
    Delivers (writeFocus pretty focus) [focusEvent focus] := by
  refine .padded (blank_indent pretty 2) (.plainEmpty (focusTag_wellFormed focus) ?_)
    (blank_newline pretty)
  simp [Tag.plain, Tag.render, AttributeSource.plain, AttributeSource.render, Quote.char]

theorem sessionTag_wellFormed (img : SessionImage F) (id : Option Str) :
    (Tag.plain "session".toList (sessionAttributes img id)).WellFormed := by
  have namespaceValue : '"' ∉ sessionNamespace ∧ '<' ∉ sessionNamespace := by decide
  cases id with
  | none =>
      refine literalTag_wellFormed ["xmlns".toList, "created".toList, "schema-version".toList] rfl
        (by decide) (by decide) ?_
      intro pair member
      simp only [sessionAttributes, Option.elim_none, List.nil_append, List.mem_cons,
        List.not_mem_nil, or_false] at member
      rcases member with rfl | rfl | rfl
      · exact namespaceValue
      · exact quote_not_mem_escaped _
      · exact quote_not_mem_displayU32 _
  | some id =>
      refine literalTag_wellFormed
        ["xmlns".toList, "created".toList, "id".toList, "schema-version".toList] rfl
        (by decide) (by decide) ?_
      intro pair member
      simp only [sessionAttributes, Option.elim_some, List.cons_append, List.nil_append,
        List.mem_cons, List.not_mem_nil, or_false] at member
      rcases member with rfl | rfl | rfl | rfl
      · exact namespaceValue
      · exact quote_not_mem_escaped _
      · exact quote_not_mem_escaped _
      · exact quote_not_mem_displayU32 _

theorem sessionTag_opens (img : SessionImage F) (id : Option Str) :
    ("<session xmlns=\"".toList ++ sessionNamespace ++ "\"".toList) ++
        (" created=\"".toList ++ escapeAttr img.created ++ "\"".toList) ++ writeId id ++
        (" schema-version=\"".toList ++ displayU32 img.schemaVersion ++ "\"".toList) ++
        ">".toList =
      '<' :: (Tag.plain "session".toList (sessionAttributes img id)).render ++ ">".toList := by
  unfold sessionAttributes writeId
  generalize sessionNamespace = uri
  cases id <;>
    simp [Tag.plain, Tag.render, AttributeSource.plain, AttributeSource.render, Quote.char]

section

variable [Zero F] [RustFloat F] (laws : RustFloat.Documented F)

include laws

theorem stripTag_wellFormed (v : F) :
    (Tag.plain "strip".toList [("scroll-pos".toList, fmtF32 v)]).WellFormed := by
  refine literalTag_wellFormed ["scroll-pos".toList] rfl (by decide) (by decide) ?_
  intro pair member
  obtain rfl := List.mem_singleton.mp member
  exact fmtF32_delimiters laws v

theorem delivers_strip (v : F) :
    Delivers ("<strip scroll-pos=\"".toList ++ fmtF32 v ++ "\"/>".toList)
      [.empty (plainStart "strip".toList [("scroll-pos".toList, fmtF32 v)])] := by
  refine .plainEmpty (stripTag_wellFormed laws v) ?_
  simp [Tag.plain, Tag.render, AttributeSource.plain, AttributeSource.render, Quote.char]

theorem delivers_layout (pretty : Bool) (layout : Layout F) :
    Delivers (writeLayout pretty layout) (layoutEvents layout) := by
  have strip := (delivers_strip laws layout.scrollPos).padded (blank_indent pretty 2)
    (blank_newline pretty)
  have focus : Delivers (layout.focus.elim [] (writeFocus pretty))
      (layout.focus.elim [] fun focus => [focusEvent focus]) := by
    cases layout.focus with
    | none => exact .nil
    | some focus => exact delivers_focus pretty focus
  have inner := (strip.append focus).padded (blank_newline pretty) (blank_indent pretty 1)
  have element := Delivers.enclosed "<layout>".toList "</layout>".toList
    (bareTag_wellFormed "layout".toList (isName_of_all (by decide))) rfl rfl inner
  have whole := element.padded (blank_indent pretty 1) (blank_newline pretty)
  simpa only [writeLayout, layoutEvents, List.append_assoc, List.cons_append, List.nil_append]
    using whole

theorem delivers_document (img : SessionImage F) (pretty : Bool) (id extra : Option Str)
    {extraEvents : List Event} (delivered : Delivers (extra.getD []) extraEvents) :
    Delivers (img.writeDocWithId pretty id extra) (documentEvents img id extraEvents) := by
  have surfaces := Delivers.flatMap (delivers_surface pretty) img.surfaces
  have list := Delivers.enclosed "<surfaces>".toList "</surfaces>".toList
    (bareTag_wellFormed "surfaces".toList (isName_of_all (by decide))) rfl rfl
    (surfaces.padded (blank_newline pretty) (blank_indent pretty 1))
  have padded := list.padded (blank_indent pretty 1) (blank_newline pretty)
  have inner := (blank_newline pretty |> Delivers.blank).append
    ((padded.append (delivers_layout laws pretty img.layout)).append delivered)
  have element := Delivers.enclosed _ "</session>".toList
    (sessionTag_wellFormed img id) (sessionTag_opens img id) rfl inner
  unfold SessionImage.writeDocWithId
  simpa only [documentEvents, headEvents, List.append_assoc, List.cons_append, List.nil_append]
    using element

omit laws [Zero F] [RustFloat F] in
theorem delivers_xmlDeclaration : Delivers SessionImage.xmlDeclaration [.other] := by
  have declaration : Delivers (Misc.processing.openMark ++
      "xml version=\"1.0\" encoding=\"UTF-8\"".toList ++ Misc.processing.closeMark) [.other] :=
    .misc (by decide) ⟨by decide, by decide⟩
  have newline : Delivers "\n".toList [] := .blank (by simp [Blank, isSpace])
  have text : SessionImage.xmlDeclaration =
      Misc.processing.openMark ++ "xml version=\"1.0\" encoding=\"UTF-8\"".toList ++
        Misc.processing.closeMark ++ "\n".toList := by decide
  rw [text]
  exact declaration.append newline

theorem delivers_toXml (sha256 : Sha256) (img : SessionImage F) :
    Delivers (img.toXml sha256)
      (.other :: documentEvents img (some (img.id.getD (img.computeId sha256))) []) := by
  have document := delivers_document laws img true (some (img.id.getD (img.computeId sha256)))
    none .nil
  unfold SessionImage.toXml
  exact delivers_xmlDeclaration.append document

end

end Simulboot
