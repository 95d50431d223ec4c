import Simulboot.Library.XmlTypes
import Simulboot.Library.XmlWriting
import Simulboot.Session.Document
import Simulboot.Session.Namespace

/-!
# Saved sessions under the base schema

What the writer puts out has the elements of the base schema in their order, but
the schema also asks for a surface, for a focus and for values of its simple
types. An image is saved as a document of the schema where it has them all.
-/

set_option autoImplicit false

namespace Simulboot

open Library Library.Xml

/-! ## Attribute values -/

structure AttributeType where
  element : Str
  key : Str
  type : Str → Prop

/-- The simple types that the base schema gives to attributes; all others are
strings. -/
def attributeTypes : List AttributeType :=
  [⟨"session".toList, "created".toList, IsDateTime⟩,
    ⟨"session".toList, "schema-version".toList, IsInt⟩,
    ⟨"surface".toList, "order".toList, IsNonNegativeInteger⟩,
    ⟨"dimensions".toList, "width".toList, IsPositiveInteger⟩,
    ⟨"dimensions".toList, "height".toList, IsPositiveInteger⟩,
    ⟨"strip".toList, "scroll-pos".toList, IsDecimal⟩]

section

variable (xml : QuickXml)

/-- The attributes of a tag have values of their types. -/
def TypedStart (e : BytesStart) : Prop :=
  ∀ entry ∈ attributeTypes, localName e.name = entry.element →
    ∀ attr, .ok attr ∈ e.attributes → attr.key = entry.key →
      ∃ value, xml.unescape attr.value = .ok value ∧ entry.type value

def Typed : Event → Prop
  | .start e | .empty e => TypedStart xml e
  | .text _ | .close _ | .other => True

/-- A document of the base schema. What the wildcard behind the layout admits is
left to other schemas. -/
def Conforms (text : Str) : Prop :=
  ∃ scope head tail, BaseSession xml scope head tail ∧
    (∀ event ∈ events [] head, Typed xml event) ∧ render (head ++ tail) = text

end

/-! ## Writing base elements -/

/-- The layout element without the blank text around it. -/
def layoutText {F : Type} [Zero F] [RustFloat F] (pretty : Bool) (layout : Layout F) : Str :=
  "<layout>".toList ++ newline pretty ++
    (indent pretty 2 ++
      ("<strip scroll-pos=\"".toList ++ fmtF32 layout.scrollPos ++ "\"/>".toList) ++
      newline pretty) ++
    layout.focus.elim [] (writeFocus pretty) ++ indent pretty 1 ++ "</layout>".toList

private theorem writeLayout_eq {F : Type} [Zero F] [RustFloat F] (pretty : Bool) (layout : Layout F) :
    writeLayout pretty layout = indent pretty 1 ++ layoutText pretty layout ++ newline pretty := by
  unfold writeLayout layoutText
  simp only [List.append_assoc]

section

variable {xml : QuickXml} {scope : Scope} (bound : scope [] = some sessionNamespace)

include bound

section

variable (xml) {name : Str} {attributes : List (Str × Str)} {required : List Str}
  (plain : ':' ∉ name) (exactly : Exactly attributes required)

include plain exactly

private theorem spells_base (content : Scope → List Token → Prop) {inner : Str} (opening closing : Str)
    (wellFormed : (Tag.plain name attributes).WellFormed)
    (opens : opening = '<' :: (Tag.plain name attributes).render ++ ">".toList)
    (closes : closing = "</".toList ++ name ++ ">".toList) (inside : Spells (content scope) inner) :
    Spells (BaseElement xml name required content scope) (opening ++ inner ++ closing) :=
  Spells.named (.unqualified plain bound) xml exactly content opening closing wellFormed opens closes
    inside

private theorem spells_baseEmpty {text : Str} (wellFormed : (Tag.plain name attributes).WellFormed)
    (written : text = '<' :: (Tag.plain name attributes).render ++ "/>".toList) :
    Spells (BaseElement xml name required EmptyContent scope) text :=
  Spells.namedEmpty (.unqualified plain bound) xml exactly wellFormed written

end

variable (documented : Documented xml)

include documented

private theorem spells_textEl (pretty : Bool) (depth : Nat) {tag : Str} (isName : IsName tag)
    (plain : ':' ∉ tag) {allowed : Str → Prop} {text : Str} (isAllowed : allowed text) :
    Spells (Padded (BaseElement xml tag [] (TextContent xml allowed) scope))
      (writeTextEl pretty depth tag text) := by
  have content : Spells (TextContent xml allowed scope) (escapeText text) := by
    refine ⟨[.text (escapeText text)], by simp [Token.render],
      List.forall_mem_singleton.mpr (lt_not_mem_escapeText text), text, ?_, isAllowed⟩
    have value := unescape_eq_ok.mp (unescape_escapeText documented text)
    simp [charData, value, Except.toOption]
  have element := spells_base xml bound plain .none (TextContent xml allowed) ("<".toList ++ tag ++ ">".toList)
    ("</".toList ++ tag ++ ">".toList) (bareTag_wellFormed tag isName)
    (by simp [Tag.render, Tag.plain]) rfl content
  have whole := element.padded (blank_indent pretty depth) (blank_newline pretty)
  simpa only [writeTextEl, List.append_assoc] using whole

private theorem spells_host (pretty : Bool) (host : HostEntry) :
    Spells (Padded (BaseElement xml "host".toList [] (HostContent xml) scope))
      ((indent pretty 3 ++ "<host>".toList ++ newline pretty) ++
        writeTextEl pretty 4 "address".toList host.address ++
        writeTextEl pretty 4 "os".toList (osToStr host.os) ++
        writeTextEl pretty 4 "machine".toList host.machine ++
        writeTextEl pretty 4 "capture".toList host.capture ++
        (indent pretty 3 ++ "</host>".toList ++ newline pretty)) := by
  have os : osToStr host.os ∈ ["macOS".toList, "Windows".toList, "Linux".toList] := by
    cases host.os <;> decide
  have children : Spells (HostContent xml scope)
      (writeTextEl pretty 4 "address".toList host.address ++
        (writeTextEl pretty 4 "os".toList (osToStr host.os) ++
          (writeTextEl pretty 4 "machine".toList host.machine ++
            writeTextEl pretty 4 "capture".toList host.capture))) :=
    .cons (spells_textEl bound documented pretty 4 (isName_of_all (by decide)) (by decide) trivial)
      (.cons (spells_textEl bound documented pretty 4 (isName_of_all (by decide)) (by decide) os)
        (.cons
          (spells_textEl bound documented pretty 4 (isName_of_all (by decide)) (by decide) trivial)
          (.single
            (spells_textEl bound documented pretty 4 (isName_of_all (by decide)) (by decide)
              trivial))))
  have element := spells_base xml bound (by decide) .none (HostContent xml) "<host>".toList "</host>".toList
    (bareTag_wellFormed "host".toList (isName_of_all (by decide))) rfl rfl
    (.inSequence (blank_newline pretty) children (blank_indent pretty 3))
  have whole := element.padded (blank_indent pretty 3) (blank_newline pretty)
  simpa only [List.append_assoc] using whole

omit documented in
private theorem spells_dimensions (pretty : Bool) (surf : SurfaceEntry) :
    Spells (Padded (DimensionsElement xml scope))
      (indent pretty 3 ++
        ("<dimensions height=\"".toList ++ displayU32 surf.height ++ "\" width=\"".toList ++
          displayU32 surf.width ++ "\"/>".toList) ++ newline pretty) := by
  have wellFormed : (Tag.plain "dimensions".toList [("height".toList, displayU32 surf.height),
      ("width".toList, displayU32 surf.width)]).WellFormed := by
    refine literalTag_wellFormed ["height".toList, "width".toList] rfl (by decide) (by decide) ?_
    simp [quote_not_mem_displayU32]
  refine .padded (blank_indent pretty 3) (spells_baseEmpty xml bound (by decide)
    (.of_keys ["height".toList, "width".toList] rfl (by decide)) wellFormed ?_)
    (blank_newline pretty)
  simp [Tag.plain, Tag.render, AttributeSource.plain, AttributeSource.render, Quote.char]

private theorem spells_surface (pretty : Bool) (surf : SurfaceEntry) :
    Spells (Padded (SurfaceElement xml scope)) (writeSurface pretty surf) := by
  have codecValue : codecToStr surf.codec ∈ ["H265".toList, "AV1".toList] := by
    cases surf.codec <;> decide
  have codec : Spells (Padded (CodecElement xml scope))
      (writeTextEl pretty 3 "codec".toList (codecToStr surf.codec)) :=
    spells_textEl bound documented pretty 3 (isName_of_all (by decide)) (by decide) codecValue
  have children : Spells (SurfaceContent xml scope) _ :=
    .cons (spells_host bound documented pretty surf.host)
      (.cons codec (.single (spells_dimensions bound pretty surf)))
  have attributes : Exactly
      [("id".toList, escapeAttr (surfaceIdToStr surf.id)), ("name".toList, escapeAttr surf.name),
        ("order".toList, displayU32 surf.order)] ["id".toList, "name".toList, "order".toList] :=
    .of_keys ["id".toList, "name".toList, "order".toList] rfl (by decide)
  have element : Spells (SurfaceElement xml scope) _ := spells_base xml bound (by decide) attributes (SurfaceContent xml)
    ("<surface id=\"".toList ++ escapeAttr (surfaceIdToStr surf.id) ++ "\" name=\"".toList ++
      escapeAttr surf.name ++ "\" order=\"".toList ++ displayU32 surf.order ++ "\">".toList)
    "</surface>".toList (surfaceTag_wellFormed surf)
    (by simp [Tag.plain, Tag.render, AttributeSource.plain, AttributeSource.render, Quote.char])
    rfl (.inSequence (blank_newline pretty) children (blank_indent pretty 2))
  have whole := element.padded (blank_indent pretty 2) (blank_newline pretty)
  simpa only [writeSurface, List.append_assoc] using whole

private theorem spells_surfaces (pretty : Bool) {surfaces : List SurfaceEntry} (some : surfaces ≠ []) :
    Spells (Padded (BaseElement xml "surfaces".toList [] (SurfacesContent xml) scope))
      (indent pretty 1 ++ "<surfaces>".toList ++ newline pretty ++
        surfaces.flatMap (writeSurface pretty) ++
        (indent pretty 1 ++ "</surfaces>".toList ++ newline pretty)) := by
  have children : Spells (SurfacesContent xml scope)
      (newline pretty ++ surfaces.flatMap (writeSurface pretty) ++ indent pretty 1) := by
    obtain ⟨tokens, rendered, sequence⟩ := Spells.inSequence (blank_newline pretty)
      (Spells.flatMap surfaces fun surf _ => spells_surface bound documented pretty surf)
      (blank_indent pretty 1)
    obtain ⟨more, size⟩ := Nat.exists_eq_succ_of_ne_zero (List.length_pos_iff.mpr some).ne'
    rw [size, List.replicate_succ] at sequence
    exact ⟨tokens, rendered, more, sequence⟩
  have element := spells_base xml bound (by decide) .none (SurfacesContent xml)
    "<surfaces>".toList "</surfaces>".toList
    (bareTag_wellFormed "surfaces".toList (isName_of_all (by decide))) rfl rfl children
  have whole := element.padded (blank_indent pretty 1) (blank_newline pretty)
  simpa only [List.append_assoc] using whole

omit documented in
private theorem spells_layout {F : Type} [Zero F] [RustFloat F] (laws : RustFloat.Documented F)
    (pretty : Bool) {layout : Layout F} {focus : SurfaceId} (focused : layout.focus = some focus) :
    Spells (LayoutElement xml scope) (layoutText pretty layout) := by
  have strip : Spells (BaseElement xml "strip".toList ["scroll-pos".toList] EmptyContent scope)
      ("<strip scroll-pos=\"".toList ++ fmtF32 layout.scrollPos ++ "\"/>".toList) := by
    refine spells_baseEmpty xml bound (by decide) (.of_keys ["scroll-pos".toList] rfl (by decide))
      (stripTag_wellFormed laws layout.scrollPos) ?_
    simp [Tag.plain, Tag.render, AttributeSource.plain, AttributeSource.render, Quote.char]
  have focusElement : Spells (Padded
      (BaseElement xml "focus".toList ["surface-ref".toList] EmptyContent scope))
      (writeFocus pretty focus) := by
    refine .padded (blank_indent pretty 2) (spells_baseEmpty xml bound (by decide)
      (.of_keys ["surface-ref".toList] rfl (by decide)) (focusTag_wellFormed focus) ?_)
      (blank_newline pretty)
    simp [Tag.plain, Tag.render, AttributeSource.plain, AttributeSource.render, Quote.char]
  have children : Spells (LayoutContent xml scope) _ :=
    .cons (strip.padded (blank_indent pretty 2) (blank_newline pretty)) (.single focusElement)
  have element : Spells (LayoutElement xml scope) _ := spells_base xml bound (by decide) .none
    (LayoutContent xml) "<layout>".toList "</layout>".toList
    (bareTag_wellFormed "layout".toList (isName_of_all (by decide))) rfl rfl
    (.inSequence (blank_newline pretty) children (blank_indent pretty 1))
  unfold layoutText
  rw [focused]
  simpa only [Option.elim_some, List.append_assoc] using element

end

/-! ## Writing the document -/

section

variable {F : Type}

/-- The namespaces that are in scope inside a written session. -/
def writtenScope (xml : QuickXml) (img : SessionImage F) (id : Option Str) : Scope :=
  Scope.declare xml (fun _ => none) (Tag.plain "session".toList (sessionAttributes img id))

private theorem writtenScope_default {xml : QuickXml} (documented : Documented xml) (img : SessionImage F)
    (id : Option Str) : writtenScope xml img id [] = some sessionNamespace := by
  have uri := unescape_eq_ok.mp (@unescape_plain xml documented sessionNamespace (by decide))
  have first : (Tag.plain "session".toList (sessionAttributes img id)).attributes.find?
      (fun source => declaredPart source.key = some []) =
        some (.plain "xmlns".toList sessionNamespace) := rfl
  unfold writtenScope Scope.declare
  rw [first]
  exact congrArg Except.toOption uri

private theorem sessionTag_named {xml : QuickXml} (documented : Documented xml) (img : SessionImage F)
    (id : Str) :
    NamedTag sessionNamespace "session".toList
      ["id".toList, "created".toList, "schema-version".toList]
      (writtenScope xml img (some id))
      (Tag.plain "session".toList (sessionAttributes img (some id))) := by
  refine .plain (.unqualified (by decide) (writtenScope_default documented img (some id))) ?_ ?_
  · simp [sessionAttributes]
  · have keys : (sessionAttributes img (some id)).map Prod.fst =
        ["xmlns".toList, "created".toList, "id".toList, "schema-version".toList] := rfl
    rw [keys]
    decide

variable [Zero F] [RustFloat F]

/-- The document up to the end of the layout. -/
def headText (img : SessionImage F) (pretty : Bool) (id : Option Str) : Str :=
  '<' :: (Tag.plain "session".toList (sessionAttributes img id)).render ++ ">".toList ++
    newline pretty ++
    (indent pretty 1 ++ "<surfaces>".toList ++ newline pretty ++
      img.surfaces.flatMap (writeSurface pretty) ++
      (indent pretty 1 ++ "</surfaces>".toList ++ newline pretty)) ++
    indent pretty 1 ++ layoutText pretty img.layout

theorem writeDocWithId_eq_headText (img : SessionImage F) (pretty : Bool) (id extra : Option Str) :
    img.writeDocWithId pretty id extra =
      headText img pretty id ++ (newline pretty ++ extra.getD []) ++ "</session>".toList := by
  unfold SessionImage.writeDocWithId headText
  rw [← sessionTag_opens, writeLayout_eq]
  simp only [List.append_assoc]

/-- An image with a surface and a focus is written as the schema has it, whatever
the wildcard behind the layout is given. -/
theorem exists_baseSession {xml : QuickXml} (documented : Documented xml)
    (laws : RustFloat.Documented F) (img : SessionImage F) (id : Str) (pretty : Bool)
    (surfaces : img.surfaces ≠ []) {focus : SurfaceId} (focused : img.layout.focus = some focus) :
    ∃ head, render head = SessionImage.xmlDeclaration ++ headText img pretty (some id) ∧
      ∀ {count : Nat} {block : Str},
        Spells (InSequence
          (List.replicate count (WildcardElement xml (writtenScope xml img (some id))))) block →
        ∃ tail, render tail = block ++ "</session>".toList ∧
          BaseSession xml (writtenScope xml img (some id)) head tail := by
  have bound := writtenScope_default documented img (some id)
  obtain ⟨_, rendered, before, list, after, rfl, padsBefore, isList, padsAfter⟩ :=
    spells_surfaces bound documented pretty surfaces
  obtain ⟨layout, renderedLayout, isLayout⟩ := @spells_layout xml _ bound F _ _ laws pretty _ _ focused
  have declaration : IsProlog
      [.misc .processing "xml version=\"1.0\" encoding=\"UTF-8\"".toList, .text "\n".toList] := by
    have newline : Blank "\n".toList := by simp [Blank, isSpace]
    refine List.forall_mem_cons.mpr ⟨.inl (.processing ⟨by decide, by decide, by decide⟩), ?_⟩
    exact List.forall_mem_singleton.mpr (.inl (.blank newline))
  refine ⟨[.misc .processing "xml version=\"1.0\" encoding=\"UTF-8\"".toList, .text "\n".toList] ++
    .start (Tag.plain "session".toList (sessionAttributes img (some id))) ::
      ([.text (newline pretty)] ++ before ++ list ++ (after ++ [.text (indent pretty 1)]) ++ layout),
    ?_, fun {count block} spelled => ?_⟩
  · have opened : render
        [.misc .processing "xml version=\"1.0\" encoding=\"UTF-8\"".toList, .text "\n".toList] =
          SessionImage.xmlDeclaration := by decide
    simp only [render_append] at rendered
    unfold headText
    rw [render_append, opened, ← renderedLayout, ← rendered]
    simp [Token.render]
  · obtain ⟨wildcards, rfl, sequence⟩ := spelled
    refine ⟨wildcards ++ .close "session".toList [] :: [], by simp [Token.render], ?_⟩
    exact .cut declaration (sessionTag_wellFormed img (some id)) rfl
      (sessionTag_named documented img id) ((Padding.blank (blank_newline pretty)).append padsBefore)
      isList (padsAfter.append (.blank (blank_indent pretty 1))) isLayout sequence blank_nil .nil

end

/-! ## What every document has -/

section

variable {xml : QuickXml} {scope : Scope}

private theorem BaseElement.exists_opens {name : Str} {required : List Str}
    {content : Scope → List Token → Prop} {tokens : List Token}
    (element : BaseElement xml name required content scope tokens) :
    ∃ token ∈ tokens, token.Opens fun qname => localName qname = name :=
  ElementOf.exists_opens element fun _ _ named => localName_of_qualified named.1

private theorem LayoutContent.exists_focus {tokens : List Token} (content : LayoutContent xml scope tokens) :
    ∃ token ∈ tokens, token.Opens fun qname => localName qname = "focus".toList :=
  InSequence.exists_inside content (List.mem_cons_of_mem _ (List.mem_singleton_self _))
    fun _ => BaseElement.exists_opens

namespace BaseSession

variable {head tail : List Token} (document : BaseSession xml scope head tail)

include document

private theorem exists_surface :
    ∃ token ∈ head, token.Opens fun qname => localName qname = "surface".toList := by
  cases document with
  | cut _ _ _ _ _ surfaces _ _ _ _ _ =>
      obtain ⟨token, member, opens⟩ := ElementOf.exists_inside surfaces fun _ _ content =>
        InSequence.exists_inside content.choose_spec List.mem_cons_self
          fun _ => BaseElement.exists_opens
      exact ⟨token, by simp [member], opens⟩

private theorem exists_focus :
    ∃ token ∈ head, token.Opens fun qname => localName qname = "focus".toList := by
  cases document with
  | cut _ _ _ _ _ _ _ layout _ _ _ =>
      obtain ⟨token, member, opens⟩ := ElementOf.exists_inside layout fun _ _ =>
        LayoutContent.exists_focus
      exact ⟨token, by simp [member], opens⟩

private theorem closes_layout :
    ∃ front name, events [] head = front ++ [.close name] ∧ localName name = "layout".toList := by
  have closed : ∃ front name after, head = front ++ [.close name after] ∧
      localName name = "layout".toList := by
    cases document with
    | @cut prolog lead surfaces gap _ _ _ root _ _ _ _ _ _ _ _ _ _ layout =>
        cases layout with
        | empty _ _ content =>
            obtain ⟨_, nowhere, _⟩ := LayoutContent.exists_focus content
            exact absurd nowhere List.not_mem_nil
        | @enclosing tag inner after _ named _ _ =>
            exact ⟨prolog ++ .start root :: (lead ++ surfaces ++ gap ++ .start tag :: inner), tag.name,
              after, by simp, localName_of_qualified named.1⟩
  obtain ⟨front, name, after, rfl, layout⟩ := closed
  refine ⟨events [] front, name, ?_, layout⟩
  rw [events_append, events_eq_settled [] front, events, events, textEvent_blank blank_nil,
    List.append_assoc]

end BaseSession

end

/-! ## What a written document has -/

section

variable {F : Type} [Zero F] [RustFloat F]

private theorem opens_documentEvents {img : SessionImage F} {id : Option Str} {kind : Str → Prop}
    (opened : ∃ event ∈ documentEvents img id [], event.Opens kind) :
    kind "session".toList ∨ kind "surfaces".toList ∨
      (img.surfaces ≠ [] ∧ ∃ name ∈ surfaceNames, kind name) ∨ kind "layout".toList ∨
      kind "strip".toList ∨ img.layout.focus.isSome = true ∧ kind "focus".toList := by
  obtain ⟨event, member, opens⟩ := opened
  have inSurface : ∀ surf, event ∈ surfaceEvents surf → ∃ name ∈ surfaceNames, kind name := by
    intro surf inside
    have named : event.Named (· ∈ surfaceNames) :=
      surfaceEvents_named (fun _ listed => listed) surf event inside
    cases event with
    | start e | empty e => exact ⟨e.name, named, opens⟩
    | text raw | close name | other => exact opens.elim
  simp only [documentEvents, headEvents, layoutEvents, List.append_nil, List.cons_append,
    List.mem_cons, List.mem_append, List.not_mem_nil, or_false, List.mem_flatMap] at member
  rcases member with rfl | rfl | ((⟨surf, listed, inside⟩ | rfl) | rfl | rfl | focus | rfl) | rfl
  · exact .inl opens
  · exact .inr (.inl opens)
  · exact .inr (.inr (.inl ⟨List.ne_nil_of_mem listed, inSurface surf inside⟩))
  · exact opens.elim
  · exact .inr (.inr (.inr (.inl opens)))
  · exact .inr (.inr (.inr (.inr (.inl opens))))
  · cases focused : img.layout.focus with
    | none => simp [focused] at focus
    | some id =>
        rw [focused, Option.elim_some, List.mem_singleton] at focus
        subst focus
        exact .inr (.inr (.inr (.inr (.inr ⟨rfl, opens⟩))))
  · exact opens.elim
  · exact opens.elim

private theorem surfaces_ne_nil_of_opens {img : SessionImage F} {id : Option Str}
    (opened : ∃ event ∈ documentEvents img id [],
      event.Opens fun qname => localName qname = "surface".toList) : img.surfaces ≠ [] := by
  rcases opens_documentEvents opened with
    named | named | ⟨surfaces, _⟩ | named | named | ⟨_, named⟩
  · exact absurd named (by decide)
  · exact absurd named (by decide)
  · exact surfaces
  · exact absurd named (by decide)
  · exact absurd named (by decide)
  · exact absurd named (by decide)

private theorem focus_isSome_of_opens {img : SessionImage F} {id : Option Str}
    (opened : ∃ event ∈ documentEvents img id [],
      event.Opens fun qname => localName qname = "focus".toList) :
    img.layout.focus.isSome = true := by
  rcases opens_documentEvents opened with
    named | named | ⟨_, name, listed, named⟩ | named | named | ⟨focused, _⟩
  · exact absurd named (by decide)
  · exact absurd named (by decide)
  · exact absurd named (by revert name; decide)
  · exact absurd named (by decide)
  · exact absurd named (by decide)
  · exact focused

end

/-! ## Values of written attributes -/

section

variable {xml : QuickXml}

private theorem typedStart_plain {name : Str} {attributes : List (Str × Str)} :
    TypedStart xml (plainStart name attributes) ↔
      ∀ entry ∈ attributeTypes, localName name = entry.element →
        ∀ pair ∈ attributes, pair.1 = entry.key →
          ∃ value, xml.unescape pair.2 = .ok value ∧ entry.type value := by
  constructor
  · intro typed entry listed named pair inside key
    exact typed entry listed named ⟨pair.1, pair.2⟩ (List.mem_map_of_mem inside) key
  · intro typed entry listed named attr member key
    obtain ⟨pair, inside, same⟩ := List.mem_map.mp member
    cases same
    exact typed entry listed named pair inside key

private theorem localName_of_plain {name : Str} (plain : ':' ∉ name) : localName name = name := by
  unfold localName
  rw [rsplitOnce_eq_none_iff.mpr plain]

private theorem typedStart_bare (name : Str) : TypedStart xml (plainStart name []) := by
  rw [typedStart_plain]
  simp

private theorem isInt_displayU32 {n : UInt32} : IsInt (displayU32 n) ↔ n.toNat < 2 ^ 31 := by
  unfold IsInt displayU32
  rw [isInteger_displayNat]
  omega

private theorem isPositiveInteger_displayU32 {n : UInt32} : IsPositiveInteger (displayU32 n) ↔ 0 < n := by
  unfold IsPositiveInteger displayU32
  rw [isInteger_displayNat, UInt32.lt_iff_toNat_lt, UInt32.toNat_zero]
  omega

private theorem isNonNegativeInteger_displayU32 (n : UInt32) : IsNonNegativeInteger (displayU32 n) := by
  unfold IsNonNegativeInteger displayU32
  rw [isInteger_displayNat]
  omega

variable (documented : Documented xml)

include documented

private theorem typedStart_session {F : Type} {img : SessionImage F} {id : Str} :
    TypedStart xml (plainStart "session".toList (sessionAttributes img (some id))) ↔
      IsDateTime img.created ∧ img.schemaVersion.toNat < 2 ^ 31 := by
  have name : localName "session".toList = "session".toList := localName_of_plain (by decide)
  have created := unescape_eq_ok.mp (unescape_escapeAttr documented img.created)
  have version := unescape_eq_ok.mp (unescape_displayU32 documented img.schemaVersion)
  rw [typedStart_plain, name, ← isInt_displayU32]
  simp [attributeTypes, sessionAttributes, created, version]

private theorem typedStart_surface (surf : SurfaceEntry) : TypedStart xml (surfaceStart surf) := by
  have name : localName "surface".toList = "surface".toList := localName_of_plain (by decide)
  have order := unescape_eq_ok.mp (unescape_displayU32 documented surf.order)
  unfold surfaceStart
  rw [typedStart_plain, name]
  simp [attributeTypes, order, isNonNegativeInteger_displayU32]

private theorem typed_dimensions {surf : SurfaceEntry} :
    Typed xml (dimensionsEvent surf) ↔ 0 < surf.width ∧ 0 < surf.height := by
  have name : localName "dimensions".toList = "dimensions".toList := localName_of_plain (by decide)
  have width := unescape_eq_ok.mp (unescape_displayU32 documented surf.width)
  have height := unescape_eq_ok.mp (unescape_displayU32 documented surf.height)
  rw [dimensionsEvent, Typed, typedStart_plain, name, ← isPositiveInteger_displayU32, ← isPositiveInteger_displayU32]
  simp [attributeTypes, width, height]

private theorem typedStart_strip {F : Type} [Zero F] [RustFloat F] (laws : RustFloat.Documented F) {v : F} :
    TypedStart xml (plainStart "strip".toList [("scroll-pos".toList, fmtF32 v)]) ↔
      IsDecimal (fmtF32 v) := by
  have name : localName "strip".toList = "strip".toList := localName_of_plain (by decide)
  have value := unescape_eq_ok.mp (unescape_fmtF32 documented laws v)
  rw [typedStart_plain, name]
  simp [attributeTypes, value]

private theorem typed_surfaceEvents {surf : SurfaceEntry} :
    (∀ event ∈ surfaceEvents surf, Typed xml event) ↔ 0 < surf.width ∧ 0 < surf.height := by
  have text : ∀ tag content, ∀ event ∈ textElEvents tag content, Typed xml event := by
    intro tag content
    unfold textElEvents textEvent
    split <;> simp [Typed, typedStart_bare]
  have host : ∀ event ∈ hostEvents surf.host, Typed xml event := by
    unfold hostEvents
    simp only [List.cons_append, List.forall_mem_cons, List.forall_mem_append, List.not_mem_nil,
      false_implies, implies_true, and_true]
    exact ⟨typedStart_bare _, ⟨⟨⟨text _ _, text _ _⟩, text _ _⟩, text _ _⟩, trivial⟩
  unfold surfaceEvents
  simp only [List.cons_append, List.forall_mem_cons, List.forall_mem_append, List.not_mem_nil,
    false_implies, implies_true, and_true]
  constructor
  · intro ⟨_, ⟨_, dimensions⟩, _⟩
    exact (typed_dimensions documented).mp dimensions
  · intro positive
    exact ⟨typedStart_surface documented surf,
      ⟨⟨host, text _ _⟩, (typed_dimensions documented).mpr positive⟩, trivial⟩

theorem typed_headEvents {F : Type} [Zero F] [RustFloat F] (laws : RustFloat.Documented F)
    {img : SessionImage F} {id : Str} :
    (∀ event ∈ headEvents img (some id), Typed xml event) ↔
      (IsDateTime img.created ∧ img.schemaVersion.toNat < 2 ^ 31) ∧
        (∀ surf ∈ img.surfaces, 0 < surf.width ∧ 0 < surf.height) ∧
        IsDecimal (fmtF32 img.layout.scrollPos) := by
  have focus : ∀ event ∈ img.layout.focus.elim [] fun focus => [focusEvent focus],
      Typed xml event := by
    have name : localName "focus".toList = "focus".toList := localName_of_plain (by decide)
    cases img.layout.focus with
    | none => exact List.forall_mem_nil _
    | some focus =>
        refine List.forall_mem_singleton.mpr (typedStart_plain.mpr ?_)
        rw [name]
        simp [attributeTypes]
  have surfaces : (∀ event ∈ img.surfaces.flatMap surfaceEvents, Typed xml event) ↔
      ∀ surf ∈ img.surfaces, 0 < surf.width ∧ 0 < surf.height := by
    simp only [List.forall_mem_flatMap, typed_surfaceEvents documented]
  unfold headEvents layoutEvents
  simp only [List.cons_append, List.forall_mem_cons, List.forall_mem_append, List.not_mem_nil,
    false_implies, implies_true, and_true, surfaces]
  constructor
  · intro ⟨session, _, ⟨positive, _⟩, _, strip, _⟩
    exact ⟨(typedStart_session documented).mp session, positive,
      (typedStart_strip documented laws).mp strip⟩
  · intro ⟨session, positive, strip⟩
    exact ⟨(typedStart_session documented).mpr session, typedStart_bare _,
      ⟨positive, trivial⟩, typedStart_bare _, (typedStart_strip documented laws).mpr strip, focus,
      trivial⟩

end

/-! ## Where a written document is cut -/

def ClosesLayout (event : Event) : Prop :=
  ∃ name, event = .close name ∧ localName name = "layout".toList

private theorem not_closesLayout_of_named {event : Event}
    (named : event.Named fun name => localName name ≠ "layout".toList) : ¬ ClosesLayout event := by
  rintro ⟨name, rfl, layout⟩
  exact named layout

private theorem headEvents_split {F : Type} [Zero F] [RustFloat F] (img : SessionImage F) (id : Option Str) :
    ∃ front, headEvents img id = front ++ [.close "layout".toList] ∧
      ∀ event ∈ front, ¬ ClosesLayout event := by
  have opening : ∀ e, ¬ ClosesLayout (.start e) ∧ ¬ ClosesLayout (.empty e) := by
    intro e
    constructor <;> rintro ⟨_, same, _⟩ <;> cases same
  have surface : ∀ event ∈ img.surfaces.flatMap surfaceEvents, ¬ ClosesLayout event := by
    intro event member
    obtain ⟨surf, _, inside⟩ := List.mem_flatMap.mp member
    exact not_closesLayout_of_named (surfaceEvents_named (by decide) surf event inside)
  have surfaces : ¬ ClosesLayout (.close "surfaces".toList) :=
    not_closesLayout_of_named (by unfold Event.Named; decide)
  have focus : ∀ event ∈ img.layout.focus.elim [] fun focus => [focusEvent focus],
      ¬ ClosesLayout event := by
    cases img.layout.focus with
    | none => exact List.forall_mem_nil _
    | some focus => exact List.forall_mem_singleton.mpr (opening _).2
  refine ⟨.start (plainStart "session".toList (sessionAttributes img id)) ::
    (.start (plainStart "surfaces".toList []) :: img.surfaces.flatMap surfaceEvents ++
      [.close "surfaces".toList] ++ .start (plainStart "layout".toList []) ::
        .empty (plainStart "strip".toList [("scroll-pos".toList, fmtF32 img.layout.scrollPos)]) ::
          img.layout.focus.elim [] fun focus => [focusEvent focus]),
    by simp [headEvents, layoutEvents], ?_⟩
  simp only [List.cons_append, List.forall_mem_cons, List.forall_mem_append, List.not_mem_nil,
    false_implies, implies_true, and_true]
  exact ⟨(opening _).1, (opening _).1, ⟨surface, surfaces⟩, (opening _).1, (opening _).2, focus⟩

/-- However a document is cut that is read as this one, it is cut behind the layout. -/
theorem BaseSession.events_head {F : Type} [Zero F] [RustFloat F] {xml : QuickXml}
    (documented : Documented xml) {scope : Scope} {head tail : List Token}
    (document : BaseSession xml scope head tail) {img : SessionImage F} {id : Option Str}
    {behind : List Event} (others : ∀ event ∈ behind, ¬ ClosesLayout event)
    (read : xml.read (render (head ++ tail)) = ⟨.other :: (headEvents img id ++ behind), .ok ()⟩) :
    events [] head = .other :: headEvents img id ∧ events [] tail = behind := by
  have spliced := document.read_spliced documented .nil
  rw [List.append_nil, List.nil_append, read] at spliced
  obtain ⟨same, _⟩ := Reading.mk.inj spliced
  obtain ⟨front, name, ends, layout⟩ := document.closes_layout
  obtain ⟨before, written, none⟩ := headEvents_split img id
  have start : ¬ ClosesLayout .other := by
    rintro ⟨_, other, _⟩
    cases other
  rw [ends, written, List.append_assoc, List.append_assoc, ← List.cons_append] at same
  obtain ⟨rfl, closed, rest⟩ := append_cons_inj_of_kind same.symm ⟨name, rfl, layout⟩
    (List.forall_mem_cons.mpr ⟨start, none⟩) others
  exact ⟨by rw [ends, written, closed, List.cons_append], rest⟩

/-! ## Saved sessions -/

section

variable {F : Type} [Zero F] [RustFloat F] {xml : QuickXml} (documented : Documented xml)
  (laws : RustFloat.Documented F) (sha256 : Sha256)

include documented laws

private theorem read_toXml_split (img : SessionImage F) :
    xml.read (img.toXml sha256) =
      ⟨.other :: (headEvents img (some (img.id.getD (img.computeId sha256))) ++
        [.close "session".toList]), .ok ()⟩ := by
  have read := (delivers_toXml laws sha256 img).read documented (by
    unfold SessionImage.toXml SessionImage.xmlDeclaration
    exact (by decide : some '<' ≠ some '\uFEFF'))
  rw [read]
  simp [documentEvents]

/-- A written session that is taken for a document is cut behind its layout. -/
theorem BaseSession.events_of_toXml {scope : Scope} {head tail : List Token}
    (document : BaseSession xml scope head tail) {img : SessionImage F}
    (rendered : render (head ++ tail) = img.toXml sha256) :
    events [] head = .other :: headEvents img (some (img.id.getD (img.computeId sha256))) ∧
      events [] tail = [.close "session".toList] := by
  have whole := read_toXml_split documented laws sha256 img
  rw [← rendered] at whole
  refine document.events_head documented (List.forall_mem_singleton.mpr ?_) whole
  refine not_closesLayout_of_named ?_
  unfold Event.Named
  decide

theorem toXml_conforms_iff {img : SessionImage F} :
    Conforms xml (img.toXml sha256) ↔
      img.surfaces ≠ [] ∧ img.layout.focus.isSome = true ∧
        (IsDateTime img.created ∧ img.schemaVersion.toNat < 2 ^ 31) ∧
        (∀ surf ∈ img.surfaces, 0 < surf.width ∧ 0 < surf.height) ∧
        IsDecimal (fmtF32 img.layout.scrollPos) := by
  constructor
  · rintro ⟨scope, head, tail, document, typed, rendered⟩
    obtain ⟨cut, _⟩ := document.events_of_toXml documented laws sha256 rendered
    have opened : ∀ {kind : Str → Prop}, (∃ token ∈ head, token.Opens kind) →
        ∃ event ∈ documentEvents img (some (img.id.getD (img.computeId sha256))) [],
          event.Opens kind := by
      intro kind inside
      obtain ⟨event, member, opens⟩ := exists_opens_events inside []
      rw [cut] at member
      rcases List.mem_cons.mp member with rfl | listed
      · exact opens.elim
      · exact ⟨event, by simp [documentEvents, listed], opens⟩
    refine ⟨surfaces_ne_nil_of_opens (opened document.exists_surface),
      focus_isSome_of_opens (opened document.exists_focus), ?_⟩
    rw [cut, List.forall_mem_cons] at typed
    exact (typed_headEvents documented laws).mp typed.2
  · intro fields
    obtain ⟨surfaces, focused, values⟩ := fields
    obtain ⟨focus, focused⟩ := Option.isSome_iff_exists.mp focused
    obtain ⟨head, headRendered, close⟩ := exists_baseSession documented laws img
      (img.id.getD (img.computeId sha256)) true surfaces focused
    obtain ⟨tail, tailRendered, document⟩ := @close 0 _ (.blank (blank_newline true))
    have rendered : render (head ++ tail) = img.toXml sha256 := by
      rw [render_append, headRendered, tailRendered, SessionImage.toXml,
        writeDocWithId_eq_headText]
      simp only [Option.getD_none, List.append_nil, List.append_assoc]
    obtain ⟨cut, _⟩ := document.events_of_toXml documented laws sha256 rendered
    refine ⟨_, head, tail, document, ?_, rendered⟩
    rw [cut]
    exact List.forall_mem_cons.mpr ⟨trivial, (typed_headEvents documented laws).mpr values⟩

end

end Simulboot
