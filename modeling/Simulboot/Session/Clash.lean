import Simulboot.Library.ExactFloat
import Simulboot.Library.XmlReader
import Simulboot.Galois.Document
import Simulboot.Session.Namespace

/-!
# Names that clash

For every name that the parser knows there is a document of the base schema
whose reading changes when an element of that name is spliced in, though the
element lies in the coefficients namespace.
-/

set_option autoImplicit false

namespace Simulboot

open Library Library.Xml

/-! ## A document -/

def textTokens (tag text : Str) : List Token :=
  plainTokens tag [] [.text (escapeText text)]

def hostTokens (host : HostEntry) : List Token :=
  plainTokens "host".toList []
    (textTokens "address".toList host.address ++ (textTokens "os".toList (osToStr host.os) ++
      (textTokens "machine".toList host.machine ++ (textTokens "capture".toList host.capture ++ []))))

def surfaceTokens (surf : SurfaceEntry) : List Token :=
  plainTokens "surface".toList
    [("id".toList, escapeAttr (surfaceIdToStr surf.id)), ("name".toList, escapeAttr surf.name),
      ("order".toList, displayU32 surf.order)]
    (hostTokens surf.host ++ (textTokens "codec".toList (codecToStr surf.codec) ++
      ([.empty (Tag.plain "dimensions".toList
        [("height".toList, displayU32 surf.height), ("width".toList, displayU32 surf.width)])] ++
      [])))

def oneSurface {F : Type} [Zero F] (surf : SurfaceEntry) : SessionImage F :=
  { id := some "sha256:0".toList, created := "2026-06-28T19:44:09Z".toList, schemaVersion
    surfaces := [surf], layout := { scrollPos := 0, focus := some surf.id } }

variable {F : Type} [Zero F] [RustFloat F]

variable (F) in
def headTokens (surf : SurfaceEntry) : List Token :=
  .start (Tag.plain "session".toList (sessionAttributes (oneSurface (F := F) surf)
      (some "sha256:0".toList))) ::
    (plainTokens "surfaces".toList [] (surfaceTokens surf ++ []) ++
      plainTokens "layout".toList []
        ([.empty (Tag.plain "strip".toList [("scroll-pos".toList, fmtF32 (0 : F))])] ++
          ([.empty (Tag.plain "focus".toList
            [("surface-ref".toList, escapeAttr (surfaceIdToStr surf.id))])] ++ [])))

private theorem events_textTokens (tag text : Str) (rest : List Token) :
    events [] (textTokens tag text ++ rest) = textElEvents tag text ++ events [] rest := by
  rw [textTokens, events_plainTokens]
  simp [textElEvents, events]

private theorem events_headTokens (surf : SurfaceEntry) (rest : List Token) :
    events [] (headTokens F surf ++ rest) =
      headEvents (oneSurface (F := F) surf) (some "sha256:0".toList) ++ events [] rest := by
  have surfaces : (oneSurface (F := F) surf).surfaces = [surf] := rfl
  have layout : (oneSurface (F := F) surf).layout = { scrollPos := 0, focus := some surf.id } := rfl
  unfold headTokens surfaceTokens hostTokens headEvents layoutEvents
  rw [surfaces, layout]
  unfold surfaceEvents hostEvents surfaceStart dimensionsEvent focusEvent
  simp only [List.cons_append, List.append_assoc, List.nil_append, List.flatMap_cons,
    List.flatMap_nil, Option.elim_some, events_start, events_plainTokens, events_textTokens,
    events_empty, events_close]

/-! ## It is a base-schema session -/

variable {xml : QuickXml}

section

variable {scope : Scope} (base : scope [] = some sessionNamespace)

include base

private theorem namedTag_plain {name : Str} {required : List Str} {attributes : List (Str × Str)}
    (noColon : ':' ∉ name) (keys : (attributes.map Prod.fst).Perm required) :
    NamedTag sessionNamespace name required scope (Tag.plain name attributes) := by
  have same : (Tag.plain name attributes).attributes.map AttributeSource.key =
      attributes.map Prod.fst := by
    simp [Tag.plain, AttributeSource.plain, Function.comp_def]
  refine ⟨.unqualified noColon base, ?_, ?_⟩
  · rw [same]
    exact fun key member => keys.mem_iff.mpr member
  · rw [same]
    exact fun key member => .inl (keys.mem_iff.mp member)

private theorem baseElement_plain {name : Str} {required : List Str} {attributes : List (Str × Str)}
    {content : Scope → List Token → Prop} {inner : List Token}
    (wellFormed : (Tag.plain name attributes).WellFormed) (noColon : ':' ∉ name)
    (keys : (attributes.map Prod.fst).Perm required)
    (plain : ∀ key ∈ required, declaredPart key = none) (inside : content scope inner) :
    BaseElement xml name required content scope (plainTokens name attributes inner) := by
  have kept : scope.declare xml (Tag.plain name attributes) = scope :=
    declare_plain fun pair member => plain _ (keys.mem_iff.mp (List.mem_map_of_mem member))
  refine .enclosing wellFormed ?_ ?_ blank_nil
  · rw [kept]
    exact namedTag_plain base noColon keys
  · rw [kept]
    exact inside

private theorem baseElement_empty {name : Str} {required : List Str} {attributes : List (Str × Str)}
    (wellFormed : (Tag.plain name attributes).WellFormed) (noColon : ':' ∉ name)
    (keys : (attributes.map Prod.fst).Perm required)
    (plain : ∀ key ∈ required, declaredPart key = none) :
    BaseElement xml name required EmptyContent scope [.empty (Tag.plain name attributes)] := by
  have kept : scope.declare xml (Tag.plain name attributes) = scope :=
    declare_plain fun pair member => plain _ (keys.mem_iff.mp (List.mem_map_of_mem member))
  refine .empty wellFormed ?_ ⟨by simp [Padding], by simp⟩
  rw [kept]
  exact namedTag_plain base noColon keys

private theorem baseElement_text (documented : Documented xml) {tag : Str} {allowed : Str → Prop}
    {text : Str} (isName : IsName tag) (noColon : ':' ∉ tag) (value : allowed text) :
    BaseElement xml tag [] (TextContent xml allowed) scope (textTokens tag text) := by
  refine baseElement_plain base (bareTag_wellFormed _ isName) noColon (by simp) (by simp) ⟨?_, text, ?_, value⟩
  · exact List.forall_mem_singleton.mpr (lt_not_mem_escapeText text)
  · have read := unescape_eq_ok.mp (unescape_escapeText documented text)
    simp [charData, read, Except.toOption]

private theorem surfaceElement_tokens (documented : Documented xml) (surf : SurfaceEntry) :
    SurfaceElement xml scope (surfaceTokens surf) := by
  have host : BaseElement xml "host".toList [] (HostContent xml) scope (hostTokens surf.host) := by
    refine baseElement_plain base (bareTag_wellFormed _ (isName_of_all (by decide))) (by decide)
      (by simp) (by simp) ?_
    refine InSequence.cons (baseElement_text base documented (isName_of_all (by decide)) (by decide)
      trivial) (.cons (baseElement_text base documented (isName_of_all (by decide)) (by decide) ?_)
      (.cons (baseElement_text base documented (isName_of_all (by decide)) (by decide) trivial)
      (.cons (baseElement_text base documented (isName_of_all (by decide)) (by decide) trivial)
        .nil)))
    cases surf.host.os <;> decide
  refine baseElement_plain base (surfaceTag_wellFormed surf) (by decide) (by simp) (by decide) ?_
  refine InSequence.cons host (.cons (baseElement_text base documented (isName_of_all (by decide))
    (by decide) ?_) (.cons (baseElement_empty base ?_ (by decide) ?_ (by decide)) .nil))
  · cases surf.codec <;> decide
  · refine literalTag_wellFormed ["height".toList, "width".toList] rfl (by decide) (by decide) ?_
    intro pair member
    simp only [List.mem_cons, List.not_mem_nil, or_false] at member
    rcases member with rfl | rfl <;> exact quote_not_mem_displayU32 _
  · exact .swap _ _ _

end

variable (F) in
/-- The namespaces in scope inside the session element. -/
def sessionScope (xml : QuickXml) (surf : SurfaceEntry) : Scope :=
  Scope.declare xml (fun _ => none)
    (Tag.plain "session".toList
      (sessionAttributes (oneSurface (F := F) surf) (some "sha256:0".toList)))

omit [RustFloat F] in
private theorem sessionScope_base (documented : Documented xml) (surf : SurfaceEntry) :
    sessionScope F xml surf [] = some sessionNamespace := by
  have found : (Tag.plain "session".toList (sessionAttributes (oneSurface (F := F) surf)
      (some "sha256:0".toList))).attributes.find?
        (fun source => declaredPart source.key = some []) =
      some (.plain "xmlns".toList sessionNamespace) := rfl
  have uri : xml.unescape sessionNamespace = .ok sessionNamespace :=
    unescape_eq_ok.mp (unescape_plain documented (by decide))
  unfold sessionScope Scope.declare
  rw [found]
  simp only [AttributeSource.plain, uri, Except.toOption]

private theorem baseSession_headTokens (documented : Documented xml) (laws : RustFloat.Documented F)
    (surf : SurfaceEntry) (count : Nat) {wildcards : List Token}
    (wild : InSequence (List.replicate count (WildcardElement xml (sessionScope F xml surf)))
      wildcards) :
    BaseSession xml (sessionScope F xml surf) (headTokens F surf)
      (wildcards ++ [.close "session".toList []]) := by
  have base := sessionScope_base (F := F) documented surf
  have surfaces : BaseElement xml "surfaces".toList [] (SurfacesContent xml)
      (sessionScope F xml surf) (plainTokens "surfaces".toList [] (surfaceTokens surf ++ [])) :=
    baseElement_plain base (bareTag_wellFormed _ (isName_of_all (by decide))) (by decide) (by simp)
      (by simp) ⟨0, .cons (surfaceElement_tokens base documented surf) .nil⟩
  have strip : BaseElement xml "strip".toList ["scroll-pos".toList] EmptyContent
      (sessionScope F xml surf)
      [.empty (Tag.plain "strip".toList [("scroll-pos".toList, fmtF32 (0 : F))])] :=
    baseElement_empty base (literalTag_wellFormed ["scroll-pos".toList] rfl (by decide) (by decide)
      (List.forall_mem_singleton.mpr (fmtF32_delimiters laws 0))) (by decide) (.refl _) (by decide)
  have focus : BaseElement xml "focus".toList ["surface-ref".toList] EmptyContent
      (sessionScope F xml surf)
      [.empty (Tag.plain "focus".toList
        [("surface-ref".toList, escapeAttr (surfaceIdToStr surf.id))])] :=
    baseElement_empty base (literalTag_wellFormed ["surface-ref".toList] rfl (by decide) (by decide)
      (List.forall_mem_singleton.mpr (quote_not_mem_escaped _))) (by decide) (.refl _) (by decide)
  have layout : LayoutElement xml (sessionScope F xml surf) (plainTokens "layout".toList []
      ([.empty (Tag.plain "strip".toList [("scroll-pos".toList, fmtF32 (0 : F))])] ++
        ([.empty (Tag.plain "focus".toList
          [("surface-ref".toList, escapeAttr (surfaceIdToStr surf.id))])] ++ []))) :=
    baseElement_plain base (bareTag_wellFormed _ (isName_of_all (by decide))) (by decide) (by simp)
      (by simp) (InSequence.cons strip (.cons focus .nil))
  have named : Qualified (sessionScope F xml surf) "session".toList sessionNamespace
      "session".toList :=
    .unqualified (by decide) base
  have document : BaseSession xml (sessionScope F xml surf) ([] ++ _ :: ([] ++ _ ++ [] ++ _))
      (wildcards ++ [.close "session".toList []]) :=
    .cut (by simp [IsProlog])
      (sessionTag_wellFormed (oneSurface (F := F) surf) (some "sha256:0".toList)) rfl ⟨named, ?_⟩
      (by simp [Padding]) surfaces (by simp [Padding]) layout wild blank_nil (by simp [Padding])
  · simpa only [headTokens, sessionScope, List.nil_append, List.append_nil]
      using document
  · have keys : (Tag.plain "session".toList (sessionAttributes (oneSurface (F := F) surf)
        (some "sha256:0".toList))).attributes.map AttributeSource.key =
          ["xmlns".toList, "created".toList, "id".toList, "schema-version".toList] := rfl
    refine ⟨?_, ?_⟩
    · rw [keys]
      decide
    · rw [keys]
      have allowed : ∀ key ∈ ["xmlns".toList, "created".toList, "id".toList,
          "schema-version".toList], key ∈ ["id".toList, "created".toList, "schema-version".toList] ∨
            (declaredPart key).isSome = true := by decide
      exact fun key member => (allowed key member).imp id .inl

/-! ## Elements of the other namespace -/

def coeffDeclaration : Str × Str :=
  ("xmlns:".toList ++ coeffPrefix, coefficientsNamespace)

private theorem declare_coeff (documented : Documented xml) (scope : Scope) (name : Str)
    (more : List (Str × Str)) :
    scope.declare xml (Tag.plain name (coeffDeclaration :: more)) coeffPrefix =
      some coefficientsNamespace := by
  have found : (Tag.plain name (coeffDeclaration :: more)).attributes.find?
      (fun source => declaredPart source.key = some coeffPrefix) =
        some (.plain coeffDeclaration.1 coeffDeclaration.2) := rfl
  have uri : xml.unescape coeffDeclaration.2 = .ok coefficientsNamespace :=
    unescape_eq_ok.mp (unescape_plain documented (by decide))
  unfold Scope.declare
  rw [found]
  simp only [AttributeSource.plain, uri, Except.toOption]

private theorem qualified_coeffName (documented : Documented xml) (scope : Scope) {name : Str}
    (noColon : ':' ∉ name) (more : List (Str × Str)) :
    Qualified (scope.declare xml (Tag.plain (coeffName name) (coeffDeclaration :: more)))
      (coeffName name) coefficientsNamespace name :=
  .qualified (by decide) noColon (declare_coeff documented scope _ more)

private theorem coeffTag_wellFormed {name : Str} (letters : name.all isNameChar = true) :
    (Tag.plain (coeffName name) [coeffDeclaration]).WellFormed := by
  refine Tag.plain_wellFormed (coeffName_isName letters) ?_ (List.nodup_singleton _) ?_
  · exact List.forall_mem_singleton.mpr (isName_of_all (by decide))
  · exact List.forall_mem_singleton.mpr ⟨by decide, by decide⟩

/-- An element without content that declares its own namespace. -/
def coefficientTokens (name : Str) : List Token :=
  plainTokens (coeffName name) [coeffDeclaration] []

private theorem coefficientTokens_element (documented : Documented xml) {vocabulary : Str → Prop}
    {name : Str} (inVocabulary : vocabulary name) (letters : name.all isNameChar = true)
    (noColon : ':' ∉ name) (scope : Scope) :
    NamespaceElement xml coefficientsNamespace vocabulary scope (coefficientTokens name) :=
  .enclosing (coeffTag_wellFormed letters)
    ⟨name, qualified_coeffName documented scope noColon [], inVocabulary⟩ .nil blank_nil

private theorem emptyCoefficient_element (documented : Documented xml) {vocabulary : Str → Prop}
    {name : Str} (inVocabulary : vocabulary name) (letters : name.all isNameChar = true)
    (noColon : ':' ∉ name) (scope : Scope) :
    NamespaceElement xml coefficientsNamespace vocabulary scope
      [.empty (Tag.plain (coeffName name) [coeffDeclaration])] :=
  .empty (coeffTag_wellFormed letters)
    ⟨name, qualified_coeffName documented scope noColon [], inVocabulary⟩ .nil

/-! ## What the parser makes of them -/

private theorem fromXml_headTokens (documented : Documented xml) (laws : RustFloat.Documented F)
    (surf : SurfaceEntry) {wildcards spliced : List Token} {count : Nat}
    (wild : InSequence (List.replicate count (WildcardElement xml (sessionScope F xml surf)))
      wildcards) (sound : Sound spliced) :
    SessionImage.fromXml (F := F) xml
        (render (headTokens F surf ++ spliced ++ (wildcards ++ [.close "session".toList []]))) =
      parseReading xml ⟨headEvents (oneSurface (F := F) surf) (some "sha256:0".toList) ++
        events [] (spliced ++ (wildcards ++ [.close "session".toList []])), .ok ()⟩ := by
  have head := events_headTokens (F := F) surf []
  rw [List.append_nil, events, textEvent_blank blank_nil, List.append_nil] at head
  unfold SessionImage.fromXml
  rw [(baseSession_headTokens documented laws surf _ wild).read_spliced documented sound, head]

private theorem parseReading_error {events : List Event} {ending : Except Str Unit} {e : SessionError}
    (failed : events.foldlM (ParseState.step xml) (ParseState.init (F := F)) = .error e) :
    parseReading (F := F) xml ⟨events, ending⟩ = .error e := by
  unfold parseReading
  rw [failed]
  rfl

section

variable (documented : Documented xml) (laws : RustFloat.Documented F)

include documented laws

omit [RustFloat F] laws in
private theorem parse_coeffDeclaration (name : Str) :
    SessionAttrs.parse xml (plainStart name [coeffDeclaration]) = .ok .default := by
  have uri : unescape xml coeffDeclaration.2 = .ok coeffDeclaration.2 :=
    unescape_plain documented (by decide)
  unfold SessionAttrs.parse plainStart
  simp only [List.map_cons, List.map_nil, List.foldlM_cons, List.foldlM_nil,
    SessionAttrs.parseAttr, uri, bind, Except.bind]
  rfl

private theorem coefficientTokens_fail (surf : SurfaceEntry) {name : Str} (known : name ∈ parserNames)
    (notHost : name ≠ "host".toList) :
    ∃ e, parseReading (F := F) xml ⟨headEvents (oneSurface (F := F) surf) (some "sha256:0".toList) ++
      [.start (plainStart (coeffName name) [coeffDeclaration]), .close (coeffName name),
        .close "session".toList], .ok ()⟩ = .error e := by
  have head := ParseState.run_head documented laws (oneSurface (F := F) surf) (some "sha256:0".toList)
    laws.zero_isNaN
  have fails : ∀ e, (∀ attrs surfaces layout,
      [.start (plainStart (coeffName name) [coeffDeclaration]), .close (coeffName name),
        .close "session".toList].foldlM (ParseState.step xml)
          (ParseState.between (F := F) attrs surfaces layout) = .error e) →
      ∃ e, parseReading (F := F) xml ⟨headEvents (oneSurface (F := F) surf) (some "sha256:0".toList) ++
        [.start (plainStart (coeffName name) [coeffDeclaration]), .close (coeffName name),
          .close "session".toList], .ok ()⟩ = .error e := fun e failed =>
    ⟨e, parseReading_error (Run.append_error head (failed _ _ _))⟩
  unfold parserNames at known
  simp only [List.mem_cons, List.not_mem_nil, or_false] at known
  rcases known with rfl | rfl | rfl | rfl | rfl | rfl | rfl | rfl | rfl | rfl | rfl
  · have opened : ∀ (attrs : SessionAttrs) (surfaces : List SurfaceEntry) (layout : Layout F),
        ParseState.step xml (ParseState.between attrs surfaces layout)
          (.start (plainStart (coeffName "session".toList) [coeffDeclaration])) =
            .ok (ParseState.between .default surfaces layout) := by
      intro attrs surfaces layout
      have element : Element.ofName
          (localName (plainStart (coeffName "session".toList) [coeffDeclaration]).name) =
            .session := rfl
      simp only [ParseState.step, ParseState.openElement, element,
        parse_coeffDeclaration documented, bind, Except.bind, pure, Except.pure]
      rfl
    refine ⟨.malformed [.text "missing session/@created".toList], ?_⟩
    unfold parseReading
    rw [Run.append head (Run.cons (opened _ _ _) (Run.cons rfl (Run.single rfl)))]
    rfl
  · exact fails _ fun _ _ _ => rfl
  · exact absurd rfl notHost
  · exact fails _ fun _ _ _ => rfl
  · exact fails _ fun _ _ _ => rfl
  · exact fails _ fun _ _ _ => rfl
  · exact fails _ fun _ _ _ => rfl
  · exact fails _ fun _ _ _ => rfl
  · exact fails _ fun _ _ _ => rfl
  · exact fails _ fun _ _ _ => rfl
  · exact fails _ fun _ _ _ => rfl

end

/-! ## An empty host element -/

def strangerAttributes (surf : SurfaceEntry) : List (Str × Str) :=
  [coeffDeclaration, ("id".toList, escapeAttr (surfaceIdToStr surf.id)),
    ("name".toList, escapeAttr surf.name), ("order".toList, displayU32 surf.order)]

/-- A foreign surface that holds nothing but an address. -/
def strangerTokens (surf : SurfaceEntry) : List Token :=
  plainTokens (coeffName "surface".toList) (strangerAttributes surf)
    (textTokens (coeffName "address".toList) surf.host.address)

def strangerEvents (surf : SurfaceEntry) : List Event :=
  .start (plainStart (coeffName "surface".toList) (strangerAttributes surf)) ::
    (textElEvents (coeffName "address".toList) surf.host.address ++
      [.close (coeffName "surface".toList)])

private theorem events_strangerTokens (surf : SurfaceEntry) (rest : List Token) :
    events [] (strangerTokens surf ++ rest) = strangerEvents surf ++ events [] rest := by
  unfold strangerTokens strangerEvents
  simp only [events_plainTokens, events_textTokens, events_close, List.cons_append,
    List.append_assoc, List.nil_append]

section

variable (documented : Documented xml)

include documented

private theorem strangerTokens_wildcard (surf : SurfaceEntry) (scope : Scope) :
    WildcardElement xml scope (strangerTokens surf) := by
  have tag : (Tag.plain (coeffName "surface".toList) (strangerAttributes surf)).WellFormed := by
    refine literalTag_wellFormed ["xmlns:".toList ++ coeffPrefix, "id".toList, "name".toList,
      "order".toList] rfl (by decide) (by decide) ?_
    unfold strangerAttributes
    rw [List.forall_mem_cons, List.forall_mem_cons, List.forall_mem_cons, List.forall_mem_singleton]
    exact ⟨⟨by decide, by decide⟩, quote_not_mem_escaped _, quote_not_mem_escaped _,
      quote_not_mem_displayU32 _⟩
  have inner : Sound (textTokens (coeffName "address".toList) surf.host.address) :=
    .enclosing (bareTag_wellFormed _ (coeffName_isName (by decide))) blank_nil
      (.text (lt_not_mem_escapeText _))
  exact .enclosing tag ⟨_, qualified_coeffName documented scope (by decide) _⟩ inner blank_nil

private theorem stranger_wildcards (surf : SurfaceEntry) (scope : Scope) :
    InSequence (List.replicate 1 (WildcardElement xml scope)) (strangerTokens surf) := by
  have one := InSequence.cons (strangerTokens_wildcard documented surf scope) .nil
  rwa [List.append_nil] at one

private theorem strangerEvents_fail (surf : SurfaceEntry) (inHost : Bool) (attrs : SessionAttrs)
    (surfaces : List SurfaceEntry) (layout : Layout F) :
    (strangerEvents surf ++ [Event.close "session".toList]).foldlM (ParseState.step xml)
        { ParseState.between attrs surfaces layout with inHost } =
      .error (.malformed [.text ("surface missing <".toList ++
        (if inHost then "os".toList else "address".toList) ++ ">".toList)]) := by
  let empty : SurfaceBuilder :=
    { id := surf.id, name := surf.name, order := surf.order, address := none, os := none
      machine := none, capture := none, codec := none, width := none, height := none }
  let inside (b : SurfaceBuilder) : ParseState F :=
    { ParseState.between attrs surfaces layout with inHost, curSurface := some b }
  have parsed : SurfaceBuilder.parse xml
      (plainStart (coeffName "surface".toList) (strangerAttributes surf)) = .ok empty := by
    have id : attrStr xml (plainStart (coeffName "surface".toList) (strangerAttributes surf))
        "id".toList = .ok (surfaceIdToStr surf.id) :=
      (attrStr_plain rfl).trans (unescape_escapeAttr documented _)
    have name : attrStr xml (plainStart (coeffName "surface".toList) (strangerAttributes surf))
        "name".toList = .ok surf.name :=
      (attrStr_plain rfl).trans (unescape_escapeAttr documented _)
    have order : attrU32 xml (plainStart (coeffName "surface".toList) (strangerAttributes surf))
        "order".toList = .ok surf.order :=
      attrU32_of_attrStr ((attrStr_plain rfl).trans (unescape_displayU32 documented _))
    unfold SurfaceBuilder.parse
    rw [id, name, order]
    simp [bind, Except.bind, pure, Except.pure, parseSurfaceId_surfaceIdToStr, empty]
  have opened : ParseState.step xml { ParseState.between attrs surfaces layout with inHost }
      (.start (plainStart (coeffName "surface".toList) (strangerAttributes surf))) =
        .ok (inside empty) := by
    have element : Element.ofName (localName
        (plainStart (coeffName "surface".toList) (strangerAttributes surf)).name) = .surface := rfl
    simp only [ParseState.step, ParseState.openElement, element, parsed, bind, Except.bind, pure,
      Except.pure]
    rfl
  have address : ∀ b, ParseState.applyText (some empty) inHost (some .address)
      (trim surf.host.address) = .ok b →
        (textElEvents (coeffName "address".toList) surf.host.address).foldlM
          (ParseState.step xml) (inside empty) = .ok (inside b) := fun b applied =>
    ParseState.run_textEl documented _ _ (fun _ => rfl) (fun _ => rfl) applied
  unfold strangerEvents
  cases inHost with
  | false =>
      have run := Run.cons opened (address empty rfl)
      rw [List.cons_append, List.append_assoc, ← List.cons_append]
      exact Run.append_error run rfl
  | true =>
      have run := Run.cons opened (address { empty with address := some (trim surf.host.address) } rfl)
      rw [List.cons_append, List.append_assoc, ← List.cons_append]
      exact Run.append_error run rfl

end

/-! ## The names to keep clear of -/

private theorem parserNames_plain : ∀ name ∈ parserNames, name.all isNameChar = true ∧ ':' ∉ name := by
  decide

def editorSurface : SurfaceEntry :=
  { id := ⟨List.replicate 32 0, rfl⟩, name := "Editor".toList, order := 0, codec := .h265
    width := 1920, height := 1080
    host :=
      { address := "100.0.0.1:7001".toList, os := .linux, machine := "workshop".toList
        capture := "window:Editor".toList } }

section

variable (documented : Documented xml) (laws : RustFloat.Documented F)

include documented laws

private theorem clash_of_not_host {name : Str} (known : name ∈ parserNames)
    (notHost : name ≠ "host".toList) :
    SessionImage.fromXml (F := F) xml (render (headTokens F editorSurface ++
        coefficientTokens name ++ ([] ++ [.close "session".toList []]))) ≠
      SessionImage.fromXml xml (render (headTokens F editorSurface ++
        ([] ++ [.close "session".toList []]))) := by
  have sound : Sound (coefficientTokens name) :=
    .enclosing (coeffTag_wellFormed (parserNames_plain name known).1) blank_nil .nil
  have noWildcards : InSequence (List.replicate 0
      (WildcardElement xml (sessionScope F xml editorSurface))) [] := .nil
  have spliced := fromXml_headTokens documented laws editorSurface noWildcards sound
  have without := fromXml_headTokens documented laws editorSurface noWildcards .nil
  obtain ⟨e, failed⟩ := coefficientTokens_fail documented laws editorSurface known notHost
  have read := ParseState.parse_document documented laws (oneSurface (F := F) editorSurface)
    (some "sha256:0".toList) [] laws.zero_isNaN fun _ _ _ => rfl
  have closing : events [] [Token.close "session".toList []] = [.close "session".toList] := by
    rw [events_close, events, textEvent_blank blank_nil]
  unfold coefficientTokens at spliced
  rw [events_plainTokens, List.nil_append, List.nil_append, events_close, closing, failed]
    at spliced
  rw [List.append_nil, List.nil_append, List.nil_append, closing] at without
  rw [documentEvents, List.append_nil] at read
  rw [List.nil_append, without, read]
  unfold coefficientTokens
  rw [spliced]
  exact fun same => by cases same

private theorem clash_of_host :
    SessionImage.fromXml (F := F) xml (render (headTokens F editorSurface ++
        [.empty (Tag.plain (coeffName "host".toList) [coeffDeclaration])] ++
          (strangerTokens editorSurface ++ [.close "session".toList []]))) ≠
      SessionImage.fromXml xml (render (headTokens F editorSurface ++
        (strangerTokens editorSurface ++ [.close "session".toList []]))) := by
  have sound : Sound [Token.empty (Tag.plain (coeffName "host".toList) [coeffDeclaration])] :=
    .single (coeffTag_wellFormed (by decide)) fun _ => rfl
  have stranger := stranger_wildcards documented editorSurface (sessionScope F xml editorSurface)
  have spliced := fromXml_headTokens documented laws editorSurface stranger sound
  have without := fromXml_headTokens documented laws editorSurface stranger .nil
  have closing : events [] [Token.close "session".toList []] = [.close "session".toList] := by
    rw [events_close, events, textEvent_blank blank_nil]
  have head := ParseState.run_head documented laws (oneSurface (F := F) editorSurface)
    (some "sha256:0".toList) laws.zero_isNaN
  have opened : ∀ (attrs : SessionAttrs) (surfaces : List SurfaceEntry) (layout : Layout F),
      ParseState.step xml (ParseState.between attrs surfaces layout)
          (.empty (plainStart (coeffName "host".toList) [coeffDeclaration])) =
        .ok { ParseState.between attrs surfaces layout with inHost := true } := fun _ _ _ => rfl
  have failed := strangerEvents_fail (F := F) documented editorSurface
  rw [List.singleton_append, events_empty, events_strangerTokens, closing] at spliced
  rw [List.append_nil, List.nil_append, events_strangerTokens, closing] at without
  rw [spliced, List.append_cons (headEvents _ _), without, parseReading_error (Run.append_error (Run.append head
    (Run.single (opened _ _ _))) (failed true _ _ _)),
    parseReading_error (Run.append_error head (failed false _ _ _))]
  intro same
  injection same with texts
  exact absurd texts (by decide)

end

/-- The parser is indifferent to what the wildcard admits exactly for the
vocabularies without the names it reacts to. -/
theorem namespace_projection_iff (documented : Documented xml) (laws : RustFloat.Documented F)
    (vocabulary : Str → Prop) :
    (∀ (scope : Scope) (head subtree tail : List Token), BaseSession xml scope head tail →
      NamespaceElement xml coefficientsNamespace vocabulary scope subtree →
        SessionImage.fromXml (F := F) xml (render (head ++ subtree ++ tail)) =
          SessionImage.fromXml xml (render (head ++ tail))) ↔
      ∀ name, vocabulary name → name ∉ parserNames := by
  constructor
  · intro indifferent name inVocabulary known
    obtain ⟨letters, noColon⟩ := parserNames_plain name known
    by_cases isHost : name = "host".toList
    · subst isHost
      have stranger := stranger_wildcards documented editorSurface
        (sessionScope F xml editorSurface)
      exact clash_of_host (F := F) documented laws (indifferent _ _ _ _
        (baseSession_headTokens (F := F) documented laws editorSurface 1 stranger)
        (emptyCoefficient_element documented inVocabulary letters noColon _))
    · exact clash_of_not_host (F := F) documented laws known isHost (indifferent _ _ _ _
        (baseSession_headTokens (F := F) documented laws editorSurface 0 .nil)
        (coefficientTokens_element documented inVocabulary letters noColon _))
  · intro clear scope head subtree tail document element
    exact fromXml_spliced documented document element clear

/-- The block that is written today keeps clear of them. -/
theorem written_block_ignored :
    (∀ (scope : Scope) (head subtree tail : List Token),
      BaseSession Scanner.quickXml scope head tail →
      NamespaceElement Scanner.quickXml coefficientsNamespace (· ∈ coeffLocalNames) scope subtree →
        SessionImage.fromXml (F := ℚ) Scanner.quickXml (render (head ++ subtree ++ tail)) =
          SessionImage.fromXml Scanner.quickXml (render (head ++ tail))) ∧
      "focus".toList ∉ coeffLocalNames :=
  ⟨(namespace_projection_iff Scanner.documented ExactFloat.documented _).mpr (by decide),
    by decide⟩

theorem foreign_focus_clashes :
    BaseSession Scanner.quickXml (sessionScope ℚ Scanner.quickXml editorSurface)
        (headTokens ℚ editorSurface) ([] ++ [.close "session".toList []]) ∧
      NamespaceElement Scanner.quickXml coefficientsNamespace (fun _ => True)
        (sessionScope ℚ Scanner.quickXml editorSurface) (coefficientTokens "focus".toList) ∧
      SessionImage.fromXml (F := ℚ) Scanner.quickXml (render (headTokens ℚ editorSurface ++
          coefficientTokens "focus".toList ++ ([] ++ [.close "session".toList []]))) ≠
        SessionImage.fromXml Scanner.quickXml (render (headTokens ℚ editorSurface ++
          ([] ++ [.close "session".toList []]))) :=
  ⟨baseSession_headTokens Scanner.documented ExactFloat.documented editorSurface 0 .nil,
    coefficientTokens_element Scanner.documented trivial (by decide) (by decide) _,
    clash_of_not_host Scanner.documented ExactFloat.documented (by decide) (by decide)⟩

end Simulboot
