import Simulboot.Library.XmlDelivery

/-!
# Markup under a schema

Namespaces and the content models of schema languages, over the tokens of a
document: what an element of a given name and content looks like in its source.
-/

set_option autoImplicit false

namespace Library.Xml

/-! ## Namespaces -/

/-- The namespace bound to each name part before a colon; the empty part stands
for the default namespace. -/
abbrev Scope := Str → Option Str

/-- The part that an attribute binds, if it declares a namespace. -/
def declaredPart (key : Str) : Option Str :=
  if key = "xmlns".toList then some [] else stripPrefix "xmlns:".toList key

def Scope.declare (xml : QuickXml) (scope : Scope) (tag : Tag) : Scope := fun part =>
  match tag.attributes.find? fun source => declaredPart source.key = some part with
  | some source => (xml.unescape source.value).toOption
  | none => scope part

/-- A name in its source form stands for a local name in a namespace. -/
inductive Qualified (scope : Scope) : Str → Str → Str → Prop where
  | unqualified {uri name : Str} :
      ':' ∉ name → scope [] = some uri → Qualified scope name uri name
  | qualified {part uri name : Str} :
      ':' ∉ part → ':' ∉ name → scope part = some uri →
      Qualified scope (part ++ ':' :: name) uri name

def instanceNamespace : Str :=
  "http://www.w3.org/2001/XMLSchema-instance".toList

/-- The attributes that a schema requires, and no others but namespace
declarations and those of schema instances. -/
structure HasAttributes (required : List Str) (scope : Scope) (tag : Tag) : Prop where
  present : ∀ key ∈ required, key ∈ tag.attributes.map AttributeSource.key
  allowed : ∀ key ∈ tag.attributes.map AttributeSource.key, key ∈ required ∨
    (declaredPart key).isSome = true ∨ ∃ name, Qualified scope key instanceNamespace name

/-- A tag of a given name and attributes. -/
def NamedTag (uri name : Str) (required : List Str) (scope : Scope) (tag : Tag) : Prop :=
  Qualified scope tag.name uri name ∧ HasAttributes required scope tag

/-! ## Content -/

/-- An element with its tag and content as required, in either of its forms. -/
inductive ElementOf (xml : QuickXml) (scope : Scope) (tagged : Scope → Tag → Prop)
    (content : Scope → List Token → Prop) : List Token → Prop where
  | empty {tag : Tag} :
      tag.WellFormed → tagged (scope.declare xml tag) tag →
      content (scope.declare xml tag) [] → ElementOf xml scope tagged content [.empty tag]
  | enclosing {tag : Tag} {inner : List Token} {after : Str} :
      tag.WellFormed → tagged (scope.declare xml tag) tag →
      content (scope.declare xml tag) inner → Blank after →
      ElementOf xml scope tagged content (.start tag :: inner ++ [.close tag.name after])

/-- What may stand between elements: blank text, comments and instructions. -/
inductive IsPadding : Token → Prop where
  | blank {raw : Str} : Blank raw → IsPadding (.text raw)
  | comment {body : Str} : (Token.misc .comment body).WellFormed → IsPadding (.misc .comment body)
  | processing {body : Str} :
      (Token.misc .processing body).WellFormed → IsPadding (.misc .processing body)

def Padding (tokens : List Token) : Prop :=
  ∀ token ∈ tokens, IsPadding token

/-- Parts one after another, with padding around them. -/
def InSequence : List (List Token → Prop) → List Token → Prop
  | [], tokens => Padding tokens
  | part :: parts, tokens => ∃ pad first rest, tokens = pad ++ (first ++ rest) ∧ Padding pad ∧
      part first ∧ InSequence parts rest

/-- Comments and instructions alone. -/
def EmptyContent (_ : Scope) (tokens : List Token) : Prop :=
  Padding tokens ∧ ∀ raw, Token.text raw ∉ tokens

def charData (xml : QuickXml) : List Token → Option Str
  | [] => some []
  | .text raw :: rest => do
      let value ← (xml.unescape raw).toOption
      let more ← charData xml rest
      return value ++ more
  | .misc .cdata body :: rest => do
      let more ← charData xml rest
      return body ++ more
  | .misc .comment _ :: rest | .misc .processing _ :: rest => charData xml rest
  | _ => none

/-- Character data of an allowed value. -/
def TextContent (xml : QuickXml) (allowed : Str → Prop) (_ : Scope) (tokens : List Token) : Prop :=
  (∀ token ∈ tokens, token.WellFormed) ∧ ∃ value, charData xml tokens = some value ∧ allowed value

/-- Content whose elements all lie in one namespace and bear allowed names. -/
inductive NamespaceContent (xml : QuickXml) (uri : Str) (allowed : Str → Prop) :
    Scope → List Token → Prop where
  | nil {scope : Scope} : NamespaceContent xml uri allowed scope []
  | text {scope : Scope} {raw : Str} {rest : List Token} :
      '<' ∉ raw → NamespaceContent xml uri allowed scope rest →
      NamespaceContent xml uri allowed scope (.text raw :: rest)
  | misc {scope : Scope} {kind : Misc} {body : Str} {rest : List Token} :
      kind ≠ .doctype → (Token.misc kind body).WellFormed →
      NamespaceContent xml uri allowed scope rest →
      NamespaceContent xml uri allowed scope (.misc kind body :: rest)
  | empty {scope : Scope} {tag : Tag} {name : Str} {rest : List Token} :
      tag.WellFormed → Qualified (scope.declare xml tag) tag.name uri name → allowed name →
      NamespaceContent xml uri allowed scope rest →
      NamespaceContent xml uri allowed scope (.empty tag :: rest)
  | enclosing {scope : Scope} {tag : Tag} {name after : Str} {inner rest : List Token} :
      tag.WellFormed → Qualified (scope.declare xml tag) tag.name uri name → allowed name →
      NamespaceContent xml uri allowed (scope.declare xml tag) inner → Blank after →
      NamespaceContent xml uri allowed scope rest →
      NamespaceContent xml uri allowed scope
        (.start tag :: inner ++ .close tag.name after :: rest)

/-- One element of a namespace, and every element inside it. -/
def NamespaceElement (xml : QuickXml) (uri : Str) (allowed : Str → Prop) (scope : Scope)
    (tokens : List Token) : Prop :=
  ElementOf xml scope (fun scope tag => ∃ name, Qualified scope tag.name uri name ∧ allowed name)
    (NamespaceContent xml uri allowed) tokens

/-! ## Sound markup -/

/-- Well-formed tokens that close what they open. -/
structure Sound (tokens : List Token) : Prop where
  wellFormed : ∀ token ∈ tokens, token.WellFormed
  balanced : Balanced tokens

namespace Sound

theorem nil : Sound [] :=
  ⟨by simp, fun _ => rfl⟩

theorem append {left right : List Token} (soundLeft : Sound left) (soundRight : Sound right) :
    Sound (left ++ right) :=
  ⟨List.forall_mem_append.mpr ⟨soundLeft.wellFormed, soundRight.wellFormed⟩,
    soundLeft.balanced.append soundRight.balanced⟩

theorem single {token : Token} (wellFormed : token.WellFormed) (balanced : Balanced [token]) :
    Sound [token] :=
  ⟨List.forall_mem_singleton.mpr wellFormed, balanced⟩

theorem enclosing {tag : Tag} {inner : List Token} {after : Str} (wellFormed : tag.WellFormed)
    (blank : Blank after) (sound : Sound inner) :
    Sound (.start tag :: inner ++ [.close tag.name after]) := by
  refine ⟨?_, fun opened => ?_⟩
  · rw [List.forall_mem_append, List.forall_mem_cons, List.forall_mem_singleton]
    exact ⟨⟨wellFormed, sound.wellFormed⟩, wellFormed.name, blank⟩
  · rw [List.cons_append, openAfter, openAfter_append, sound.balanced]
    simp [openAfter]

theorem elementOf {xml : QuickXml} {scope : Scope} {tagged : Scope → Tag → Prop}
    {content : Scope → List Token → Prop} {tokens : List Token}
    (element : ElementOf xml scope tagged content tokens)
    (inside : ∀ scope inner, content scope inner → Sound inner) : Sound tokens := by
  cases element with
  | empty wellFormed _ _ => exact single wellFormed fun _ => rfl
  | enclosing wellFormed _ inner blank => exact enclosing wellFormed blank (inside _ _ inner)

theorem misc {kind : Misc} {body : Str} (wellFormed : (Token.misc kind body).WellFormed) :
    Sound [.misc kind body] :=
  single wellFormed fun _ => rfl

theorem text {raw : Str} (plain : '<' ∉ raw) : Sound [.text raw] :=
  single plain fun _ => rfl

theorem padding {tokens : List Token} (pads : Padding tokens) : Sound tokens := by
  induction tokens with
  | nil => exact nil
  | cons token rest ih =>
      obtain ⟨first, others⟩ := List.forall_mem_cons.mp pads
      have head : Sound [token] := by
        cases first with
        | blank isBlank => exact text fun lt => absurd (isBlank _ lt) (by decide)
        | comment wellFormed => exact misc wellFormed
        | processing wellFormed => exact misc wellFormed
      exact head.append (ih others)

theorem emptyContent {scope : Scope} {tokens : List Token} (content : EmptyContent scope tokens) :
    Sound tokens :=
  padding content.1

theorem inSequence {parts : List (List Token → Prop)} {tokens : List Token}
    (sequence : InSequence parts tokens)
    (each : ∀ part ∈ parts, ∀ tokens, part tokens → Sound tokens) : Sound tokens := by
  induction parts generalizing tokens with
  | nil => exact padding sequence
  | cons part parts ih =>
      obtain ⟨pad, first, rest, rfl, pads, isPart, later⟩ := sequence
      obtain ⟨head, others⟩ := List.forall_mem_cons.mp each
      exact (padding pads).append ((head first isPart).append (ih later others))

theorem textContent {xml : QuickXml} {allowed : Str → Prop} {scope : Scope} {tokens : List Token}
    (content : TextContent xml allowed scope tokens) : Sound tokens := by
  obtain ⟨wellFormed, value, data, -⟩ := content
  refine ⟨wellFormed, ?_⟩
  clear wellFormed
  induction tokens generalizing value with
  | nil => exact fun _ => rfl
  | cons token rest ih =>
      have step : ∀ value, charData xml rest = some value → Balanced [token] → Balanced (token :: rest) :=
        fun value later head => head.append (ih value later)
      cases token with
      | start tag | empty tag | close name after => simp [charData] at data
      | text raw =>
          obtain ⟨_, _, more, later, _⟩ := by simpa [charData, Option.bind_eq_some_iff] using data
          exact step more later fun _ => rfl
      | misc kind body =>
          cases kind with
          | doctype => simp [charData] at data
          | cdata =>
              obtain ⟨more, later, _⟩ := by simpa [charData, Option.bind_eq_some_iff] using data
              exact step more later fun _ => rfl
          | comment | processing => exact step value (by simpa [charData] using data) fun _ => rfl

theorem namespaceContent {xml : QuickXml} {uri : Str} {allowed : Str → Prop} {scope : Scope}
    {tokens : List Token} (content : NamespaceContent xml uri allowed scope tokens) :
    Sound tokens := by
  induction content with
  | nil => exact nil
  | text plain _ ih => exact (text plain).append ih
  | misc _ wellFormed _ ih => exact (misc wellFormed).append ih
  | @empty _ tag _ _ wellFormed _ _ _ ih =>
      have one : Sound [Token.empty tag] := single wellFormed fun _ => rfl
      exact one.append ih
  | enclosing wellFormed _ _ _ blank _ innerIH restIH =>
      simpa using (enclosing wellFormed blank innerIH).append restIH

end Sound

/-! ## Events of stretches of markup -/

/-- Behind these tokens no character data is pending. -/
def Sealed (tokens : List Token) : Prop :=
  ∀ pending rest, events pending (tokens ++ rest) = events pending tokens ++ events [] rest

theorem Sealed.append (left : List Token) {right : List Token} (closed : Sealed right) :
    Sealed (left ++ right) := by
  intro pending rest
  rw [List.append_assoc, events_append pending left, closed, events_append pending left,
    List.append_assoc]

theorem Sealed.closing (name after : Str) : Sealed [.close name after] := by
  intro pending rest
  simp [events, textEvent_blank blank_nil]

theorem Sealed.elementOf {xml : QuickXml} {scope : Scope} {tagged : Scope → Tag → Prop}
    {content : Scope → List Token → Prop} {tokens : List Token}
    (element : ElementOf xml scope tagged content tokens) : Sealed tokens := by
  cases element with
  | empty _ _ _ =>
      intro pending rest
      simp [events, textEvent_blank blank_nil]
  | enclosing _ _ _ _ => exact append _ (closing _ _)

def Token.Named (kind : Str → Prop) : Token → Prop
  | .start tag | .empty tag => kind tag.name
  | .close name _ => kind name
  | .text _ | .misc _ _ => True

theorem AllNamed.events {kind : Str → Prop} {tokens : List Token}
    (named : ∀ token ∈ tokens, token.Named kind) (pending : Str) :
    AllNamed kind (events pending tokens) := by
  induction tokens generalizing pending with
  | nil => exact .text pending
  | cons token rest ih =>
      obtain ⟨first, others⟩ := List.forall_mem_cons.mp named
      cases token with
      | text raw => exact ih others _
      | start tag | empty tag | close name after | misc kind body =>
          exact .append (.text pending) (List.forall_mem_cons.mpr ⟨first, ih others []⟩)

theorem NamespaceContent.named {xml : QuickXml} {uri : Str} {allowed : Str → Prop} {scope : Scope}
    {kind : Str → Prop} (known : ∀ scope name part, Qualified scope name uri part → allowed part →
      kind name) {tokens : List Token} (content : NamespaceContent xml uri allowed scope tokens) :
    ∀ token ∈ tokens, token.Named kind := by
  induction content with
  | nil => simp
  | text _ _ ih => exact List.forall_mem_cons.mpr ⟨trivial, ih⟩
  | misc _ _ _ ih => exact List.forall_mem_cons.mpr ⟨trivial, ih⟩
  | empty _ name isAllowed _ ih =>
      exact List.forall_mem_cons.mpr ⟨known _ _ _ name isAllowed, ih⟩
  | enclosing _ name isAllowed _ _ _ innerIH restIH =>
      have kindName := known _ _ _ name isAllowed
      rw [List.forall_mem_append, List.forall_mem_cons, List.forall_mem_cons]
      exact ⟨⟨kindName, innerIH⟩, kindName, restIH⟩

theorem NamespaceElement.named {xml : QuickXml} {uri : Str} {allowed : Str → Prop} {scope : Scope}
    {kind : Str → Prop} (known : ∀ scope name part, Qualified scope name uri part → allowed part →
      kind name) {tokens : List Token} (element : NamespaceElement xml uri allowed scope tokens) :
    ∀ token ∈ tokens, token.Named kind := by
  cases element with
  | empty _ named _ =>
      obtain ⟨part, name, isAllowed⟩ := named
      exact List.forall_mem_singleton.mpr (known _ _ _ name isAllowed)
  | enclosing _ named content _ =>
      obtain ⟨part, name, isAllowed⟩ := named
      have kindName := known _ _ _ name isAllowed
      rw [List.forall_mem_append, List.forall_mem_cons, List.forall_mem_singleton]
      exact ⟨⟨kindName, content.named known⟩, kindName⟩

/-! ## Plain markup -/

def plainTokens (name : Str) (attributes : List (Str × Str)) (inner : List Token) : List Token :=
  .start (Tag.plain name attributes) :: inner ++ [.close name []]

theorem events_plainTokens (name : Str) (attributes : List (Str × Str)) (inner rest : List Token) :
    events [] (plainTokens name attributes inner ++ rest) =
      .start (plainStart name attributes) :: events [] (inner ++ .close name [] :: rest) := by
  simp [plainTokens, events, textEvent_blank blank_nil, Tag.plain_event]

theorem events_empty (name : Str) (attributes : List (Str × Str)) (rest : List Token) :
    events [] (.empty (Tag.plain name attributes) :: rest) =
      .empty (plainStart name attributes) :: events [] rest := by
  simp [events, textEvent_blank blank_nil, Tag.plain_event]

theorem events_close (name : Str) (rest : List Token) :
    events [] (.close name [] :: rest) = .close name :: events [] rest := by
  simp [events, textEvent_blank blank_nil]

theorem events_start (name : Str) (attributes : List (Str × Str)) (rest : List Token) :
    events [] (.start (Tag.plain name attributes) :: rest) =
      .start (plainStart name attributes) :: events [] rest := by
  simp [events, textEvent_blank blank_nil, Tag.plain_event]

/-- A tag without namespace declarations leaves the scope as it is. -/
theorem declare_plain {xml : QuickXml} {name : Str} {attributes : List (Str × Str)} {scope : Scope}
    (none_declared : ∀ pair ∈ attributes, declaredPart pair.1 = none) :
    scope.declare xml (Tag.plain name attributes) = scope := by
  funext part
  have absent : (Tag.plain name attributes).attributes.find?
      (fun source => declaredPart source.key = some part) = none := by
    rw [List.find?_eq_none]
    intro source member
    obtain ⟨pair, inside, rfl⟩ := List.mem_map.mp member
    simp [AttributeSource.plain, none_declared pair inside]
  unfold Scope.declare
  rw [absent]

theorem InSequence.cons {part : List Token → Prop} {parts : List (List Token → Prop)}
    {first rest : List Token} (isPart : part first) (later : InSequence parts rest) :
    InSequence (part :: parts) (first ++ rest) :=
  ⟨[], first, rest, rfl, by simp [Padding], isPart, later⟩

theorem InSequence.nil : InSequence [] [] := by
  simp [InSequence, Padding]

end Library.Xml
