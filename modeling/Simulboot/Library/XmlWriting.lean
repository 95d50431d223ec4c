import Simulboot.Library.XmlSchema

/-!
# Writing under a schema

A writer that puts out the elements of a content model one after another, with
blank text between them, spells what the schema asks for. The relation below
joins a written text to the content it spells and composes the way the writer
does.
-/

set_option autoImplicit false

namespace Library.Xml

/-! ## Padding -/

theorem Padding.nil : Padding [] :=
  List.forall_mem_nil _

theorem Padding.append {left right : List Token} (padsLeft : Padding left)
    (padsRight : Padding right) : Padding (left ++ right) :=
  List.forall_mem_append.mpr ⟨padsLeft, padsRight⟩

theorem Padding.blank {text : Str} (isBlank : Blank text) : Padding [.text text] :=
  List.forall_mem_singleton.mpr (.blank isBlank)

theorem InSequence.padded {parts : List (List Token → Prop)} {before tokens after : List Token}
    (front : Padding before) (sequence : InSequence parts tokens) (back : Padding after) :
    InSequence parts (before ++ tokens ++ after) := by
  induction parts generalizing before tokens with
  | nil => exact (front.append sequence).append back
  | cons part parts ih =>
      obtain ⟨pad, first, rest, rfl, pads, isPart, later⟩ := sequence
      refine ⟨before ++ pad, first, [] ++ rest ++ after, ?_, front.append pads, isPart,
        ih .nil later⟩
      simp only [List.append_assoc, List.nil_append]

/-- One part of a content model, with padding around it. -/
def Padded (part : List Token → Prop) (tokens : List Token) : Prop :=
  ∃ before inner after, tokens = before ++ inner ++ after ∧ Padding before ∧ part inner ∧
    Padding after

/-! ## Texts of content -/

/-- A text of some content. -/
def Spells (content : List Token → Prop) (text : Str) : Prop :=
  ∃ tokens, render tokens = text ∧ content tokens

namespace Spells

variable {part : List Token → Prop} {parts : List (List Token → Prop)}

theorem padded {before text after : Str} (front : Blank before) (spells : Spells part text)
    (back : Blank after) : Spells (Padded part) (before ++ text ++ after) := by
  obtain ⟨inner, rfl, isPart⟩ := spells
  exact ⟨[.text before] ++ inner ++ [.text after], by simp [Token.render], _, inner, _, rfl,
    .blank front, isPart, .blank back⟩

theorem inSequence {before text after : Str} (front : Blank before)
    (spells : Spells (InSequence parts) text) (back : Blank after) :
    Spells (InSequence parts) (before ++ text ++ after) := by
  obtain ⟨tokens, rfl, sequence⟩ := spells
  exact ⟨[.text before] ++ tokens ++ [.text after], by simp [Token.render],
    sequence.padded (.blank front) (.blank back)⟩

theorem blank {text : Str} (isBlank : Blank text) : Spells (InSequence []) text :=
  ⟨[.text text], by simp [Token.render], .blank isBlank⟩

theorem cons {first rest : Str} (spells : Spells (Padded part) first)
    (later : Spells (InSequence parts) rest) :
    Spells (InSequence (part :: parts)) (first ++ rest) := by
  obtain ⟨_, rfl, before, inner, after, rfl, padsBefore, isPart, padsAfter⟩ := spells
  obtain ⟨tokens, rfl, sequence⟩ := later
  refine ⟨before ++ inner ++ after ++ tokens, by rw [render_append], before, inner,
    after ++ tokens ++ [], ?_, padsBefore, isPart, sequence.padded padsAfter .nil⟩
  simp only [List.append_assoc, List.append_nil]

theorem single {text : Str} (spells : Spells (Padded part) text) :
    Spells (InSequence [part]) text := by
  simpa using cons spells (blank blank_nil)

/-- As many parts of one kind as there are items. -/
theorem flatMap {α : Type} {print : α → Str} (items : List α)
    (each : ∀ item ∈ items, Spells (Padded part) (print item)) :
    Spells (InSequence (List.replicate items.length part)) (items.flatMap print) := by
  induction items with
  | nil => exact blank blank_nil
  | cons item items ih =>
      obtain ⟨first, others⟩ := List.forall_mem_cons.mp each
      exact cons first (ih others)

/-! ## Elements -/

variable {xml : QuickXml} {scope : Scope} {tagged : Scope → Tag → Prop}
  {content : Scope → List Token → Prop} {name : Str} {attributes : List (Str × Str)}

theorem enclosed {inner : Str} (opening closing : Str)
    (wellFormed : (Tag.plain name attributes).WellFormed)
    (opens : opening = '<' :: (Tag.plain name attributes).render ++ ">".toList)
    (closes : closing = "</".toList ++ name ++ ">".toList)
    (isTagged : tagged (scope.declare xml (Tag.plain name attributes)) (Tag.plain name attributes))
    (inside : Spells (content (scope.declare xml (Tag.plain name attributes))) inner) :
    Spells (ElementOf xml scope tagged content) (opening ++ inner ++ closing) := by
  obtain ⟨tokens, rfl, holds⟩ := inside
  refine ⟨plainTokens name attributes tokens, ?_, .enclosing wellFormed isTagged holds blank_nil⟩
  rw [opens, closes]
  simp [plainTokens, Token.render]

theorem plainEmpty {text : Str} (wellFormed : (Tag.plain name attributes).WellFormed)
    (written : text = '<' :: (Tag.plain name attributes).render ++ "/>".toList)
    (isTagged : tagged (scope.declare xml (Tag.plain name attributes)) (Tag.plain name attributes))
    (inside : content (scope.declare xml (Tag.plain name attributes)) []) :
    Spells (ElementOf xml scope tagged content) text :=
  ⟨[.empty (Tag.plain name attributes)], by rw [written]; simp [Token.render],
    .empty wellFormed isTagged inside⟩

end Spells

theorem EmptyContent.nil {scope : Scope} : EmptyContent scope [] :=
  ⟨.nil, fun _ => List.not_mem_nil⟩

/-! ## Elements of a given name -/

/-- The attributes are those that are required. -/
structure Exactly (attributes : List (Str × Str)) (required : List Str) : Prop where
  present : ∀ key ∈ required, key ∈ attributes.map Prod.fst
  allowed : ∀ key ∈ attributes.map Prod.fst, key ∈ required ∧ declaredPart key = none

namespace Exactly

theorem none : Exactly [] [] :=
  ⟨List.forall_mem_nil _, List.forall_mem_nil _⟩

theorem of_keys {attributes : List (Str × Str)} {required : List Str} (keys : List Str)
    (sameKeys : attributes.map Prod.fst = keys)
    (same : (∀ key ∈ required, key ∈ keys) ∧ ∀ key ∈ keys, key ∈ required ∧ declaredPart key = .none) :
    Exactly attributes required :=
  ⟨sameKeys ▸ same.1, sameKeys ▸ same.2⟩

theorem declare {xml : QuickXml} {scope : Scope} {name : Str} {attributes : List (Str × Str)}
    {required : List Str} (exactly : Exactly attributes required) :
    scope.declare xml (Tag.plain name attributes) = scope :=
  declare_plain fun _ member => (exactly.allowed _ (List.mem_map_of_mem member)).2

end Exactly

section

variable {scope : Scope} {name uri part : Str} (qualified : Qualified scope name uri part)
  {attributes : List (Str × Str)} {required : List Str}

include qualified

theorem NamedTag.plain (present : ∀ key ∈ required, key ∈ attributes.map Prod.fst)
    (allowed : ∀ key ∈ attributes.map Prod.fst, key ∈ required ∨ (declaredPart key).isSome = true) :
    NamedTag uri part required scope (Tag.plain name attributes) := by
  have keys : (Tag.plain name attributes).attributes.map AttributeSource.key =
      attributes.map Prod.fst := by
    simp [Tag.plain, AttributeSource.plain, Function.comp_def]
  refine ⟨qualified, ?_, ?_⟩
  · rw [keys]
    exact present
  · rw [keys]
    intro key member
    exact (allowed key member).imp_right .inl

variable (xml : QuickXml) (exactly : Exactly attributes required)

include exactly

theorem NamedTag.declare : NamedTag uri part required
    (scope.declare xml (Tag.plain name attributes)) (Tag.plain name attributes) := by
  rw [exactly.declare]
  exact plain qualified exactly.present fun key member => .inl (exactly.allowed key member).1

theorem Spells.named (content : Scope → List Token → Prop) {inner : Str} (opening closing : Str)
    (wellFormed : (Tag.plain name attributes).WellFormed)
    (opens : opening = '<' :: (Tag.plain name attributes).render ++ ">".toList)
    (closes : closing = "</".toList ++ name ++ ">".toList) (inside : Spells (content scope) inner) :
    Spells (ElementOf xml scope (NamedTag uri part required) content)
      (opening ++ inner ++ closing) := by
  refine enclosed opening closing wellFormed opens closes (.declare qualified xml exactly) ?_
  rw [exactly.declare]
  exact inside

theorem Spells.namedEmpty {text : Str} (wellFormed : (Tag.plain name attributes).WellFormed)
    (written : text = '<' :: (Tag.plain name attributes).render ++ "/>".toList) :
    Spells (ElementOf xml scope (NamedTag uri part required) EmptyContent) text :=
  plainEmpty wellFormed written (.declare qualified xml exactly) .nil

end

/-! ## What stands in some content -/

theorem ElementOf.exists_inside {xml : QuickXml} {scope : Scope} {tagged : Scope → Tag → Prop}
    {content : Scope → List Token → Prop} {kind : Token → Prop} {tokens : List Token}
    (element : ElementOf xml scope tagged content tokens)
    (inside : ∀ scope inner, content scope inner → ∃ token ∈ inner, kind token) :
    ∃ token ∈ tokens, kind token := by
  cases element with
  | empty _ _ isContent =>
      obtain ⟨_, nowhere, _⟩ := inside _ _ isContent
      exact absurd nowhere List.not_mem_nil
  | enclosing _ _ isContent _ =>
      obtain ⟨token, member, isKind⟩ := inside _ _ isContent
      exact ⟨token, by simp [member], isKind⟩

theorem InSequence.exists_inside {parts : List (List Token → Prop)} {part : List Token → Prop}
    {kind : Token → Prop} {tokens : List Token} (sequence : InSequence parts tokens)
    (member : part ∈ parts) (inside : ∀ tokens, part tokens → ∃ token ∈ tokens, kind token) :
    ∃ token ∈ tokens, kind token := by
  induction parts generalizing tokens with
  | nil => exact absurd member List.not_mem_nil
  | cons other parts ih =>
      obtain ⟨pad, first, rest, rfl, _, isPart, later⟩ := sequence
      rcases List.mem_cons.mp member with rfl | behind
      · obtain ⟨token, within, isKind⟩ := inside _ isPart
        exact ⟨token, by simp [within], isKind⟩
      · obtain ⟨token, within, isKind⟩ := ih later behind
        exact ⟨token, by simp [within], isKind⟩

def Event.Opens (kind : Str → Prop) : Event → Prop
  | .start e | .empty e => kind e.name
  | _ => False

def Token.Opens (kind : Str → Prop) : Token → Prop
  | .start tag | .empty tag => kind tag.name
  | _ => False

theorem ElementOf.exists_opens {xml : QuickXml} {scope : Scope} {tagged : Scope → Tag → Prop}
    {content : Scope → List Token → Prop} {kind : Str → Prop} {tokens : List Token}
    (element : ElementOf xml scope tagged content tokens)
    (named : ∀ scope tag, tagged scope tag → kind tag.name) : ∃ token ∈ tokens, token.Opens kind := by
  cases element with
  | empty _ isTagged _ => exact ⟨_, List.mem_singleton_self _, named _ _ isTagged⟩
  | enclosing _ isTagged _ _ => exact ⟨_, List.mem_cons_self, named _ _ isTagged⟩

/-- Whatever opens among some tokens is delivered. -/
theorem exists_opens_events {kind : Str → Prop} {tokens : List Token}
    (opened : ∃ token ∈ tokens, token.Opens kind) (pending : Str) :
    ∃ event ∈ events pending tokens, event.Opens kind := by
  obtain ⟨token, member, opens⟩ := opened
  obtain ⟨front, back, rfl⟩ := List.append_of_mem member
  rw [events_append]
  cases token with
  | start tag => exact ⟨.start tag.event, by simp [events], opens⟩
  | empty tag => exact ⟨.empty tag.event, by simp [events], opens⟩
  | text raw | close name after | misc kind body => exact opens.elim

end Library.Xml
