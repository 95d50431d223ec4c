import Simulboot.Library.Utf8
import Simulboot.Library.UniqueReading

/-!
# XML events

The pull-parser interface of `quick-xml` with `trim_text(true)`: the events a
reader delivers, the markup they come from, and the documented behaviour a
client may rely on. The reader itself is a parameter of everything built here.
-/

set_option autoImplicit false

namespace Library.Xml

/-! ## Events -/

/-- An attribute as the iterator yields it, its value still escaped. -/
structure Attribute where
  key : Str
  value : Str
  deriving DecidableEq, Repr

/-- A start or empty tag: its qualified name, and what iterating over its
attributes yields, in order. -/
structure BytesStart where
  name : Str
  attributes : List (Except Str Attribute)

inductive Event where
  | start (e : BytesStart)
  | empty (e : BytesStart)
  | text (raw : Str)
  | close (name : Str)
  /-- A comment, CDATA section, declaration, processing instruction or DOCTYPE. -/
  | other

/-- The element an event belongs to, if any, has a name of some kind. -/
def Event.Named (kind : Str → Prop) : Event → Prop
  | .start e | .empty e => kind e.name
  | .close name => kind name
  | .text _ | .other => True

/-- All that successive `read_event` calls return: events, and then the end of
the input or an error. -/
structure Reading where
  events : List Event
  ending : Except Str Unit

/-- The two functions of the library that clients call on text. -/
structure QuickXml where
  read : Str → Reading
  unescape : Str → Except Str Str

/-! ## Escaped text -/

/-- The predefined entities. -/
inductive Entity where
  | lt | gt | amp | apos | quot
  deriving DecidableEq, Repr

def Entity.name : Entity → Str
  | .lt => "lt".toList
  | .gt => "gt".toList
  | .amp => "amp".toList
  | .apos => "apos".toList
  | .quot => "quot".toList

def Entity.value : Entity → Char
  | .lt => '<'
  | .gt => '>'
  | .amp => '&'
  | .apos => '\''
  | .quot => '"'

inductive TextUnit where
  | literal (c : Char)
  | reference (entity : Entity)

def TextUnit.written : TextUnit → Str
  | .literal c => [c]
  | .reference entity => '&' :: entity.name ++ [';']

def TextUnit.value : TextUnit → Char
  | .literal c => c
  | .reference entity => entity.value

/-- A literal ampersand would start a reference. -/
def TextUnit.WellFormed : TextUnit → Prop
  | .literal c => c ≠ '&'
  | .reference _ => True

theorem Entity.semicolon_not_mem_name (entity : Entity) : ';' ∉ entity.name := by
  cases entity <;> decide

theorem Entity.name_injective : Function.Injective Entity.name := by
  intro left right same
  cases left <;> cases right <;> first | rfl | exact absurd same (by decide)

/-- Written units can be told apart from whatever follows them. -/
theorem TextUnit.written_reads {left right : TextUnit} {afterLeft afterRight : Str}
    (wellFormedLeft : left.WellFormed) (wellFormedRight : right.WellFormed)
    (same : left.written ++ afterLeft = right.written ++ afterRight) :
    left = right ∧ afterLeft = afterRight := by
  cases left with
  | literal c =>
      cases right with
      | literal d => simpa [written] using same
      | reference entity =>
          have first : c = '&' := by simpa [written] using congrArg List.head? same
          exact absurd first wellFormedLeft
  | reference entity =>
      cases right with
      | literal d =>
          have first : '&' = d := by simpa [written] using congrArg List.head? same
          exact absurd first.symm wellFormedRight
      | reference other =>
          simp only [written, List.cons_append, List.append_assoc, List.cons.injEq, true_and,
            List.nil_append] at same
          obtain ⟨names, rests⟩ := append_cons_inj_of_absent entity.semicolon_not_mem_name
            other.semicolon_not_mem_name same
          exact ⟨by rw [Entity.name_injective names], rests⟩

/-! ## Markup -/

/-- The bytes that `trim_text` removes and that separate attributes. -/
def isSpace (c : Char) : Bool :=
  c == ' ' || c == '\t' || c == '\r' || c == '\n'

def trim (raw : Str) : Str :=
  trimMatches isSpace raw

/-- Neither end of the text is space. -/
def Unpadded (text : Str) : Prop :=
  (∀ c, text.head? = some c → isSpace c = false) ∧
    ∀ c, text.getLast? = some c → isSpace c = false

theorem trim_eq_self_iff {text : Str} : trim text = text ↔ Unpadded text :=
  trimMatches_eq_self_iff

/-- The characters that cannot stand in a name. -/
def isNameChar (c : Char) : Bool :=
  !isSpace c && !(['<', '>', '/', '=', '"', '\'', '!', '?', '&'].contains c)

inductive Quote where
  | single | double
  deriving DecidableEq, Repr

def Quote.char : Quote → Char
  | .single => '\''
  | .double => '"'

/-- An attribute with the white space and quotes of its source text. -/
structure AttributeSource where
  before : Str
  key : Str
  beforeEq : Str
  afterEq : Str
  quote : Quote
  value : Str

structure Tag where
  name : Str
  attributes : List AttributeSource
  after : Str

/-- The markup that closes with a fixed mark and carries no element. -/
inductive Misc where
  | comment | processing | cdata | doctype
  deriving DecidableEq, Repr

def Misc.openMark : Misc → Str
  | .comment => "<!--".toList
  | .processing => "<?".toList
  | .cdata => "<![CDATA[".toList
  | .doctype => "<!DOCTYPE".toList

def Misc.closeMark : Misc → Str
  | .comment => "-->".toList
  | .processing => "?>".toList
  | .cdata => "]]>".toList
  | .doctype => ">".toList

/-- One piece of a document's source text. -/
inductive Token where
  | text (raw : Str)
  | start (tag : Tag)
  | empty (tag : Tag)
  | close (name after : Str)
  | misc (kind : Misc) (body : Str)

def AttributeSource.plain (key value : Str) : AttributeSource :=
  { before := [' '], key, beforeEq := [], afterEq := [], quote := .double, value }

def Tag.plain (name : Str) (attributes : List (Str × Str)) : Tag :=
  { name, attributes := attributes.map fun pair => .plain pair.1 pair.2, after := [] }

def AttributeSource.render (source : AttributeSource) : Str :=
  source.before ++ source.key ++ source.beforeEq ++ ['='] ++ source.afterEq ++
    [source.quote.char] ++ source.value ++ [source.quote.char]

def Tag.render (tag : Tag) : Str :=
  tag.name ++ tag.attributes.flatMap AttributeSource.render ++ tag.after

def Token.render : Token → Str
  | .text raw => raw
  | .start tag => '<' :: tag.render ++ ['>']
  | .empty tag => '<' :: tag.render ++ ['/', '>']
  | .close name after => '<' :: '/' :: name ++ after ++ ['>']
  | .misc kind body => kind.openMark ++ body ++ kind.closeMark

def render (tokens : List Token) : Str :=
  tokens.flatMap Token.render

/-! ## Well-formed markup -/

def IsName (name : Str) : Prop :=
  name ≠ [] ∧ ∀ c ∈ name, isNameChar c = true

def Blank (text : Str) : Prop :=
  ∀ c ∈ text, isSpace c = true

structure AttributeSource.WellFormed (source : AttributeSource) : Prop where
  separated : source.before ≠ [] ∧ Blank source.before
  key : IsName source.key
  spacing : Blank source.beforeEq ∧ Blank source.afterEq
  value : source.quote.char ∉ source.value ∧ '<' ∉ source.value

structure Tag.WellFormed (tag : Tag) : Prop where
  name : IsName tag.name
  attributes : ∀ source ∈ tag.attributes, source.WellFormed
  distinct : (tag.attributes.map AttributeSource.key).Nodup
  after : Blank tag.after

/-- What may stand between the marks. A reader ends a processing instruction at its
first `>` and refuses one that holds nothing, as it refuses a blank DOCTYPE. -/
def Misc.Admits : Misc → Str → Prop
  | .comment, _ | .cdata, _ => True
  | .processing, body => body ≠ [] ∧ '>' ∉ body
  | .doctype, body => ¬ Blank body ∧ '<' ∉ body

def Token.WellFormed : Token → Prop
  | .text raw => '<' ∉ raw
  | .start tag | .empty tag => tag.WellFormed
  | .close name after => IsName name ∧ Blank after
  | .misc kind body =>
      findWindow kind.closeMark (body ++ kind.closeMark) = some body.length ∧ kind.Admits body

/-- The elements left open after some tokens, innermost first, or nothing when
an end tag does not match. -/
def openAfter : List Str → List Token → Option (List Str)
  | opened, [] => some opened
  | opened, .start tag :: rest => openAfter (tag.name :: opened) rest
  | opened, .close name _ :: rest =>
      match opened with
      | innermost :: outer => if innermost = name then openAfter outer rest else none
      | [] => none
  | opened, _ :: rest => openAfter opened rest

/-! ## What is read from it -/

def Tag.event (tag : Tag) : BytesStart :=
  { name := tag.name
    attributes := tag.attributes.map fun source => .ok ⟨source.key, source.value⟩ }

/-- A text node is delivered trimmed, or not at all when nothing is left. -/
def textEvent (raw : Str) : List Event :=
  if trim raw = [] then [] else [.text (trim raw)]

/-- The events of some tokens, where `pending` is the character data not yet
delivered. -/
def events : Str → List Token → List Event
  | pending, [] => textEvent pending
  | pending, .text raw :: rest => events (pending ++ raw) rest
  | pending, .start tag :: rest => textEvent pending ++ .start tag.event :: events [] rest
  | pending, .empty tag :: rest => textEvent pending ++ .empty tag.event :: events [] rest
  | pending, .close name _ :: rest => textEvent pending ++ .close name :: events [] rest
  | pending, .misc _ _ :: rest => textEvent pending ++ .other :: events [] rest

/-- The documented behaviour of the reader and of `unescape`. A leading byte
order mark is not part of a document, and an end tag that matches nothing is an
error, so neither is promised anything here. -/
structure Documented (xml : QuickXml) : Prop where
  read_render : ∀ tokens, (∀ token ∈ tokens, token.WellFormed) →
    (openAfter [] tokens).isSome = true → (render tokens).head? ≠ some '\uFEFF' →
    xml.read (render tokens) = ⟨events [] tokens, .ok ()⟩
  unescape_written : ∀ units : List TextUnit, (∀ unit ∈ units, unit.WellFormed) →
    xml.unescape (units.flatMap TextUnit.written) = .ok (units.map TextUnit.value)

/-! ## Lemmas -/

@[simp] theorem render_nil : render [] = [] := rfl

@[simp] theorem render_cons (token : Token) (rest : List Token) :
    render (token :: rest) = token.render ++ render rest := rfl

@[simp] theorem render_append (left right : List Token) :
    render (left ++ right) = render left ++ render right := by
  simp [render]

theorem openAfter_append (opened : List Str) (left right : List Token) :
    openAfter opened (left ++ right) =
      (openAfter opened left).bind fun between => openAfter between right := by
  induction left generalizing opened with
  | nil => rfl
  | cons token rest ih =>
      cases token with
      | text raw => exact ih opened
      | start tag => exact ih (tag.name :: opened)
      | empty tag => exact ih opened
      | misc kind body => exact ih opened
      | close name after =>
          cases opened with
          | nil => rfl
          | cons innermost outer =>
              by_cases same : innermost = name
              · simpa [openAfter, same] using ih outer
              · simp [openAfter, same]

theorem openAfter_front {opened : List Str} {front back : List Token}
    (opens : (openAfter opened (front ++ back)).isSome = true) :
    ∃ inner, openAfter opened front = some inner := by
  rw [openAfter_append] at opens
  obtain ⟨_, opens⟩ := Option.isSome_iff_exists.mp opens
  obtain ⟨inner, opened, _⟩ := Option.bind_eq_some_iff.mp opens
  exact ⟨inner, opened⟩

theorem Blank.append {left right : Str} (blankLeft : Blank left) (blankRight : Blank right) :
    Blank (left ++ right) := by
  intro c member
  rcases List.mem_append.mp member with before | after
  · exact blankLeft c before
  · exact blankRight c after

theorem blank_nil : Blank [] := by
  intro c member
  simp at member

theorem trim_eq_nil_iff {raw : Str} : trim raw = [] ↔ Blank raw :=
  trimMatches_eq_nil_iff

theorem textEvent_blank {raw : Str} (blank : Blank raw) : textEvent raw = [] := by
  simp [textEvent, trim_eq_nil_iff.mpr blank]

end Library.Xml
