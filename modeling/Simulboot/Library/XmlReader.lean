import Mathlib.Data.List.Infix
import Simulboot.Library.XmlCut
import Simulboot.Library.XmlNesting

/-!
# A scanning reader

A pull parser that keeps the documented behaviour: it cuts a text at its angle
brackets, finds the end of each piece of markup, and delivers trimmed text
between them.
-/

set_option autoImplicit false

namespace Library.Xml.Scanner

/-! ## Tags -/

def isQuote (c : Char) : Bool :=
  c == '"' || c == '\''

/-- Split at the first `>` outside quotes. -/
def tagEnd : Option Char → Str → Option (Str × Str)
  | _, [] => none
  | none, c :: rest =>
      if c = '>' then some ([], rest)
      else
        (tagEnd (if isQuote c then some c else none) rest).map fun parts => (c :: parts.1, parts.2)
  | some quote, c :: rest =>
      (tagEnd (if c = quote then none else some quote) rest).map fun parts =>
        (c :: parts.1, parts.2)

def isKeyChar (c : Char) : Bool :=
  c != '=' && !isSpace c

def readAttribute (text : Str) : Except Str (Attribute × Str) :=
  match (text.dropWhile isKeyChar).dropWhile isSpace with
  | '=' :: afterEq =>
      match afterEq.dropWhile isSpace with
      | quote :: quoted =>
          if isQuote quote then
            match quoted.dropWhile (· ≠ quote) with
            | _ :: after => .ok (⟨text.takeWhile isKeyChar, quoted.takeWhile (· ≠ quote)⟩, after)
            | [] => .error "missing closing quote".toList
          else .error "value is not quoted".toList
      | [] => .error "missing value".toList
  | _ => .error "missing equals sign".toList

def readAttributes : Nat → List Str → Str → List (Except Str Attribute)
  | 0, _, _ => []
  | fuel + 1, seen, text =>
      let content := text.dropWhile isSpace
      if content = [] then []
      else
        match readAttribute content with
        | .error e => [.error e]
        | .ok (attr, after) =>
            if attr.key ∈ seen then [.error "duplicate key".toList]
            else .ok attr :: readAttributes fuel (attr.key :: seen) after

def readTag (content : Str) : BytesStart :=
  { name := content.takeWhile fun c => !isSpace c
    attributes := readAttributes content.length [] (content.dropWhile fun c => !isSpace c) }

/-! ## Markup -/

/-- The markup without an element at the front of a text, with what follows its
opening mark. -/
def miscAt (text : Str) : Option (Misc × Str) :=
  [Misc.comment, .cdata, .doctype, .processing].findSome? fun kind =>
    (stripPrefix kind.openMark text).map fun rest => (kind, rest)

/-- The text behind such markup. The end of the input ends a processing instruction
as `>` does. -/
def readMisc : Misc → Str → Except Str Str
  | .processing, text =>
      let content := text.takeWhile (· ≠ '>')
      if 2 ≤ content.length ∧ content.getLast? = some '?' then
        .ok ((text.dropWhile (· ≠ '>')).drop 1)
      else .error "unclosed processing instruction".toList
  | kind, text =>
      match findWindow kind.closeMark text with
      | some size =>
          if kind = .doctype ∧ trim (text.take size) = [] then .error "empty document type".toList
          else .ok (text.drop (size + kind.closeMark.length))
      | none => .error "unclosed markup".toList

/-- The rest of an end tag. The end of the input ends it as `>` does. -/
def readEnd (opened : List Str) (text : Str) : Except Str (Event × List Str × Str) :=
  let name := (text.takeWhile (· ≠ '>')).rdropWhile isSpace
  match opened with
  | innermost :: outer =>
      if innermost = name then .ok (.close name, outer, (text.dropWhile (· ≠ '>')).drop 1)
      else .error "mismatched end tag".toList
  | [] => .error "unmatched end tag".toList

def readElement (opened : List Str) (text : Str) : Except Str (Event × List Str × Str) :=
  match tagEnd none text with
  | none => .error "unclosed tag".toList
  | some (content, after) =>
      if content.getLast? = some '/' then
        .ok (.empty (readTag content.dropLast), opened, after)
      else .ok (.start (readTag content), (readTag content).name :: opened, after)

/-- The markup at the front of a text: its event, the elements open behind it
and the text behind it. -/
def readMarkup (opened : List Str) (text : Str) : Except Str (Event × List Str × Str) :=
  match miscAt text with
  | some (kind, body) => (readMisc kind body).map fun rest => (.other, opened, rest)
  | none =>
      match text.drop 1 with
      | '/' :: rest => readEnd opened rest
      | '!' :: _ => .error "unknown markup".toList
      | markup => readElement opened markup

/-- Nothing but the end of the input may follow a lone `<`. -/
def scan : Nat → List Str → Str → Reading
  | 0, _, _ => ⟨[], .ok ()⟩
  | fuel + 1, opened, text =>
      let plain := textEvent (text.takeWhile (· ≠ '<'))
      let markup := text.dropWhile (· ≠ '<')
      if markup = [] ∨ markup = ['<'] then ⟨plain, .ok ()⟩
      else
        match readMarkup opened markup with
        | .error e => ⟨plain, .error e⟩
        | .ok (event, opened, rest) =>
            let later := scan fuel opened rest
            ⟨plain ++ event :: later.events, later.ending⟩

/-- A leading byte order mark is not part of the document. -/
def read (text : Str) : Reading :=
  let document := if text.head? = some '\uFEFF' then text.drop 1 else text
  scan (document.length + 1) [] document

/-! ## Entities -/

def entityValue (name : Str) : Except Str Char :=
  match [Entity.lt, .gt, .amp, .apos, .quot].find? fun entity => entity.name = name with
  | some entity => .ok entity.value
  | none => .error "unrecognized entity".toList

def unescapeWith : Nat → Str → Except Str Str
  | 0, _ => .ok []
  | _, [] => .ok []
  | fuel + 1, c :: rest =>
      if c = '&' then
        match rest.dropWhile (· ≠ ';') with
        | _ :: after => do
            let value ← entityValue (rest.takeWhile (· ≠ ';'))
            let later ← unescapeWith fuel after
            return value :: later
        | [] => .error "unterminated entity".toList
      else do
        let later ← unescapeWith fuel rest
        return c :: later

def quickXml : QuickXml :=
  { read, unescape := fun text => unescapeWith (text.length + 1) text }

/-! ## Entities are read back -/

private theorem takeWhile_stop {α : Type} {p : α → Bool} {taken : List α} (stop : α) (rest : List α)
    (all : ∀ c ∈ taken, p c = true) (stops : p stop = false) :
    (taken ++ stop :: rest).takeWhile p = taken ∧
      (taken ++ stop :: rest).dropWhile p = stop :: rest := by
  constructor
  · rw [List.takeWhile_append_of_pos all, List.takeWhile_cons_of_neg (by simp [stops]),
      List.append_nil]
  · rw [List.dropWhile_append_of_pos all, List.dropWhile_cons_of_neg (by simp [stops])]

private theorem takeWhile_upTo {α : Type} {p : α → Bool} {taken : List α} (tail : List α)
    (all : ∀ c ∈ taken, p c = true) (stops : ∀ c, tail.head? = some c → p c = false) :
    (taken ++ tail).takeWhile p = taken ∧ (taken ++ tail).dropWhile p = tail := by
  cases tail with
  | nil =>
      rw [List.append_nil, List.takeWhile_eq_self_iff.mpr all, List.dropWhile_eq_nil_iff.mpr all]
      exact ⟨rfl, rfl⟩
  | cons c rest => exact takeWhile_stop c rest all (stops c rfl)

private theorem entityValue_name (entity : Entity) : entityValue entity.name = .ok entity.value := by
  cases entity <;> rfl

theorem unescapeWith_written (units : List TextUnit) (fuel : Nat)
    (wellFormed : ∀ unit ∈ units, unit.WellFormed)
    (enough : (units.flatMap TextUnit.written).length < fuel) :
    unescapeWith fuel (units.flatMap TextUnit.written) = .ok (units.map TextUnit.value) := by
  induction units generalizing fuel with
  | nil =>
      cases fuel with
      | zero => simp at enough
      | succ fuel => rfl
  | cons unit rest ih =>
      obtain ⟨own, others⟩ := List.forall_mem_cons.mp wellFormed
      cases fuel with
      | zero => simp at enough
      | succ fuel =>
          rw [List.flatMap_cons] at enough ⊢
          cases unit with
          | literal c =>
              have later := ih fuel others (by
                simp only [TextUnit.written, List.length_append, List.length_cons] at enough
                omega)
              have other : c ≠ '&' := own
              simp only [TextUnit.written, List.singleton_append, unescapeWith, other, ↓reduceIte,
                later, bind, Except.bind, pure, Except.pure]
              rfl
          | reference entity =>
              have later := ih fuel others (by
                simp only [TextUnit.written, List.length_append, List.length_cons] at enough
                omega)
              have absent : ∀ c ∈ entity.name, (decide (c ≠ ';')) = true := by
                intro c member
                simp only [decide_eq_true_eq]
                rintro rfl
                exact entity.semicolon_not_mem_name member
              obtain ⟨name, after⟩ := takeWhile_stop ';'
                (rest.flatMap TextUnit.written) absent (by simp)
              simp only [TextUnit.written, List.cons_append, List.append_assoc, List.nil_append,
                unescapeWith, ↓reduceIte, name, after, entityValue_name, later, bind, Except.bind,
                pure, Except.pure]
              rfl

/-! ## Tags are read back -/

private theorem quote_isQuote (quote : Quote) : isQuote quote.char = true := by
  cases quote <;> rfl

private theorem notSpace_of_isNameChar {c : Char} (nameChar : isNameChar c = true) : isSpace c = false := by
  simp only [isNameChar, Bool.and_eq_true, Bool.not_eq_true'] at nameChar
  exact nameChar.1

private theorem ne_of_isNameChar {c mark : Char} (nameChar : isNameChar c = true)
    (excluded : isNameChar mark = false) : c ≠ mark := by
  rintro rfl
  rw [nameChar] at excluded
  exact absurd excluded (by decide)

/-- Text that holds whole quoted values and no other `>`. -/
def Passes (text : Str) : Prop :=
  ∀ rest, tagEnd none (text ++ rest) = (tagEnd none rest).map fun parts =>
    (text ++ parts.1, parts.2)

private theorem passes_nil : Passes [] := by
  intro rest
  simp

theorem Passes.append {left right : Str} (passesLeft : Passes left) (passesRight : Passes right) :
    Passes (left ++ right) := by
  intro rest
  rw [List.append_assoc, passesLeft, passesRight, Option.map_map]
  simp [Function.comp_def]

private theorem passes_unquoted {text : Str} (unquoted : ∀ c ∈ text, c ≠ '>' ∧ isQuote c = false) :
    Passes text := by
  induction text with
  | nil => exact passes_nil
  | cons c rest ih =>
      obtain ⟨⟨open_, quote⟩, others⟩ := List.forall_mem_cons.mp unquoted
      intro after
      rw [List.cons_append, tagEnd, if_neg open_, quote]
      simp only [Bool.false_eq_true, ↓reduceIte]
      rw [ih others, Option.map_map]
      rfl

private theorem tagEnd_quoted {quote : Char} {value rest : Str} (absent : quote ∉ value) :
    tagEnd (some quote) (value ++ quote :: rest) =
      (tagEnd none rest).map fun parts => (value ++ quote :: parts.1, parts.2) := by
  induction value with
  | nil => simp [tagEnd]
  | cons c others ih =>
      simp only [List.mem_cons, not_or] at absent
      rw [List.cons_append, tagEnd, if_neg (Ne.symm absent.1), ih absent.2, Option.map_map]
      rfl

private theorem passes_quoted {quote : Char} {value : Str} (isQuoted : isQuote quote = true)
    (absent : quote ∉ value) : Passes (quote :: value ++ [quote]) := by
  intro rest
  have other : quote ≠ '>' := by
    rintro rfl
    exact absurd isQuoted (by decide)
  rw [List.cons_append, List.cons_append, tagEnd, if_neg other, isQuoted]
  simp only [↓reduceIte]
  rw [List.append_assoc, List.singleton_append, tagEnd_quoted absent, Option.map_map]
  simp [Function.comp_def]

private theorem passes_blank {text : Str} (blank : Blank text) : Passes text := by
  refine passes_unquoted fun c member => ?_
  have space := blank c member
  constructor
  · rintro rfl
    exact absurd space (by decide)
  · by_contra quote
    simp only [isQuote, Bool.not_eq_false, Bool.or_eq_true, beq_iff_eq] at quote
    rcases quote with rfl | rfl <;> exact absurd space (by decide)

private theorem passes_name {text : Str} (name : ∀ c ∈ text, isNameChar c = true) : Passes text := by
  refine passes_unquoted fun c member => ?_
  have nameChar := name c member
  refine ⟨ne_of_isNameChar nameChar (by decide), ?_⟩
  by_contra quote
  simp only [isQuote, Bool.not_eq_false, Bool.or_eq_true, beq_iff_eq] at quote
  rcases quote with rfl | rfl <;> exact absurd nameChar (by decide)

private theorem passes_attribute {source : AttributeSource} (wellFormed : source.WellFormed) :
    Passes source.render := by
  have value := passes_quoted (quote_isQuote source.quote) wellFormed.value.1
  have equals : Passes ['='] := passes_unquoted (by simp [isQuote])
  have whole := (((((passes_blank wellFormed.separated.2).append
    (passes_name wellFormed.key.2)).append (passes_blank wellFormed.spacing.1)).append
    equals).append (passes_blank wellFormed.spacing.2)).append value
  simpa [AttributeSource.render] using whole

private theorem passes_tag {tag : Tag} (wellFormed : tag.WellFormed) : Passes tag.render := by
  have attributes : ∀ sources : List AttributeSource, (∀ source ∈ sources, source.WellFormed) →
      Passes (sources.flatMap AttributeSource.render) := by
    intro sources all
    induction sources with
    | nil => exact passes_nil
    | cons source rest ih =>
        obtain ⟨own, others⟩ := List.forall_mem_cons.mp all
        exact (passes_attribute own).append (ih others)
  exact ((passes_name wellFormed.name.2).append (attributes _ wellFormed.attributes)).append
    (passes_blank wellFormed.after)

private theorem dropWhile_blank_append {blank rest : Str} (isBlank : Blank blank) :
    (blank ++ rest).dropWhile isSpace = rest.dropWhile isSpace :=
  List.dropWhile_append_of_pos isBlank

private theorem dropWhile_name {name rest : Str} (isName : IsName name) :
    (name ++ rest).dropWhile isSpace = name ++ rest := by
  obtain ⟨nonempty, chars⟩ := isName
  cases name with
  | nil => exact absurd rfl nonempty
  | cons c others =>
      rw [List.cons_append, List.dropWhile_cons_of_neg]
      simp [notSpace_of_isNameChar (chars c (by simp))]

private theorem readAttribute_written {source : AttributeSource} (wellFormed : source.WellFormed)
    (rest : Str) :
    readAttribute ((source.render ++ rest).dropWhile isSpace) =
      .ok (⟨source.key, source.value⟩, rest) := by
  have keyChars : ∀ c ∈ source.key, isKeyChar c = true := by
    intro c member
    have nameChar := wellFormed.key.2 c member
    have other : c ≠ '=' := ne_of_isNameChar nameChar (by decide)
    simp [isKeyChar, other, notSpace_of_isNameChar nameChar]
  have spacing := wellFormed.spacing
  have keySplit : ∀ after : Str,
      (source.key ++ (source.beforeEq ++ '=' :: after)).takeWhile isKeyChar = source.key ∧
        ((source.key ++ (source.beforeEq ++ '=' :: after)).dropWhile isKeyChar).dropWhile isSpace =
          '=' :: after := by
    intro after
    have drops : (source.beforeEq ++ '=' :: after).dropWhile isSpace = '=' :: after := by
      rw [dropWhile_blank_append spacing.1]
      rfl
    cases blank : source.beforeEq with
    | nil =>
        rw [List.nil_append]
        obtain ⟨taken, dropped⟩ := takeWhile_stop '=' after keyChars (by decide)
        rw [taken, dropped]
        exact ⟨rfl, rfl⟩
    | cons c others =>
        rw [blank] at drops spacing
        have space : isKeyChar c = false := by
          simp [isKeyChar, spacing.1 c (by simp)]
        obtain ⟨taken, dropped⟩ := takeWhile_stop c (others ++ '=' :: after) keyChars space
        rw [List.cons_append, taken, dropped]
        rw [List.cons_append] at drops
        exact ⟨rfl, drops⟩
  have quoteSpace : isSpace source.quote.char = false := by
    cases source.quote <;> decide
  have valueSplit : ∀ c ∈ source.value, (decide (c ≠ source.quote.char)) = true := by
    intro c member
    simp only [decide_eq_true_eq]
    rintro rfl
    exact wellFormed.value.1 member
  have content : (source.render ++ rest).dropWhile isSpace =
      source.key ++ (source.beforeEq ++ '=' :: (source.afterEq ++
        source.quote.char :: (source.value ++ source.quote.char :: rest))) := by
    have text : source.render ++ rest = source.before ++ (source.key ++ (source.beforeEq ++ '=' ::
        (source.afterEq ++ source.quote.char ::
          (source.value ++ source.quote.char :: rest)))) := by
      simp [AttributeSource.render]
    rw [text, dropWhile_blank_append wellFormed.separated.2, dropWhile_name wellFormed.key]
  rw [content]
  unfold readAttribute
  obtain ⟨taken, dropped⟩ := keySplit (source.afterEq ++
    source.quote.char :: (source.value ++ source.quote.char :: rest))
  have quoted : (source.afterEq ++ source.quote.char ::
      (source.value ++ source.quote.char :: rest)).dropWhile isSpace =
        source.quote.char :: (source.value ++ source.quote.char :: rest) := by
    rw [dropWhile_blank_append spacing.2, List.dropWhile_cons_of_neg (by simp [quoteSpace])]
  obtain ⟨value, after⟩ := takeWhile_stop source.quote.char rest valueSplit (by simp)
  simp only [dropped, quoted, quote_isQuote, ↓reduceIte, after, value, taken]

theorem readAttributes_written (sources : List AttributeSource) (after : Str) (seen : List Str)
    (fuel : Nat) (wellFormed : ∀ source ∈ sources, source.WellFormed) (blank : Blank after)
    (distinct : (sources.map AttributeSource.key).Nodup)
    (fresh : ∀ source ∈ sources, source.key ∉ seen) (enough : sources.length ≤ fuel) :
    readAttributes fuel seen (sources.flatMap AttributeSource.render ++ after) =
      sources.map fun source => .ok ⟨source.key, source.value⟩ := by
  induction sources generalizing seen fuel with
  | nil =>
      cases fuel with
      | zero => rfl
      | succ fuel =>
          have nothing : after.dropWhile isSpace = [] := List.dropWhile_eq_nil_iff.mpr blank
          simp [readAttributes, nothing]
  | cons source rest ih =>
      obtain ⟨own, others⟩ := List.forall_mem_cons.mp wellFormed
      obtain ⟨unseen, later⟩ := List.forall_mem_cons.mp fresh
      rw [List.map_cons, List.nodup_cons] at distinct
      cases fuel with
      | zero => simp at enough
      | succ fuel =>
          have read := readAttribute_written own (rest.flatMap AttributeSource.render ++ after)
          have content : (source.render ++ (rest.flatMap AttributeSource.render ++ after)).dropWhile
              isSpace ≠ [] := by
            intro nothing
            rw [nothing] at read
            simp [readAttribute] at read
          have remaining := ih (source.key :: seen) fuel others distinct.2
            (fun other member => by
              simp only [List.mem_cons, not_or]
              refine ⟨fun same => distinct.1 ?_, later other member⟩
              exact same ▸ List.mem_map_of_mem member)
            (by simpa using enough)
          rw [List.flatMap_cons, List.append_assoc, readAttributes]
          simp only [content, ↓reduceIte, read, unseen, remaining, List.map_cons]

private theorem length_le_flatMap_render (sources : List AttributeSource) :
    sources.length ≤ (sources.flatMap AttributeSource.render).length := by
  induction sources with
  | nil => simp
  | cons source rest ih =>
      simp only [List.flatMap_cons, List.length_cons, List.length_append, AttributeSource.render]
      omega

theorem readTag_render {tag : Tag} (wellFormed : tag.WellFormed) :
    readTag tag.render = tag.event := by
  have nameChars : ∀ c ∈ tag.name, (!isSpace c) = true := by
    intro c member
    simp [notSpace_of_isNameChar (wellFormed.name.2 c member)]
  have boundary : ∀ c, (tag.attributes.flatMap AttributeSource.render ++ tag.after).head? = some c →
      isSpace c = true := by
    intro c head
    cases split : tag.attributes with
    | nil =>
        rw [split] at head
        cases blank : tag.after with
        | nil => simp [blank] at head
        | cons d others =>
            rw [blank] at head
            obtain rfl : d = c := by simpa using head
            exact wellFormed.after d (by simp [blank])
    | cons source rest =>
        have own := wellFormed.attributes source (by simp [split])
        cases blank : source.before with
        | nil => exact absurd blank own.separated.1
        | cons d others =>
            rw [split] at head
            obtain rfl : d = c := by simpa [AttributeSource.render, blank] using head
            exact own.separated.2 d (by simp [blank])
  have split : tag.render.takeWhile (fun c => !isSpace c) = tag.name ∧
      tag.render.dropWhile (fun c => !isSpace c) =
        tag.attributes.flatMap AttributeSource.render ++ tag.after := by
    unfold Tag.render
    rw [List.append_assoc]
    exact takeWhile_upTo _ nameChars fun c head => by simp [boundary c head]
  have enough : tag.attributes.length ≤ tag.render.length := by
    have bound := length_le_flatMap_render tag.attributes
    simp only [Tag.render, List.length_append]
    omega
  have attributes := readAttributes_written tag.attributes tag.after [] tag.render.length
    wellFormed.attributes wellFormed.after wellFormed.distinct (by simp) enough
  unfold readTag
  rw [split.1, split.2, attributes]
  rfl

/-- A tag's content does not end in a slash, so a slash before `>` is a mark of
the empty tag. -/
theorem getLast_render {tag : Tag} (wellFormed : tag.WellFormed) :
    tag.render.getLast? ≠ some '/' := by
  intro last
  unfold Tag.render at last
  cases after : tag.after using List.reverseRecOn with
  | append_singleton others c _ =>
      rw [after, ← List.append_assoc, List.getLast?_concat] at last
      obtain rfl := Option.some.inj last
      exact absurd (wellFormed.after '/' (by simp [after])) (by decide)
  | nil =>
      rw [after, List.append_nil] at last
      cases attributes : tag.attributes using List.reverseRecOn with
      | append_singleton others source _ =>
          rw [attributes, List.flatMap_append, List.flatMap_singleton, AttributeSource.render,
            ← List.append_assoc, ← List.append_assoc, List.getLast?_concat] at last
          cases quote : source.quote <;> simp [quote, Quote.char] at last
      | nil =>
          rw [attributes, List.flatMap_nil, List.append_nil] at last
          have member := List.mem_of_getLast? last
          exact absurd (wellFormed.name.2 '/' member) (by decide)

/-! ## Markup is read back -/

private theorem miscAt_eq_none (second : Char) (rest : Str) (bang : second ≠ '!') (query : second ≠ '?') :
    miscAt ('<' :: second :: rest) = none := by
  have differs : ∀ kind : Misc, stripPrefix kind.openMark ('<' :: second :: rest) = none := by
    intro kind
    obtain ⟨mark, tail, split, either⟩ := kind.openMark_eq_cons
    have differs : mark ≠ second := by
      rcases either with rfl | rfl
      · exact Ne.symm bang
      · exact Ne.symm query
    simp [stripPrefix, split, List.isPrefixOf, differs]
  simp [miscAt, differs]

private theorem miscAt_openMark (kind : Misc) (rest : Str) :
    miscAt (kind.openMark ++ rest) = some (kind, rest) := by
  cases kind <;> rfl

private theorem readMarkup_openMark (opened : List Str) (kind : Misc) (rest : Str) :
    readMarkup opened (kind.openMark ++ rest) =
      (readMisc kind rest).map fun rest => (.other, opened, rest) := by
  simp only [readMarkup, miscAt_openMark]

private theorem readMarkup_slash (opened : List Str) (rest : Str) :
    readMarkup opened ('<' :: '/' :: rest) = readEnd opened rest := by
  simp only [readMarkup, miscAt_eq_none '/' rest (by decide) (by decide), List.drop_one,
    List.tail_cons]

private theorem readMarkup_nameChar (opened : List Str) {c : Char} (nameChar : isNameChar c = true)
    (rest : Str) : readMarkup opened ('<' :: c :: rest) = readElement opened (c :: rest) := by
  have slash : c ≠ '/' := ne_of_isNameChar nameChar (by decide)
  have bang : c ≠ '!' := ne_of_isNameChar nameChar (by decide)
  unfold readMarkup
  rw [miscAt_eq_none c rest bang (ne_of_isNameChar nameChar (by decide))]
  simp only [List.drop_one, List.tail_cons]
  split
  · rename_i first
    exact absurd (List.cons.inj first).1 slash
  · rename_i first
    exact absurd (List.cons.inj first).1 bang
  · rfl

private theorem readMisc_processing {body : Str} (tail : Str) (admitted : Misc.processing.Admits body)
    (stops : ∀ c, tail.head? = some c → c = '>') :
    readMisc .processing (body ++ '?' :: tail) = .ok (tail.drop 1) := by
  obtain ⟨nonempty, plain⟩ := admitted
  have inside : ∀ c ∈ body ++ ['?'], (decide (c ≠ '>')) = true := by
    intro c member
    simp only [decide_eq_true_eq]
    rintro rfl
    exact plain (by simpa using member)
  obtain ⟨content, behind⟩ := takeWhile_upTo tail inside
    fun c head => by simp [stops c head]
  have long : 2 ≤ (body ++ ['?']).length := by
    have positive := List.length_pos_iff.mpr nonempty
    rw [List.length_append, List.length_singleton]
    omega
  rw [List.append_cons]
  simp only [readMisc, content, behind, long, List.getLast?_concat, and_self, ↓reduceIte]

private theorem readMisc_closed {kind : Misc} {body : Str} (rest : Str)
    (closed : findWindow kind.closeMark (body ++ kind.closeMark) = some body.length)
    (admitted : kind.Admits body) : readMisc kind (body ++ kind.closeMark ++ rest) = .ok rest := by
  have further : findWindow kind.closeMark (body ++ kind.closeMark ++ rest) = some body.length :=
    findWindow_append _ closed
  have behind : (body ++ kind.closeMark ++ rest).drop (body.length + kind.closeMark.length) =
      rest := by
    rw [← List.length_append, List.drop_left]
  have front : (body ++ kind.closeMark ++ rest).take body.length = body := by
    rw [List.append_assoc, List.take_left]
  cases kind with
  | processing =>
      have ends : body ++ Misc.processing.closeMark ++ rest = body ++ '?' :: '>' :: rest := by
        rw [List.append_assoc]
        rfl
      rw [ends, readMisc_processing _ admitted (by simp)]
      rfl
  | doctype =>
      have visible : ¬ trim body = [] := fun nothing => admitted.1 (trim_eq_nil_iff.mp nothing)
      simp only [readMisc, further, front, visible, and_false, if_false, behind]
  | _ => simp only [readMisc, further, reduceCtorEq, false_and, if_false, behind]

theorem readMarkup_misc {kind : Misc} {body : Str} (opened : List Str) (rest : Str)
    (wellFormed : (Token.misc kind body).WellFormed) :
    readMarkup opened ((Token.misc kind body).render ++ rest) = .ok (.other, opened, rest) := by
  have text : (Token.misc kind body).render ++ rest =
      kind.openMark ++ (body ++ kind.closeMark ++ rest) := by
    simp only [Token.render, List.append_assoc]
  rw [text, readMarkup_openMark, readMisc_closed rest wellFormed.1 wellFormed.2]
  rfl

private theorem readEnd_name {name after : Str} (outer : List Str) (tail : Str) (isName : IsName name)
    (blank : Blank after) (stops : ∀ c, tail.head? = some c → c = '>') :
    readEnd (name :: outer) (name ++ after ++ tail) = .ok (.close name, outer, tail.drop 1) := by
  have inside : ∀ c ∈ name ++ after, (decide (c ≠ '>')) = true := by
    intro c member
    simp only [decide_eq_true_eq]
    rintro rfl
    rcases List.mem_append.mp member with inName | inAfter
    · exact absurd (isName.2 _ inName) (by decide)
    · exact absurd (blank _ inAfter) (by decide)
  obtain ⟨content, behind⟩ := takeWhile_upTo tail inside
    fun c head => by simp [stops c head]
  have trimmed : (name ++ after).rdropWhile isSpace = name := by
    have reversed : (after.reverse ++ name.reverse).dropWhile isSpace = name.reverse := by
      rw [List.dropWhile_append_of_pos fun c member => blank c (List.mem_reverse.mp member)]
      obtain ⟨nonempty, chars⟩ := isName
      cases split : name.reverse with
      | nil => rfl
      | cons c others =>
          have member : c ∈ name := by
            rw [← List.mem_reverse, split]
            simp
          rw [List.dropWhile_cons_of_neg]
          simp [notSpace_of_isNameChar (chars c member)]
    rw [List.rdropWhile, List.reverse_append, reversed, List.reverse_reverse]
  simp only [readEnd, content, behind, trimmed, ↓reduceIte]

theorem readMarkup_close {name after : Str} (outer : List Str) (rest : Str) (isName : IsName name)
    (blank : Blank after) :
    readMarkup (name :: outer) ((Token.close name after).render ++ rest) =
      .ok (.close name, outer, rest) := by
  have text : (Token.close name after).render ++ rest =
      '<' :: '/' :: (name ++ after ++ '>' :: rest) := by
    simp [Token.render]
  rw [text, readMarkup_slash, readEnd_name outer _ isName blank (by simp)]
  rfl

theorem readMarkup_tag {tag : Tag} (opened : List Str) (wellFormed : tag.WellFormed) (mark : Str)
    (passes : Passes mark) (rest : Str) :
    readMarkup opened ('<' :: tag.render ++ mark ++ '>' :: rest) =
      if (tag.render ++ mark).getLast? = some '/' then
        .ok (.empty (readTag (tag.render ++ mark).dropLast), opened, rest)
      else
        .ok (.start (readTag (tag.render ++ mark)), (readTag (tag.render ++ mark)).name :: opened,
          rest) := by
  obtain ⟨c, others, head, nameChar⟩ := Tag.render_eq_cons wellFormed
  have content : tagEnd none (tag.render ++ mark ++ '>' :: rest) = some (tag.render ++ mark, rest) := by
    rw [((passes_tag wellFormed).append passes) ('>' :: rest)]
    simp [tagEnd]
  have element : readMarkup opened ('<' :: tag.render ++ mark ++ '>' :: rest) =
      readElement opened (tag.render ++ mark ++ '>' :: rest) := by
    rw [head]
    exact readMarkup_nameChar opened nameChar _
  rw [element]
  simp only [readElement, content]

private theorem readMarkup_start {tag : Tag} (opened : List Str) (wellFormed : tag.WellFormed)
    (rest : Str) :
    readMarkup opened ((Token.start tag).render ++ rest) =
      .ok (.start tag.event, tag.name :: opened, rest) := by
  have read := readMarkup_tag opened wellFormed [] passes_nil rest
  simp only [List.append_nil] at read
  rw [if_neg (getLast_render wellFormed), readTag_render wellFormed] at read
  simpa [Token.render, Tag.event] using read

private theorem readMarkup_empty {tag : Tag} (opened : List Str) (wellFormed : tag.WellFormed)
    (rest : Str) :
    readMarkup opened ((Token.empty tag).render ++ rest) = .ok (.empty tag.event, opened, rest) := by
  have passes : Passes ['/'] := passes_unquoted (by simp [isQuote])
  have read := readMarkup_tag opened wellFormed ['/'] passes rest
  rw [List.getLast?_concat, List.dropLast_concat, if_pos rfl, readTag_render wellFormed] at read
  simpa [Token.render] using read

/-! ## Documents are read back -/

private theorem scan_bracket {pending rest : Str} (fuel : Nat) (opened : List Str) (plain : '<' ∉ pending)
    (more : rest ≠ []) :
    scan (fuel + 1) opened (pending ++ '<' :: rest) =
      match readMarkup opened ('<' :: rest) with
      | .error e => ⟨textEvent pending, .error e⟩
      | .ok (event, inner, behind) =>
          ⟨textEvent pending ++ event :: (scan fuel inner behind).events,
            (scan fuel inner behind).ending⟩ := by
  have before : ∀ c ∈ pending, (decide (c ≠ '<')) = true := by
    intro c member
    simp only [decide_eq_true_eq]
    rintro rfl
    exact plain member
  obtain ⟨taken, dropped⟩ := takeWhile_stop '<' rest before (by simp)
  rw [scan]
  simp only [taken, dropped, List.cons.injEq, reduceCtorEq, more, and_false, or_self, ↓reduceIte]

private theorem scan_end {pending : Str} (fuel : Nat) (opened : List Str) (tail : Str) (plain : '<' ∉ pending)
    (ends : tail = [] ∨ tail = ['<']) :
    scan (fuel + 1) opened (pending ++ tail) = ⟨textEvent pending, .ok ()⟩ := by
  have before : ∀ c ∈ pending, (decide (c ≠ '<')) = true := by
    intro c member
    simp only [decide_eq_true_eq]
    rintro rfl
    exact plain member
  obtain ⟨taken, dropped⟩ := takeWhile_upTo tail before fun c head => by
    rcases ends with rfl | rfl
    · cases head
    · obtain rfl := Option.some.inj head
      decide
  rw [scan]
  simp only [taken, dropped, ends, ↓reduceIte]

private theorem scan_markup {fuel : Nat} {opened inner : List Str} {pending rest : Str} {token : Token}
    {event : Event} (plain : '<' ∉ pending) (starts : token.render.head? = some '<')
    (read : readMarkup opened (token.render ++ rest) = .ok (event, inner, rest)) :
    scan (fuel + 1) opened (pending ++ (token.render ++ rest)) =
      ⟨textEvent pending ++ event :: (scan fuel inner rest).events,
        (scan fuel inner rest).ending⟩ := by
  cases split : token.render with
  | nil => simp [split] at starts
  | cons c others =>
      rw [split] at starts read
      obtain rfl : c = '<' := by simpa using starts
      rw [List.cons_append] at read ⊢
      have more : others ++ rest ≠ [] := by
        intro nothing
        rw [nothing] at read
        cases read
      rw [scan_bracket fuel opened plain more, read]

/-- Whole tokens are scanned away, and what they leave pending stands before what
follows them. -/
theorem scan_tokens (tokens : List Token) (fuel : Nat) {opened inner : List Str}
    (pending tail : Str) (plain : '<' ∉ pending) (wellFormed : ∀ token ∈ tokens, token.WellFormed)
    (opens : openAfter opened tokens = some inner)
    (enough : (render tokens ++ tail).length < fuel) :
    '<' ∉ pendingAfter pending tokens ∧ ∃ fuelLeft, tail.length < fuelLeft ∧
      scan fuel opened (pending ++ (render tokens ++ tail)) =
        ⟨settled pending tokens ++
            (scan fuelLeft inner (pendingAfter pending tokens ++ tail)).events,
          (scan fuelLeft inner (pendingAfter pending tokens ++ tail)).ending⟩ := by
  induction tokens generalizing fuel opened pending with
  | nil =>
      obtain rfl := Option.some.inj opens
      exact ⟨plain, fuel, enough, rfl⟩
  | cons token rest ih =>
      obtain ⟨own, others⟩ := List.forall_mem_cons.mp wellFormed
      rw [render_cons, List.append_assoc] at enough ⊢
      cases fuel with
      | zero => simp at enough
      | succ fuel =>
          have markup : ∀ event between, token.render.head? = some '<' →
              readMarkup opened (token.render ++ (render rest ++ tail)) =
                .ok (event, between, render rest ++ tail) →
              openAfter between rest = some inner →
              '<' ∉ pendingAfter [] rest ∧ ∃ fuelLeft, tail.length < fuelLeft ∧
                scan (fuel + 1) opened (pending ++ (token.render ++ (render rest ++ tail))) =
                  ⟨textEvent pending ++ event :: settled [] rest ++
                      (scan fuelLeft inner (pendingAfter [] rest ++ tail)).events,
                    (scan fuelLeft inner (pendingAfter [] rest ++ tail)).ending⟩ := by
            intro event between starts read remaining
            have shorter : (render rest ++ tail).length < fuel := by
              cases split : token.render with
              | nil => simp [split] at starts
              | cons c chars =>
                  rw [split] at enough
                  simp only [List.cons_append, List.length_cons, List.length_append] at enough
                  simp only [List.length_append]
                  omega
            obtain ⟨settledPlain, fuelLeft, remains, later⟩ :=
              ih fuel [] (by simp) others remaining shorter
            rw [List.nil_append] at later
            refine ⟨settledPlain, fuelLeft, remains, ?_⟩
            rw [scan_markup plain starts read, later]
            simp only [List.append_assoc, List.cons_append]
          cases token with
          | text raw =>
              have accumulated := ih (fuel + 1) (pending ++ raw)
                (fun member => (List.mem_append.mp member).elim plain own) others opens (by
                  simp only [Token.render, List.length_append] at enough ⊢
                  omega)
              simpa only [Token.render, settled, pendingAfter, List.append_assoc] using accumulated
          | start tag => exact markup _ _ rfl (readMarkup_start opened own _) opens
          | empty tag => exact markup _ _ rfl (readMarkup_empty opened own _) opens
          | misc kind body =>
              exact markup _ _ (by cases kind <;> rfl) (readMarkup_misc opened _ own) opens
          | close name after =>
              cases opened with
              | nil => simp [openAfter] at opens
              | cons innermost outer =>
                  by_cases same : innermost = name
                  · subst same
                    rw [openAfter, if_pos rfl] at opens
                    exact markup _ _ rfl (readMarkup_close outer _ own.1 own.2) opens
                  · simp [openAfter, same] at opens

/-- A text is read as far as its first tokens go, and then as what they leave open and
pending makes of the rest. -/
private theorem read_front {tokens : List Token} {inner : List Str} (tail : Str)
    (wellFormed : ∀ token ∈ tokens, token.WellFormed) (opens : openAfter [] tokens = some inner)
    (noMark : (render tokens ++ tail).head? ≠ some '\uFEFF') :
    '<' ∉ pendingAfter [] tokens ∧ ∃ fuel,
      quickXml.read (render tokens ++ tail) =
        ⟨settled [] tokens ++ (scan (fuel + 1) inner (pendingAfter [] tokens ++ tail)).events,
          (scan (fuel + 1) inner (pendingAfter [] tokens ++ tail)).ending⟩ := by
  obtain ⟨plain, fuelLeft, remains, scanned⟩ := scan_tokens tokens
    ((render tokens ++ tail).length + 1) [] tail (by simp) wellFormed opens (Nat.lt_succ_self _)
  obtain ⟨fuel, rfl⟩ := Nat.exists_eq_succ_of_ne_zero (Nat.ne_zero_of_lt remains)
  rw [List.nil_append] at scanned
  exact ⟨plain, fuel, by simp only [quickXml, read, noMark, if_false, scanned]⟩

theorem documented : Documented quickXml where
  read_render := by
    intro tokens wellFormed closed noMark
    obtain ⟨inner, opens⟩ := Option.isSome_iff_exists.mp closed
    rw [← List.append_nil (render tokens)] at noMark ⊢
    obtain ⟨plain, fuel, front⟩ := read_front [] wellFormed opens noMark
    rw [front, scan_end fuel inner [] plain (.inl rfl), events_eq_settled]
  unescape_written units wellFormed := unescapeWith_written units _ wellFormed (Nat.lt_succ_self _)

/-! ## Markup that is cut off -/

private theorem tagEnd_append {quote : Option Char} {text content after : Str} (more : Str)
    (ended : tagEnd quote text = some (content, after)) :
    tagEnd quote (text ++ more) = some (content, after ++ more) := by
  induction text generalizing quote content after with
  | nil => cases quote <;> cases ended
  | cons c rest ih =>
      cases quote with
      | none =>
          rw [tagEnd] at ended
          rw [List.cons_append, tagEnd]
          split at ended
          · rename_i last
            obtain ⟨rfl, rfl⟩ := Prod.mk.inj (Option.some.inj ended)
            rw [if_pos last]
          · rename_i inside
            obtain ⟨parts, later, same⟩ := Option.map_eq_some_iff.mp ended
            obtain ⟨rfl, rfl⟩ := Prod.mk.inj same
            rw [if_neg inside, ih later]
            rfl
      | some quote =>
          rw [tagEnd] at ended
          rw [List.cons_append, tagEnd]
          obtain ⟨parts, later, same⟩ := Option.map_eq_some_iff.mp ended
          obtain ⟨rfl, rfl⟩ := Prod.mk.inj same
          rw [ih later]
          rfl

private theorem tagEnd_cut {text content part : Str} (ended : tagEnd none text = some (content, []))
    (within : part <+: text) (proper : part ≠ text) : tagEnd none part = none := by
  obtain ⟨more, rfl⟩ := within
  cases early : tagEnd none part with
  | none => rfl
  | some parts =>
      have whole := tagEnd_append more early
      rw [ended] at whole
      obtain ⟨_, rest⟩ := Prod.mk.inj (Option.some.inj whole)
      obtain ⟨_, rfl⟩ := List.append_eq_nil_iff.mp rest.symm
      exact absurd (List.append_nil part).symm proper

private theorem readMarkup_cut_tag {tag : Tag} {mark part : Str} (opened : List Str)
    (wellFormed : tag.WellFormed) (passes : Passes mark)
    (within : part <+: '<' :: (tag.render ++ mark) ++ ['>']) (nonempty : part ≠ [])
    (proper : part ≠ '<' :: (tag.render ++ mark) ++ ['>']) (more : part ≠ ['<']) :
    ∃ e, readMarkup opened part = .error e := by
  obtain ⟨c, others, head, nameChar⟩ := Tag.render_eq_cons wellFormed
  have ended : tagEnd none (tag.render ++ mark ++ ['>']) = some (tag.render ++ mark, []) := by
    rw [((passes_tag wellFormed).append passes) ['>']]
    simp [tagEnd]
  cases part with
  | nil => exact absurd rfl nonempty
  | cons first rest =>
      obtain ⟨rfl, inside⟩ := List.cons_prefix_cons.mp within
      have unended : tagEnd none rest = none :=
        tagEnd_cut ended inside fun same => proper (by rw [same]; rfl)
      cases rest with
      | nil => exact absurd rfl more
      | cons second others =>
          rw [head] at inside
          obtain ⟨rfl, _⟩ := List.cons_prefix_cons.mp inside
          refine ⟨"unclosed tag".toList, ?_⟩
          rw [readMarkup_nameChar opened nameChar, readElement, unended]

private theorem readEnd_cut {name after content : Str} (outer : List Str) (isName : IsName name)
    (blank : Blank after) (within : content <+: name ++ after)
    (unended : ∀ blanks, Blank blanks → content ≠ name ++ blanks) :
    ∃ e, readEnd (name :: outer) content = .error e := by
  have inside : ∀ c ∈ content, (decide (c ≠ '>')) = true := by
    intro c member
    simp only [decide_eq_true_eq]
    rintro rfl
    rcases List.mem_append.mp (within.subset member) with inName | inAfter
    · exact absurd (isName.2 _ inName) (by decide)
    · exact absurd (blank _ inAfter) (by decide)
  have differs : name ≠ content.rdropWhile isSpace := by
    intro same
    have split : content = content.rdropWhile isSpace ++
        (content.reverse.takeWhile isSpace).reverse := by
      rw [List.rdropWhile, ← List.reverse_append, List.takeWhile_append_dropWhile,
        List.reverse_reverse]
    rw [← same] at split
    refine unended _ (fun c member => ?_) split
    exact List.mem_takeWhile_imp (List.mem_reverse.mp member)
  refine ⟨"mismatched end tag".toList, ?_⟩
  simp only [readEnd, List.takeWhile_eq_self_iff.mpr inside, differs, if_false]

private theorem readMisc_processing_cut {body content : Str} (admitted : Misc.processing.Admits body)
    (within : content <+: body ++ ['?'])
    (unended : ∀ short, Misc.processing.Admits short → content ≠ short ++ ['?']) :
    ∃ e, readMisc .processing content = .error e := by
  have inside : ∀ c ∈ content, (decide (c ≠ '>')) = true := by
    intro c member
    simp only [decide_eq_true_eq]
    rintro rfl
    exact admitted.2 (by simpa using within.subset member)
  have refused : ¬ (2 ≤ content.length ∧ content.getLast? = some '?') := by
    rintro ⟨long, last⟩
    cases content using List.reverseRecOn with
    | nil => cases last
    | append_singleton short c _ =>
        rw [List.getLast?_concat] at last
        obtain rfl := Option.some.inj last
        refine unended short ⟨?_, fun member => ?_⟩ rfl
        · rintro rfl
          simp at long
        · exact absurd (inside '>' (List.mem_append_left _ member)) (by decide)
  refine ⟨"unclosed processing instruction".toList, ?_⟩
  simp only [readMisc, List.takeWhile_eq_self_iff.mpr inside, refused, if_false]

/-- No opening mark begins another one, and none but that of a processing instruction
begins an element. -/
theorem readMarkup_cut_openMark {kind : Misc} {part : Str} (opened : List Str)
    (within : part <+: kind.openMark) (proper : part ≠ kind.openMark) (nonempty : part ≠ [])
    (more : part ≠ ['<']) : ∃ e, readMarkup opened part = .error e := by
  have checked : ∀ kind ∈ [Misc.comment, .cdata, .doctype, .processing],
      ∀ part ∈ kind.openMark.inits, part ≠ kind.openMark → part ≠ [] → part ≠ ['<'] →
        miscAt part = none ∧ (part.drop 1).head? = some '!' := by
    decide
  obtain ⟨noMisc, bang⟩ := checked kind (by cases kind <;> decide) part
    ((List.mem_inits _ _).mpr within) proper nonempty more
  obtain ⟨rest, behind⟩ := List.head?_eq_some_iff.mp bang
  refine ⟨"unknown markup".toList, ?_⟩
  unfold readMarkup
  rw [noMisc, behind]
  rfl

private theorem findWindow_processing {body : Str} (plain : '>' ∉ body) :
    findWindow Misc.processing.closeMark (body ++ Misc.processing.closeMark) =
      some body.length := by
  induction body with
  | nil => rfl
  | cons c rest ih =>
      simp only [List.mem_cons, not_or] at plain
      have later : ¬ Misc.processing.closeMark.isPrefixOf
          (c :: (rest ++ Misc.processing.closeMark)) = true := by
        rw [List.isPrefixOf_iff_prefix]
        intro front
        obtain ⟨_, behind⟩ := List.cons_prefix_cons.mp front
        cases rest with
        | nil => exact absurd (List.cons_prefix_cons.mp behind).1 (by decide)
        | cons d others => exact plain.2 ((List.cons_prefix_cons.mp behind).1 ▸ List.mem_cons_self)
      rw [List.cons_append, findWindow, if_neg later, ih plain.2]
      rfl

private theorem findWindow_cut {pattern body content : Str}
    (closed : findWindow pattern (body ++ pattern) = some body.length)
    (within : content <+: body ++ pattern) (proper : content ≠ body ++ pattern) :
    findWindow pattern content = none := by
  cases early : findWindow pattern content with
  | none => rfl
  | some size =>
      obtain ⟨more, whole⟩ := within
      have found := findWindow_append more early
      rw [whole, closed] at found
      obtain rfl := Option.some.inj found
      have bound := findWindow_le early
      have lengths := congrArg List.length whole
      rw [List.length_append, List.length_append] at lengths
      obtain rfl := List.eq_nil_of_length_eq_zero (by omega : more.length = 0)
      exact absurd (by rw [← whole, List.append_nil]) proper

private theorem readMarkup_cut_misc {kind : Misc} {body part : Str} (opened : List Str)
    (wellFormed : (Token.misc kind body).WellFormed)
    (within : part <+: (Token.misc kind body).render) (nonempty : part ≠ [])
    (proper : part ≠ (Token.misc kind body).render) (more : part ≠ ['<'])
    (unended : ∀ short, (Token.misc .processing short).WellFormed →
      part ++ ['>'] ≠ (Token.misc .processing short).render) :
    ∃ e, readMarkup opened part = .error e := by
  have text : (Token.misc kind body).render = kind.openMark ++ (body ++ kind.closeMark) := by
    simp [Token.render]
  obtain ⟨closed, admitted⟩ := wellFormed
  rw [text] at within proper
  by_cases marked : kind.openMark <+: part
  · obtain ⟨rest, rfl⟩ := marked
    rw [List.prefix_append_right_inj] at within
    rw [ne_eq, List.append_cancel_left_eq] at proper
    have refused : ∃ e, readMisc kind rest = .error e := by
      cases kind with
      | processing =>
          have ends : body ++ Misc.processing.closeMark = (body ++ ['?']) ++ ['>'] := by
            rw [List.append_assoc]
            rfl
          rw [ends] at within proper
          refine readMisc_processing_cut admitted
            ((List.prefix_concat_iff.mp within).resolve_left proper) fun short allowed same => ?_
          refine unended short ⟨findWindow_processing allowed.2, allowed⟩ ?_
          rw [same]
          simp [Token.render, Misc.closeMark]
      | _ =>
          refine ⟨"unclosed markup".toList, ?_⟩
          simp only [readMisc, findWindow_cut closed within proper]
    obtain ⟨e, refused⟩ := refused
    exact ⟨e, by rw [readMarkup_openMark, refused]; rfl⟩
  · have within : part <+: kind.openMark :=
      (List.prefix_or_prefix_of_prefix within (List.prefix_append _ _)).resolve_right marked
    exact readMarkup_cut_openMark opened within (fun same => marked (same ▸ List.prefix_rfl))
      nonempty more

private theorem readMarkup_cut {tokens : List Token} {token : Token} {part : Str} {inner : List Str}
    (wellFormed : token.WellFormed) (markup : token.IsMarkup)
    (opens : (openAfter [] (tokens ++ [token])).isSome = true)
    (opened : openAfter [] tokens = some inner) (within : part <+: token.render)
    (proper : part ≠ token.render) (nonempty : part ≠ []) (more : part ≠ ['<'])
    (unended : ∀ last, ¬ EndedByInput tokens part last) :
    ∃ e, readMarkup inner part = .error e := by
  cases token with
  | text raw => cases markup
  | start tag =>
      refine readMarkup_cut_tag inner wellFormed passes_nil ?_ nonempty ?_ more
      · simpa [Token.render] using within
      · simpa [Token.render] using proper
  | empty tag =>
      have passes : Passes ['/'] := passes_unquoted (by simp [isQuote])
      refine readMarkup_cut_tag inner wellFormed passes ?_ nonempty ?_ more
      · simpa [Token.render] using within
      · simpa [Token.render] using proper
  | close name after =>
      obtain ⟨outer, split⟩ := openAfter_close.mp opens
      obtain rfl := Option.some.inj (opened.symm.trans split)
      have text : (Token.close name after).render = '<' :: '/' :: (name ++ after ++ ['>']) := by
        simp [Token.render]
      rw [text] at within proper
      cases part with
      | nil => exact absurd rfl nonempty
      | cons first rest =>
          obtain ⟨rfl, inside⟩ := List.cons_prefix_cons.mp within
          cases rest with
          | nil => exact absurd rfl more
          | cons second content =>
              obtain ⟨rfl, shorter⟩ := List.cons_prefix_cons.mp inside
              have cut := (List.prefix_concat_iff.mp shorter).resolve_left
                fun whole => proper (by rw [whole])
              rw [readMarkup_slash]
              refine readEnd_cut outer wellFormed.1 wellFormed.2 cut fun blanks blank same => ?_
              refine unended (.close name blanks) ⟨⟨wellFormed.1, blank⟩, trivial,
                openAfter_close.mpr ⟨outer, split⟩, ?_⟩
              rw [same]
              simp [Token.render]
  | misc kind body =>
      refine readMarkup_cut_misc inner wellFormed within nonempty proper more
        fun short allowed same => unended (.misc .processing short) ⟨allowed, trivial, ?_, same⟩
      rw [openAfter_append, opened]
      rfl

private theorem unescapeWith_dangling (fuel : Nat) {raw : Str} (enough : raw.length < fuel)
    (dangling : Dangling raw) : ∃ e, unescapeWith fuel raw = .error e := by
  induction fuel generalizing raw with
  | zero => simp at enough
  | succ fuel ih =>
      cases raw with
      | nil =>
          obtain ⟨before, after, split, _⟩ := dangling
          simp at split
      | cons c rest =>
          have shorter : rest.length < fuel := Nat.lt_of_succ_lt_succ enough
          rw [unescapeWith]
          split
          · rename_i ampersand
            split
            · rename_i mark after terminated
              cases entityValue (rest.takeWhile (· ≠ ';')) with
              | error e => exact ⟨e, rfl⟩
              | ok value =>
                  obtain rfl : mark = ';' := by
                    have stops := List.head?_dropWhile_not (· ≠ ';') rest
                    rw [terminated] at stops
                    simpa using stops
                  have whole : c :: rest = (c :: rest.takeWhile (· ≠ ';')) ++ ';' :: after := by
                    rw [List.cons_append, ← terminated, List.takeWhile_append_dropWhile]
                  have bound : after.length < fuel := by
                    have suffix := (List.dropWhile_suffix (· ≠ ';') (l := rest)).length_le
                    rw [terminated, List.length_cons] at suffix
                    omega
                  rw [whole] at dangling
                  obtain ⟨e, failed⟩ := ih bound dangling.behind_semicolon
                  exact ⟨e, by simp only [failed]; rfl⟩
            · exact ⟨_, rfl⟩
          · rename_i plain
            obtain ⟨e, failed⟩ := ih shorter (dangling.behind plain)
            exact ⟨e, by simp only [failed]; rfl⟩

private theorem readMarkup_ended {tokens : List Token} {part : Str} {last : Token} {inner : List Str}
    (opened : openAfter [] tokens = some inner) (ended : EndedByInput tokens part last) :
    ∃ behind, readMarkup inner part = .ok (last.event, behind, []) := by
  rcases ended.cases with
    ⟨name, after, rfl, rfl, isName, blank, outer, split⟩ | ⟨body, rfl, rfl, _⟩
  · obtain rfl := Option.some.inj (opened.symm.trans split)
    have whole := readEnd_name outer [] isName blank (by simp)
    rw [List.append_nil] at whole
    exact ⟨outer, by rw [readMarkup_slash, whole]; rfl⟩
  · have whole := readMisc_processing [] ended.1.2 (by simp)
    exact ⟨inner, by
      rw [show '<' :: '?' :: (body ++ ['?']) = Misc.processing.openMark ++ (body ++ ['?']) from rfl,
        readMarkup_openMark, whole]
      rfl⟩

private theorem read_cut {text : Str} (inside : EndsInMarkup text)
    (noMark : text.head? ≠ some '\uFEFF') : ∃ e, (quickXml.read text).ending = .error e := by
  obtain ⟨tokens, token, part, rfl, wellFormed, own, markup, opens, within, proper, nonempty, more,
    unended⟩ := inside
  obtain ⟨inner, opened⟩ := openAfter_front opens
  obtain ⟨plain, fuel, front⟩ := read_front part wellFormed opened noMark
  obtain ⟨e, failed⟩ := readMarkup_cut own markup opens opened within proper nonempty more unended
  obtain ⟨rest, rfl⟩ : ∃ rest, part = '<' :: rest := by
    obtain ⟨back, rendered⟩ := markup.render_eq_cons
    rw [rendered] at within
    cases part with
    | nil => exact absurd rfl nonempty
    | cons c rest => exact ⟨rest, by rw [(List.cons_prefix_cons.mp within).1]⟩
  refine ⟨e, ?_⟩
  rw [front, scan_bracket fuel inner plain (by rintro rfl; exact more rfl), failed]

private theorem read_lone {tokens : List Token} (wellFormed : ∀ token ∈ tokens, token.WellFormed)
    (closed : (openAfter [] tokens).isSome = true) (noMark : (render tokens).head? ≠ some '\uFEFF') :
    quickXml.read (render tokens ++ ['<']) = ⟨events [] tokens, .ok ()⟩ := by
  obtain ⟨inner, opened⟩ := Option.isSome_iff_exists.mp closed
  have noMark : (render tokens ++ ['<']).head? ≠ some '\uFEFF' := by
    cases rendered : render tokens with
    | nil => simp
    | cons c rest =>
        rw [rendered] at noMark
        exact noMark
  obtain ⟨plain, fuel, front⟩ := read_front ['<'] wellFormed opened noMark
  rw [front, scan_end fuel inner _ plain (.inr rfl), events_eq_settled]

private theorem read_ended {tokens : List Token} {part : Str} {last : Token}
    (wellFormed : ∀ token ∈ tokens, token.WellFormed) (ended : EndedByInput tokens part last)
    (noMark : (render tokens ++ part).head? ≠ some '\uFEFF') :
    quickXml.read (render tokens ++ part) = ⟨events [] (tokens ++ [last]), .ok ()⟩ := by
  obtain ⟨inner, opened⟩ := openAfter_front ended.2.2.1
  obtain ⟨plain, fuel, front⟩ := read_front part wellFormed opened noMark
  obtain ⟨behind, taken⟩ := readMarkup_ended opened ended
  obtain ⟨back, rfl, _⟩ := ended.begins
  have nothing : scan fuel behind [] = ⟨[], .ok ()⟩ := by
    cases fuel <;> rfl
  rw [front, scan_bracket fuel inner plain (by rintro rfl; cases taken), taken, events_append,
    events_markup ended.isMarkup]
  simp only [nothing]
  rfl

theorem documentedAtEnd : DocumentedAtEnd quickXml where
  read_inside _ inside noMark := read_cut inside noMark
  read_lone _ wellFormed closed noMark := read_lone wellFormed closed noMark
  read_ended _ _ _ wellFormed ended noMark := read_ended wellFormed ended noMark
  unescape_dangling _ dangling := unescapeWith_dangling _ (Nat.lt_succ_self _) dangling

/-! ## End tags are checked -/

private theorem readEnd_nesting {opened inner : List Str} {text rest : Str} {event : Event}
    (read : readEnd opened text = .ok (event, inner, rest)) :
    nesting opened [event] = some inner := by
  unfold readEnd at read
  split at read
  · dsimp only at read
    split at read
    · rename_i same
      cases read
      simp [nesting, same]
    · cases read
  · cases read

private theorem readElement_nesting {opened inner : List Str} {text rest : Str} {event : Event}
    (read : readElement opened text = .ok (event, inner, rest)) :
    nesting opened [event] = some inner := by
  unfold readElement at read
  split at read
  · cases read
  · split at read
    · cases read
      rfl
    · cases read
      rfl

private theorem readMarkup_nesting {opened inner : List Str} {text rest : Str} {event : Event}
    (read : readMarkup opened text = .ok (event, inner, rest)) :
    nesting opened [event] = some inner := by
  unfold readMarkup at read
  split at read
  · rename_i kind body _
    cases ended : readMisc kind body with
    | error e =>
        rw [ended] at read
        cases read
    | ok behind =>
        rw [ended] at read
        cases read
        rfl
  · split at read
    · exact readEnd_nesting read
    · cases read
    · exact readElement_nesting read

private theorem nesting_textEvent (opened : List Str) (raw : Str) :
    nesting opened (textEvent raw) = some opened := by
  unfold textEvent
  split
  · rfl
  · rfl

private theorem scan_nested (fuel : Nat) (opened : List Str) (text : Str) :
    (nesting opened (scan fuel opened text).events).isSome = true := by
  induction fuel generalizing opened text with
  | zero => rfl
  | succ fuel ih =>
      have before := nesting_textEvent opened (text.takeWhile (· ≠ '<'))
      simp only [scan]
      split
      · rw [before]
        rfl
      · split
        · rw [before]
          rfl
        · rename_i event inner rest read
          rw [nesting_append, before, Option.bind_some, ← List.singleton_append, nesting_append,
            readMarkup_nesting read]
          exact ih inner rest

theorem checksEnds : ChecksEnds quickXml where
  nested text := by
    simp only [quickXml, read]
    exact scan_nested _ _ _

end Library.Xml.Scanner
