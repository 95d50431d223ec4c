import Simulboot.Library.XmlDelivery

/-!
# Documents that are cut off

A text made of whole tokens, ended early: what a reader delivers of it, wherever
the end falls. Between two pieces of markup only the character data is shortened.
-/

set_option autoImplicit false

namespace Library.Xml

/-! ## Where the input ends -/

def Token.IsMarkup : Token → Prop
  | .text _ => False
  | _ => True

/-- The input may end where the `>` of an end tag or of a processing instruction is due. -/
def Token.MayLackEnd : Token → Prop
  | .close _ _ | .misc .processing _ => True
  | _ => False

/-- What stands behind some tokens is one more that lacks its `>`, which the end of the
input stands for. -/
def EndedByInput (tokens : List Token) (part : Str) (last : Token) : Prop :=
  last.WellFormed ∧ last.MayLackEnd ∧ (openAfter [] (tokens ++ [last])).isSome = true ∧
    part ++ ['>'] = last.render

/-- Some whole tokens, and then markup that has begun, but not ended and is not ended by
the input. A lone `<` has begun none. -/
def EndsInMarkup (text : Str) : Prop :=
  ∃ (tokens : List Token) (token : Token) (part : Str),
    text = render tokens ++ part ∧ (∀ token ∈ tokens, token.WellFormed) ∧ token.WellFormed ∧
      token.IsMarkup ∧ (openAfter [] (tokens ++ [token])).isSome = true ∧
      part <+: token.render ∧ part ≠ token.render ∧ part ≠ [] ∧ part ≠ ['<'] ∧
      ∀ last, ¬ EndedByInput tokens part last

/-- An ampersand with no semicolon behind it. -/
def Dangling (text : Str) : Prop :=
  ∃ before after, text = before ++ '&' :: after ∧ ';' ∉ after

theorem Dangling.behind {c : Char} {rest : Str} (dangling : Dangling (c :: rest))
    (plain : c ≠ '&') : Dangling rest := by
  obtain ⟨before, after, split, absent⟩ := dangling
  cases before with
  | nil => exact absurd (List.cons.inj split).1 plain
  | cons first more => exact ⟨more, after, (List.cons.inj split).2, absent⟩

theorem Dangling.behind_semicolon {front rest : Str} (dangling : Dangling (front ++ ';' :: rest)) :
    Dangling rest := by
  induction front with
  | nil => exact Dangling.behind dangling (by decide)
  | cons c more ih =>
      obtain ⟨before, after, split, absent⟩ := dangling
      cases before with
      | nil =>
          obtain ⟨_, same⟩ := List.cons.inj split
          exact absurd (same ▸ by simp) absent
      | cons first others => exact ih ⟨others, after, (List.cons.inj split).2, absent⟩

private theorem Dangling.within {front rest : Str} (dangling : Dangling rest) :
    Dangling (front ++ rest) := by
  obtain ⟨before, after, rfl, absent⟩ := dangling
  exact ⟨front ++ before, after, (List.append_assoc ..).symm, absent⟩

/-- Blank text around it does not matter. -/
theorem dangling_padded {before text after : Str} (front : Blank before) (back : Blank after) :
    Dangling (before ++ text ++ after) ↔ Dangling text := by
  have plain : ∀ blank : Str, Blank blank → '&' ∉ blank ∧ ';' ∉ blank := fun blank isBlank =>
    ⟨fun member => absurd (isBlank _ member) (by decide),
      fun member => absurd (isBlank _ member) (by decide)⟩
  constructor
  · intro dangling
    have inner : Dangling (text ++ after) := by
      rw [List.append_assoc] at dangling
      clear back
      induction before with
      | nil => exact dangling
      | cons c rest ih =>
          refine ih (fun c member => front c (.tail _ member)) (dangling.behind ?_)
          rintro rfl
          exact (plain _ front).1 (.head _)
    obtain ⟨early, late, split, absent⟩ := inner
    rcases List.append_eq_append_iff.mp split with ⟨more, rfl, tail⟩ | ⟨more, rfl, tail⟩
    · exact absurd (tail ▸ by simp) (plain _ back).1
    · cases more with
      | nil => exact absurd (List.nil_append after ▸ tail ▸ by simp) (plain _ back).1
      | cons c more =>
          obtain ⟨rfl, rfl⟩ := List.cons.inj tail
          exact ⟨early, more, rfl, fun member => absent (List.mem_append_left _ member)⟩
  · rintro ⟨early, late, rfl, absent⟩
    refine ⟨before ++ early, late ++ after, by simp, fun member => ?_⟩
    rcases List.mem_append.mp member with inside | behind
    · exact absent inside
    · exact (plain _ back).2 behind

/-- Escaped text that is cut off within no reference is shorter escaped text. -/
theorem units_cut {units : List TextUnit} {part : Str}
    (ended : part <+: units.flatMap TextUnit.written) (complete : ¬ Dangling part) :
    ∃ count, part = (units.take count).flatMap TextUnit.written := by
  induction units generalizing part with
  | nil => exact ⟨0, List.prefix_nil.mp ended⟩
  | cons unit rest ih =>
      rw [List.flatMap_cons] at ended
      rcases List.prefix_or_prefix_of_prefix ended (List.prefix_append _ _) with short | long
      · by_cases nothing : part = []
        · exact ⟨0, nothing⟩
        · by_cases whole : part = unit.written
          · exact ⟨1, by simp [whole]⟩
          · exfalso
            cases part with
            | nil => exact nothing rfl
            | cons c more =>
                cases unit with
                | literal d =>
                    obtain ⟨rfl, tail⟩ := List.cons_prefix_cons.mp short
                    rw [List.prefix_nil.mp tail] at whole
                    exact whole rfl
                | reference entity =>
                    have written : (TextUnit.reference entity).written =
                        '&' :: (entity.name ++ [';']) := by simp [TextUnit.written]
                    rw [written] at short whole
                    obtain ⟨rfl, tail⟩ := List.cons_prefix_cons.mp short
                    rcases List.prefix_concat_iff.mp tail with ended | inside
                    · exact whole (by rw [ended])
                    · exact complete ⟨[], more, rfl, fun member =>
                        entity.semicolon_not_mem_name (inside.subset member)⟩
      · obtain ⟨more, rfl⟩ := long
        rw [List.prefix_append_right_inj] at ended
        obtain ⟨count, rfl⟩ := ih ended fun dangling => complete dangling.within
        exact ⟨count + 1, by simp⟩

/-- A reference that has begun in the character data behind the last markup, and has not
ended. -/
def EndsInReference (text : Str) : Prop :=
  ∃ marks data, text = marks ++ data ∧ (marks = [] ∨ marks.getLast? = some '>') ∧
    '<' ∉ data ∧ '>' ∉ data ∧ Dangling data

/-- Where the last markup ends, only the character data behind it matters. -/
theorem endsInReference_iff {marks part : Str} (ended : marks = [] ∨ marks.getLast? = some '>')
    (unopened : '<' ∉ part) (plain : '>' ∉ part) :
    EndsInReference (marks ++ part) ↔ Dangling part := by
  constructor
  · rintro ⟨front, data, split, _, _, noBracket, dangling⟩
    rcases List.append_eq_append_iff.mp split with ⟨more, rfl, rfl⟩ | ⟨more, rfl, rfl⟩
    · exact dangling.within
    · cases more using List.reverseRecOn with
      | nil => exact dangling
      | append_singleton others c _ =>
          exfalso
          rcases ended with nothing | last
          · simp at nothing
          · rw [← List.append_assoc, List.getLast?_concat] at last
            obtain rfl := Option.some.inj last
            exact noBracket (by simp)
  · exact fun dangling => ⟨marks, part, rfl, ended, unopened, plain, dangling⟩

private theorem not_endsInReference {front back : Str} (unended : '>' ∉ back) :
    ¬ EndsInReference (front ++ '<' :: back) := by
  rintro ⟨marks, data, split, ended, unopened, _⟩
  rcases List.append_eq_append_iff.mp split with ⟨more, rfl, tail⟩ | ⟨more, rfl, rfl⟩
  · cases more with
    | nil => exact unopened ((List.nil_append data ▸ tail) ▸ List.mem_cons_self)
    | cons c others =>
        obtain ⟨rfl, rfl⟩ := List.cons.inj tail
        rcases ended with nothing | last
        · simp at nothing
        · rw [List.getLast?_append_of_ne_nil _ (by simp)] at last
          rcases List.mem_cons.mp (List.mem_of_getLast? last) with same | inside
          · exact absurd same (by decide)
          · exact unended (List.mem_append_left _ inside)
  · exact unopened (by simp)

/-! ## What a part of some markup is read as -/

def Token.event : Token → Event
  | .start tag => .start tag.event
  | .empty tag => .empty tag.event
  | .close name _ => .close name
  | .text _ | .misc _ _ => .other

theorem events_markup {token : Token} (markup : token.IsMarkup) {pending : Str}
    {rest : List Token} :
    events pending (token :: rest) = textEvent pending ++ token.event :: events [] rest := by
  cases token with
  | text raw => cases markup
  | _ => rfl

def Token.IsTag : Token → Prop
  | .text _ | .misc _ _ => False
  | _ => True

theorem Token.IsTag.isMarkup {token : Token} (tag : token.IsTag) : token.IsMarkup := by
  cases token with
  | text raw => cases tag
  | _ => trivial

theorem Token.IsMarkup.render_eq_cons {token : Token} (markup : token.IsMarkup) :
    ∃ rest, token.render = '<' :: rest := by
  cases token with
  | text raw => cases markup
  | misc kind body => cases kind <;> exact ⟨_, rfl⟩
  | _ => exact ⟨_, rfl⟩

/-- As much of a tag as has to be there for its event. -/
def Token.needed : Token → Str
  | .close name _ => '<' :: '/' :: name
  | token => token.render

theorem Token.needed_start (tag : Tag) : (Token.start tag).needed = (Token.start tag).render := rfl

theorem Token.needed_empty (tag : Tag) : (Token.empty tag).needed = (Token.empty tag).render := rfl

private theorem Token.needed_prefix (token : Token) : token.needed <+: token.render := by
  cases token with
  | close name after => exact ⟨after ++ ['>'], by simp [needed, render]⟩
  | _ => exact List.prefix_rfl

theorem openAfter_close {opened : List Str} {tokens : List Token} {name after : Str} :
    (openAfter opened (tokens ++ [.close name after])).isSome = true ↔
      ∃ outer, openAfter opened tokens = some (name :: outer) := by
  rw [openAfter_append]
  cases openAfter opened tokens with
  | none => simp
  | some inner =>
      cases inner with
      | nil => simp [openAfter]
      | cons innermost outer => by_cases same : innermost = name <;> simp [openAfter, same]

theorem Tag.render_eq_cons {tag : Tag} (wellFormed : tag.WellFormed) :
    ∃ c rest, tag.render = c :: rest ∧ isNameChar c = true := by
  obtain ⟨nonempty, chars⟩ := wellFormed.name
  cases name : tag.name with
  | nil => exact absurd name nonempty
  | cons c others => exact ⟨c, _, by simp only [render, name]; rfl, chars c (by simp [name])⟩

private theorem Token.IsTag.needed_eq_cons {token : Token} (tag : token.IsTag)
    (wellFormed : token.WellFormed) : ∃ c rest, token.needed = '<' :: c :: rest := by
  cases token with
  | text raw => cases tag
  | misc kind body => cases tag
  | close name after => exact ⟨_, _, rfl⟩
  | start tag =>
      obtain ⟨c, rest, head, _⟩ := Tag.render_eq_cons wellFormed
      exact ⟨c, rest ++ ['>'], by simp [needed, render, head]⟩
  | empty tag =>
      obtain ⟨c, rest, head, _⟩ := Tag.render_eq_cons wellFormed
      exact ⟨c, rest ++ ['/', '>'], by simp [needed, render, head]⟩

private theorem not_prefix_tag {tag : Tag} {mark : Char} {back tail : Str} (wellFormed : tag.WellFormed)
    (excluded : isNameChar mark = false) :
    ¬ '<' :: mark :: back <+: '<' :: tag.render ++ tail := by
  obtain ⟨c, others, head, nameChar⟩ := Tag.render_eq_cons wellFormed
  rw [head]
  intro within
  obtain ⟨_, inside⟩ := List.cons_prefix_cons.mp within
  obtain ⟨rfl, _⟩ := List.cons_prefix_cons.mp inside
  rw [nameChar] at excluded
  cases excluded

theorem Misc.openMark_eq_cons (kind : Misc) :
    ∃ mark rest, kind.openMark = '<' :: mark :: rest ∧ (mark = '!' ∨ mark = '?') := by
  cases kind with
  | processing => exact ⟨'?', _, rfl, .inr rfl⟩
  | _ => exact ⟨'!', _, rfl, .inl rfl⟩

private theorem not_prefix_misc {kind : Misc} {body back : Str} {second : Char} (bang : second ≠ '!')
    (query : second ≠ '?') : ¬ '<' :: second :: back <+: (Token.misc kind body).render := by
  obtain ⟨mark, rest, split, either⟩ := kind.openMark_eq_cons
  rw [Token.render, split]
  intro within
  obtain ⟨_, inside⟩ := List.cons_prefix_cons.mp within
  obtain ⟨rfl, _⟩ := List.cons_prefix_cons.mp inside
  exact either.elim bang query

namespace EndedByInput

variable {tokens : List Token} {part : Str} {last token : Token}

/-- It is all but the `>` of an end tag or of a processing instruction. -/
theorem cases (ended : EndedByInput tokens part last) :
    (∃ name after, last = .close name after ∧ part = '<' :: '/' :: (name ++ after) ∧
        IsName name ∧ Blank after ∧ ∃ outer, openAfter [] tokens = some (name :: outer)) ∨
      ∃ body, last = .misc .processing body ∧ part = '<' :: '?' :: (body ++ ['?']) ∧
        '>' ∉ body := by
  obtain ⟨wellFormed, lacks, opens, whole⟩ := ended
  cases last with
  | close name after =>
      have shape : part ++ ['>'] = ('<' :: '/' :: (name ++ after)) ++ ['>'] := by
        rw [whole]
        simp [Token.render]
      exact .inl ⟨name, after, rfl, List.append_cancel_right shape, wellFormed.1, wellFormed.2,
        openAfter_close.mp opens⟩
  | misc kind body =>
      cases kind with
      | processing =>
          have shape : part ++ ['>'] = ('<' :: '?' :: (body ++ ['?'])) ++ ['>'] := by
            rw [whole, List.cons_append, List.cons_append, List.append_assoc]
            rfl
          exact .inr ⟨body, rfl, List.append_cancel_right shape, wellFormed.2.2⟩
      | _ => cases lacks
  | _ => cases lacks

theorem isMarkup (ended : EndedByInput tokens part last) : last.IsMarkup := by
  rcases ended.cases with ⟨_, _, rfl, _⟩ | ⟨_, rfl, _⟩ <;> trivial

theorem begins (ended : EndedByInput tokens part last) :
    ∃ back, part = '<' :: back ∧ '>' ∉ back := by
  rcases ended.cases with ⟨name, after, rfl, rfl, isName, blank, _⟩ | ⟨body, rfl, rfl, plain⟩
  · refine ⟨_, rfl, fun member => ?_⟩
    rcases List.mem_cons.mp member with same | member
    · exact absurd same (by decide)
    · rcases List.mem_append.mp member with inName | inAfter
      · exact absurd (isName.2 _ inName) (by decide)
      · exact absurd (blank _ inAfter) (by decide)
  · exact ⟨_, rfl, by simp [plain]⟩

theorem recognised (ended : EndedByInput tokens part last) (wellFormed : token.WellFormed)
    (markup : token.IsMarkup) (opens : (openAfter [] (tokens ++ [token])).isSome = true)
    (within : part <+: token.render) :
    last.event = token.event ∧ (token.IsTag → token.needed <+: part) := by
  rcases ended.cases with ⟨name, after, rfl, rfl, _, _, outer, opened⟩ | ⟨body, rfl, rfl, _⟩
  · cases token with
    | text raw => cases markup
    | start tag => exact absurd within (not_prefix_tag wellFormed (by decide))
    | empty tag => exact absurd within (not_prefix_tag wellFormed (by decide))
    | misc kind body => exact absurd within (not_prefix_misc (by decide) (by decide))
    | close other rest =>
        obtain ⟨outer', opened'⟩ := openAfter_close.mp opens
        rw [opened] at opened'
        obtain ⟨rfl, _⟩ := List.cons.inj (Option.some.inj opened')
        exact ⟨rfl, fun _ => ⟨after, rfl⟩⟩
  · cases token with
    | text raw => cases markup
    | start tag => exact absurd within (not_prefix_tag wellFormed (by decide))
    | empty tag => exact absurd within (not_prefix_tag wellFormed (by decide))
    | misc kind body => exact ⟨rfl, fun tag => by cases tag⟩
    | close other rest => exact absurd within (by simp [Token.render])

end EndedByInput

/-- The documented behaviour of the reader and of `unescape` where the input is
incomplete. -/
structure DocumentedAtEnd (xml : QuickXml) : Prop where
  read_inside : ∀ text, EndsInMarkup text → text.head? ≠ some '\uFEFF' →
    ∃ e, (xml.read text).ending = .error e
  read_lone : ∀ tokens, (∀ token ∈ tokens, token.WellFormed) →
    (openAfter [] tokens).isSome = true → (render tokens).head? ≠ some '\uFEFF' →
    xml.read (render tokens ++ ['<']) = ⟨events [] tokens, .ok ()⟩
  read_ended : ∀ tokens part last, (∀ token ∈ tokens, token.WellFormed) →
    EndedByInput tokens part last → (render tokens ++ part).head? ≠ some '\uFEFF' →
    xml.read (render tokens ++ part) = ⟨events [] (tokens ++ [last]), .ok ()⟩
  unescape_dangling : ∀ raw, Dangling raw → ∃ e, xml.unescape raw = .error e

/-! ## Parts of documents -/

/-- A part of a document: the events it delivers, and the elements open before and
behind it. -/
def Writes (text : Str) (delivered : List Event) (before after : List Str) : Prop :=
  ∃ tokens, render tokens = text ∧ (∀ token ∈ tokens, token.WellFormed) ∧
    openAfter before tokens = some after ∧ Emits tokens delivered

namespace Writes

variable {left right text : Str} {first second delivered : List Event}
  {before between after : List Str}

theorem of_delivers (delivers : Delivers text delivered) (opened : List Str) :
    Writes text delivered opened opened := by
  obtain ⟨tokens, rendered, wellFormed, balanced, emits⟩ := delivers
  exact ⟨tokens, rendered, wellFormed, balanced opened, emits⟩

theorem append (writesLeft : Writes left first before between)
    (writesRight : Writes right second between after) :
    Writes (left ++ right) (first ++ second) before after := by
  obtain ⟨tokensLeft, renderLeft, wellFormedLeft, opensLeft, emitsLeft⟩ := writesLeft
  obtain ⟨tokensRight, renderRight, wellFormedRight, opensRight, emitsRight⟩ := writesRight
  refine ⟨tokensLeft ++ tokensRight, by rw [render_append, renderLeft, renderRight],
    List.forall_mem_append.mpr ⟨wellFormedLeft, wellFormedRight⟩, ?_, emitsLeft.append emitsRight⟩
  rw [openAfter_append, opensLeft]
  exact opensRight

private theorem token {token : Token} (wellFormed : token.WellFormed) (markup : token.IsMarkup)
    (opens : openAfter before [token] = some after) :
    Writes token.render [token.event] before after :=
  ⟨[token], List.append_nil _, by simpa using wellFormed, opens,
    .single fun _ _ => events_markup markup⟩

/-- What starts a document is read as far as it goes. -/
theorem read {xml : QuickXml} (documented : Documented xml)
    (writes : Writes text delivered [] after) (noMark : text.head? ≠ some '\uFEFF') :
    xml.read text = ⟨delivered, .ok ()⟩ := by
  obtain ⟨tokens, rfl, wellFormed, opens, emits⟩ := writes
  obtain ⟨same, left⟩ := emits.settled blank_nil
  rw [documented.read_render tokens wellFormed (by rw [opens]; rfl) noMark, events_eq_settled,
    same, textEvent_blank left, List.append_nil]

theorem startTag {name : Str} {attributes : List (Str × Str)}
    (wellFormed : (Tag.plain name attributes).WellFormed) (opened : List Str) :
    Writes ('<' :: (Tag.plain name attributes).render ++ ['>'])
      [.start (plainStart name attributes)] opened (name :: opened) := by
  have tag : (Token.start (Tag.plain name attributes)).WellFormed := wellFormed
  rw [← Tag.plain_event]
  exact token tag trivial rfl

theorem endTag {name : Str} (isName : IsName name) (outer : List Str) :
    Writes ("</".toList ++ name ++ ">".toList) [.close name] (name :: outer) outer := by
  have opens : openAfter (name :: outer) [.close name []] = some outer := by simp [openAfter]
  have wellFormed : (Token.close name []).WellFormed := ⟨isName, blank_nil⟩
  have whole := token wellFormed trivial opens
  simpa [Token.render, Token.event] using whole

end Writes

/-! ## Parts that are cut off -/

theorem prefix_render {tokens : List Token} {text : Str} (ended : text <+: render tokens) :
    (∃ whole rest, tokens = whole ++ rest ∧ text = render whole) ∨
      ∃ whole token rest part, tokens = whole ++ token :: rest ∧ text = render whole ++ part ∧
        part <+: token.render ∧ part ≠ [] ∧ part ≠ token.render := by
  induction tokens generalizing text with
  | nil => exact .inl ⟨[], [], rfl, List.prefix_nil.mp ended⟩
  | cons token rest ih =>
      rw [render_cons] at ended
      rcases List.prefix_or_prefix_of_prefix ended (List.prefix_append token.render (render rest))
        with short | long
      · by_cases nothing : text = []
        · exact .inl ⟨[], token :: rest, rfl, nothing⟩
        · by_cases whole : text = token.render
          · exact .inl ⟨[token], rest, rfl, by rw [whole]; simp⟩
          · exact .inr ⟨[], token, rest, text, rfl, rfl, short, nothing, whole⟩
      · obtain ⟨more, rfl⟩ := long
        rw [List.prefix_append_right_inj] at ended
        rcases ih ended with ⟨whole, others, rfl, rfl⟩ |
            ⟨whole, inner, others, part, rfl, rfl, within, nonempty, proper⟩
        · exact .inl ⟨token :: whole, others, rfl, rfl⟩
        · exact .inr ⟨token :: whole, inner, others, part, rfl, by simp, within, nonempty, proper⟩

private theorem lt_not_mem_pendingAfter {pending : Str} {tokens : List Token} (plain : '<' ∉ pending)
    (wellFormed : ∀ token ∈ tokens, token.WellFormed) : '<' ∉ pendingAfter pending tokens := by
  induction tokens generalizing pending with
  | nil => exact plain
  | cons token rest ih =>
      obtain ⟨own, others⟩ := List.forall_mem_cons.mp wellFormed
      cases token with
      | text raw => exact ih (fun member => (List.mem_append.mp member).elim plain own) others
      | _ => exact ih List.not_mem_nil others

/-- Tokens that are cut off leave whole ones, and then markup that has begun or
character data that is shortened. -/
theorem cut_tokens {tokens : List Token} {text : Str} {before after : List Str} (pending : Str)
    (wellFormed : ∀ token ∈ tokens, token.WellFormed)
    (opens : openAfter before tokens = some after) (ended : text <+: render tokens) :
    (∃ whole token rest part, tokens = whole ++ token :: rest ∧ text = render whole ++ part ∧
        (∀ token ∈ whole, token.WellFormed) ∧ token.WellFormed ∧ token.IsMarkup ∧
        (openAfter before (whole ++ [token])).isSome = true ∧
        part <+: token.render ∧ part ≠ [] ∧ part ≠ token.render) ∨
      ∃ whole node later, text = render whole ∧ (∀ token ∈ whole, token.WellFormed) ∧
        (openAfter before whole).isSome = true ∧
        events pending tokens = settled pending whole ++ textEvent node ++ later ∧
        pendingAfter pending whole <+: node := by
  rcases prefix_render ended with ⟨whole, rest, rfl, rfl⟩ |
      ⟨whole, token, rest, part, rfl, rfl, within, nonempty, proper⟩
  · rw [openAfter_append] at opens
    obtain ⟨middle, opensWhole, _⟩ := Option.bind_eq_some_iff.mp opens
    obtain ⟨more, later, split⟩ := events_split (pendingAfter pending whole) rest
    refine .inr ⟨whole, _, later, rfl, (List.forall_mem_append.mp wellFormed).1,
      Option.isSome_iff_exists.mpr ⟨middle, opensWhole⟩, ?_, List.prefix_append _ more⟩
    rw [events_append, split, List.append_assoc]
  · obtain ⟨wellFormedWhole, others⟩ := List.forall_mem_append.mp wellFormed
    obtain ⟨own, _⟩ := List.forall_mem_cons.mp others
    rw [List.append_cons, openAfter_append] at opens
    obtain ⟨inner, opened, _⟩ := Option.bind_eq_some_iff.mp opens
    have isOpen := Option.isSome_iff_exists.mpr ⟨inner, opened⟩
    cases token with
    | text raw =>
        obtain ⟨more, later, split⟩ := events_split (pendingAfter pending whole ++ raw) rest
        have plain : (Token.text part).WellFormed := fun member => own (within.subset member)
        rw [openAfter_append] at isOpen
        refine .inr ⟨whole ++ [.text part], pendingAfter pending whole ++ raw ++ more, later,
          by simp [Token.render],
          List.forall_mem_append.mpr ⟨wellFormedWhole, by simpa using plain⟩, ?_, ?_, ?_⟩
        · rw [openAfter_append]
          exact isOpen
        · rw [settled_append, events_append, events, split, settled, settled]
          simp only [List.append_assoc, List.append_nil]
        · rw [pendingAfter_append, pendingAfter, pendingAfter, List.append_assoc,
            List.prefix_append_right_inj]
          exact within.trans (List.prefix_append raw more)
    | _ =>
        exact .inl ⟨whole, _, rest, part, rfl, rfl, wellFormedWhole, own, trivial, isOpen, within,
          nonempty, proper⟩

/-- What a reader makes of a part of some markup: an error, nothing of a lone `<`, and
the whole of what the input ends. -/
theorem DocumentedAtEnd.read_part {xml : QuickXml} (atEnd : DocumentedAtEnd xml)
    {tokens : List Token} {token : Token} {part : Str}
    (wellFormed : ∀ token ∈ tokens, token.WellFormed) (own : token.WellFormed)
    (markup : token.IsMarkup) (opens : (openAfter [] (tokens ++ [token])).isSome = true)
    (within : part <+: token.render) (nonempty : part ≠ []) (proper : part ≠ token.render)
    (noMark : (render tokens ++ part).head? ≠ some '\uFEFF') :
    EndsInMarkup (render tokens ++ part) ∨
      ¬ EndsInReference (render tokens ++ part) ∧
        ((part = ['<'] ∧ xml.read (render tokens ++ part) = ⟨events [] tokens, .ok ()⟩) ∨
          ((token.IsTag → token.needed <+: part) ∧ xml.read (render tokens ++ part) =
            ⟨settled [] tokens ++ textEvent (pendingAfter [] tokens) ++ [token.event], .ok ()⟩)) := by
  by_cases lone : part = ['<']
  · subst lone
    refine .inr ⟨not_endsInReference List.not_mem_nil, .inl ⟨rfl, ?_⟩⟩
    obtain ⟨inner, opened⟩ := openAfter_front opens
    refine atEnd.read_lone tokens wellFormed (Option.isSome_iff_exists.mpr ⟨inner, opened⟩) ?_
    cases rendered : render tokens with
    | nil => simp
    | cons c rest =>
        rw [rendered] at noMark
        exact noMark
  · by_cases inside : ∀ last, ¬ EndedByInput tokens part last
    · exact .inl ⟨tokens, token, part, rfl, wellFormed, own, markup, opens, within, proper, nonempty,
        lone, inside⟩
    · obtain ⟨last, ended⟩ := not_forall_not.mp inside
      obtain ⟨back, split, plain⟩ := ended.begins
      obtain ⟨same, enough⟩ := ended.recognised own markup opens within
      refine .inr ⟨split ▸ not_endsInReference plain, .inr ⟨enough, ?_⟩⟩
      rw [atEnd.read_ended tokens part last wellFormed ended noMark, events_append,
        events_markup ended.isMarkup, same, List.append_assoc]
      rfl

/-- The reader delivers some events and then others that are cut off, perhaps within
character data. -/
def CutAt (xml : QuickXml) (text : Str) (first delivered : List Event) : Prop :=
  ∃ done node part later, delivered = done ++ textEvent node ++ later ∧ part <+: node ∧
    xml.read text = ⟨first ++ (done ++ textEvent part), .ok ()⟩ ∧
    ((part = node ∧ ¬ EndsInReference text) ∨
      ∃ marks, text = marks ++ part ∧ (marks = [] ∨ marks.getLast? = some '>') ∧ '<' ∉ part)

theorem CutAt.between {xml : QuickXml} {text : Str} {first done later : List Event}
    (read : xml.read text = ⟨first ++ done, .ok ()⟩) (noReference : ¬ EndsInReference text) :
    CutAt xml text first (done ++ later) :=
  ⟨done, [], [], later, by rw [textEvent_blank blank_nil, List.append_nil], List.prefix_rfl,
    by rw [read, textEvent_blank blank_nil, List.append_nil], .inl ⟨rfl, noReference⟩⟩

namespace Writes

variable {xml : QuickXml} {front text ended : Str} {first delivered : List Event}
  {before between after : List Str}

/-- Cut off within one of its parts, a document ends inside markup, or what is
delivered of the part is cut off. -/
theorem cut (documented : Documented xml) (atEnd : DocumentedAtEnd xml)
    (writesFront : Writes front first [] before) (writes : Writes text delivered before after)
    (isPrefix : ended <+: text) (noMark : (front ++ ended).head? ≠ some '\uFEFF') :
    EndsInMarkup (front ++ ended) ∨ CutAt xml (front ++ ended) first delivered := by
  obtain ⟨tokensFront, rfl, wellFormedFront, opensFront, emitsFront⟩ := writesFront
  obtain ⟨tokens, rfl, wellFormed, opens, emits⟩ := writes
  obtain ⟨settledFront, blank⟩ := emitsFront.settled blank_nil
  obtain ⟨same, left⟩ := emits.settled blank
  have whole : events (pendingAfter [] tokensFront) tokens = delivered := by
    rw [events_eq_settled, same, textEvent_blank left, List.append_nil]
  have opensBoth : ∀ more, (openAfter before more).isSome = true →
      (openAfter [] (tokensFront ++ more)).isSome = true := by
    intro more opened
    rw [openAfter_append, opensFront]
    exact opened
  rcases cut_tokens (pendingAfter [] tokensFront) wellFormed opens isPrefix with
    ⟨done, token, rest, part, rfl, rfl, wellFormedDone, own, markup, opened, within, nonempty,
      proper⟩ | ⟨done, node, later, rfl, wellFormedDone, opened, split, shortened⟩
  · have opened := opensBoth _ opened
    rw [← List.append_assoc] at opened
    rw [← List.append_assoc, ← render_append] at noMark ⊢
    rw [events_append, events_markup markup] at whole
    refine (atEnd.read_part (List.forall_mem_append.mpr ⟨wellFormedFront, wellFormedDone⟩) own
      markup opened within nonempty proper noMark).imp_right ?_
    rw [settled_append, pendingAfter_append, settledFront, events_append, settledFront,
      events_eq_settled]
    rintro ⟨noReference, ⟨_, read⟩ | ⟨_, read⟩⟩
    · rw [← whole, ← List.append_assoc]
      exact .between read noReference
    · rw [← whole, List.append_cons, ← List.append_assoc, ← List.append_assoc]
      refine .between ?_ noReference
      rw [read]
      simp only [List.append_assoc]
  · obtain ⟨marks, marked, last⟩ := render_pendingAfter [] (tokensFront ++ done)
    have unopened := @lt_not_mem_pendingAfter [] _ List.not_mem_nil
      (List.forall_mem_append.mpr ⟨wellFormedFront, wellFormedDone⟩)
    rw [List.nil_append, render_append, pendingAfter_append] at marked
    rw [pendingAfter_append] at unopened
    refine .inr ⟨settled (pendingAfter [] tokensFront) done, node, _, later, whole ▸ split,
      shortened, ?_, .inr ⟨marks, marked, last, unopened⟩⟩
    rw [← render_append] at noMark ⊢
    rw [documented.read_render _ (List.forall_mem_append.mpr ⟨wellFormedFront, wellFormedDone⟩)
      (opensBoth _ opened) noMark, events_append, settledFront, events_eq_settled]

/-- A document cut off anywhere ends inside markup, before some tag of it can be told, or
behind that. -/
theorem cut_around (documented : Documented xml) (atEnd : DocumentedAtEnd xml) {back : Str}
    {behind : List Event} {token : Token} (writesFront : Writes front first [] before)
    (wellFormed : token.WellFormed) (tag : token.IsTag)
    (opens : openAfter before [token] = some between)
    (writesBack : Writes back behind between after)
    (isPrefix : ended <+: front ++ token.render ++ back) (noMark : ended.head? ≠ some '\uFEFF') :
    EndsInMarkup ended ∨
      (¬ front ++ token.needed <+: ended ∧ CutAt xml ended [] first) ∨
      (front ++ token.needed <+: ended ∧ CutAt xml ended (first ++ [token.event]) behind) := by
  obtain ⟨c, others, begins⟩ := tag.needed_eq_cons wellFormed
  by_cases reached : front ++ token.render <+: ended
  · obtain ⟨more, rfl⟩ := reached
    rw [List.prefix_append_right_inj] at isPrefix
    have enough : front ++ token.needed <+: front ++ token.render ++ more :=
      ((List.prefix_append_right_inj front).mpr token.needed_prefix).trans (List.prefix_append _ _)
    exact ((writesFront.append (.token wellFormed tag.isMarkup opens)).cut documented atEnd
      writesBack isPrefix noMark).imp_right fun rest => .inr ⟨enough, rest⟩
  · have short : ended <+: front ++ token.render :=
      (List.prefix_or_prefix_of_prefix isPrefix (List.prefix_append _ _)).resolve_right reached
    by_cases early : ended <+: front
    · have nothing : Writes [] [] [] [] := .of_delivers .nil []
      refine (nothing.cut documented atEnd writesFront early noMark).imp_right fun rest =>
        .inl ⟨fun enough => ?_, rest⟩
      have lengths := (enough.trans early).length_le
      rw [begins, List.length_append, List.length_cons] at lengths
      omega
    · obtain ⟨part, rfl⟩ :=
        (List.prefix_or_prefix_of_prefix short (List.prefix_append _ _)).resolve_left early
      rw [List.prefix_append_right_inj] at short
      obtain ⟨tokens, rfl, wellFormedFront, opensFront, emits⟩ := writesFront
      obtain ⟨same, blank⟩ := emits.settled blank_nil
      have opened : (openAfter [] (tokens ++ [token])).isSome = true := by
        rw [openAfter_append, opensFront]
        exact Option.isSome_iff_exists.mpr ⟨between, opens⟩
      have nonempty : part ≠ [] := fun nothing =>
        early ((nothing ▸ List.append_nil _) ▸ List.prefix_rfl)
      have proper : part ≠ token.render := fun whole => reached (whole ▸ List.prefix_rfl)
      refine (atEnd.read_part wellFormedFront wellFormed tag.isMarkup opened short nonempty proper
        noMark).imp_right ?_
      rw [List.prefix_append_right_inj, events_eq_settled, same, textEvent_blank blank,
        List.append_nil]
      rintro ⟨noReference, ⟨rfl, read⟩ | ⟨enough, read⟩⟩
      · refine .inl ⟨fun enough => ?_, ?_⟩
        · have lengths := enough.length_le
          rw [begins, List.length_cons, List.length_cons, List.length_singleton] at lengths
          omega
        · rw [← List.append_nil first]
          exact .between (by rw [read]; rfl) noReference
      · refine .inr ⟨enough tag, ?_⟩
        exact @CutAt.between _ _ _ [] _ (by rw [read, List.append_nil]) noReference

end Writes

end Library.Xml
