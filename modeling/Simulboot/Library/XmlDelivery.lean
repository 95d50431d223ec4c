import Simulboot.Library.Xml

/-!
# What written markup delivers

A writer that puts out whole elements, with blank text between them, is read
back element by element. The relation below joins a written text to the events
it delivers and composes the way the writer does.
-/

set_option autoImplicit false

namespace Library.Xml

/-- All elements opened by some tokens are closed by them. -/
def Balanced (tokens : List Token) : Prop :=
  ∀ opened, openAfter opened tokens = some opened

/-- Tokens that deliver the same events whatever blank text stands before them,
and leave no more than blank text pending. -/
def Emits (tokens : List Token) (delivered : List Event) : Prop :=
  ∀ pending rest, Blank pending →
    ∃ left, Blank left ∧ events pending (tokens ++ rest) = delivered ++ events left rest

/-- A text made of whole elements, and the events read from it. -/
def Delivers (text : Str) (delivered : List Event) : Prop :=
  ∃ tokens, render tokens = text ∧ (∀ token ∈ tokens, token.WellFormed) ∧ Balanced tokens ∧
    Emits tokens delivered

theorem Balanced.append {left right : List Token} (balancedLeft : Balanced left)
    (balancedRight : Balanced right) : Balanced (left ++ right) := by
  intro opened
  rw [openAfter_append, balancedLeft opened]
  exact balancedRight opened

theorem Emits.append {left right : List Token} {first second : List Event}
    (emitsLeft : Emits left first) (emitsRight : Emits right second) :
    Emits (left ++ right) (first ++ second) := by
  intro pending rest blank
  obtain ⟨between, blankBetween, firstEvents⟩ := emitsLeft pending (right ++ rest) blank
  obtain ⟨remaining, blankRemaining, secondEvents⟩ := emitsRight between rest blankBetween
  refine ⟨remaining, blankRemaining, ?_⟩
  rw [List.append_assoc, firstEvents, secondEvents, List.append_assoc]

theorem Emits.single {token : Token} {event : Event}
    (delivered : ∀ pending rest, events pending (token :: rest) =
      textEvent pending ++ event :: events [] rest) : Emits [token] [event] := by
  intro pending rest blank
  refine ⟨[], blank_nil, ?_⟩
  simp [delivered, textEvent_blank blank]

/-! ## Events that are settled -/

/-- The character data pending behind some tokens. -/
def pendingAfter : Str → List Token → Str
  | pending, [] => pending
  | pending, .text raw :: rest => pendingAfter (pending ++ raw) rest
  | _, _ :: rest => pendingAfter [] rest

/-- The events of some tokens that do not depend on what follows. -/
def settled : Str → List Token → List Event
  | _, [] => []
  | pending, .text raw :: rest => settled (pending ++ raw) rest
  | pending, .start tag :: rest => textEvent pending ++ .start tag.event :: settled [] rest
  | pending, .empty tag :: rest => textEvent pending ++ .empty tag.event :: settled [] rest
  | pending, .close name _ :: rest => textEvent pending ++ .close name :: settled [] rest
  | pending, .misc _ _ :: rest => textEvent pending ++ .other :: settled [] rest

theorem events_append (pending : Str) (first rest : List Token) :
    events pending (first ++ rest) =
      settled pending first ++ events (pendingAfter pending first) rest := by
  induction first generalizing pending with
  | nil => rfl
  | cons token more ih =>
      cases token <;>
        simp only [List.cons_append, events, settled, pendingAfter, ih, List.append_assoc]

theorem pendingAfter_append (pending : Str) (first rest : List Token) :
    pendingAfter pending (first ++ rest) = pendingAfter (pendingAfter pending first) rest := by
  induction first generalizing pending with
  | nil => rfl
  | cons token more ih => cases token <;> exact ih _

theorem settled_append (pending : Str) (first rest : List Token) :
    settled pending (first ++ rest) =
      settled pending first ++ settled (pendingAfter pending first) rest := by
  induction first generalizing pending with
  | nil => rfl
  | cons token more ih =>
      cases token <;>
        simp only [List.cons_append, settled, pendingAfter, ih, List.append_assoc]

theorem events_eq_settled (pending : Str) (tokens : List Token) :
    events pending tokens =
      settled pending tokens ++ textEvent (pendingAfter pending tokens) := by
  have whole := events_append pending tokens []
  rwa [List.append_nil] at whole

/-- The first markup ends the text that is pending. -/
theorem events_split (pending : Str) (tokens : List Token) :
    ∃ more later, events pending tokens = textEvent (pending ++ more) ++ later := by
  induction tokens generalizing pending with
  | nil => exact ⟨[], [], by simp [events]⟩
  | cons token rest ih =>
      cases token with
      | text raw =>
          obtain ⟨more, later, split⟩ := ih (pending ++ raw)
          exact ⟨raw ++ more, later, by rw [events, split, List.append_assoc]⟩
      | start tag => exact ⟨[], .start tag.event :: events [] rest, by rw [List.append_nil]; rfl⟩
      | empty tag => exact ⟨[], .empty tag.event :: events [] rest, by rw [List.append_nil]; rfl⟩
      | close name _ => exact ⟨[], .close name :: events [] rest, by rw [List.append_nil]; rfl⟩
      | misc _ _ => exact ⟨[], .other :: events [] rest, by rw [List.append_nil]; rfl⟩

/-- What is pending follows the last markup. -/
theorem render_pendingAfter (pending : Str) (tokens : List Token) :
    ∃ marks, pending ++ render tokens = marks ++ pendingAfter pending tokens ∧
      (marks = [] ∨ marks.getLast? = some '>') := by
  induction tokens generalizing pending with
  | nil => exact ⟨[], by simp [pendingAfter], .inl rfl⟩
  | cons token rest ih =>
      have markup : (∃ front, token.render = front ++ ['>']) →
          pendingAfter pending (token :: rest) = pendingAfter [] rest →
          ∃ marks, pending ++ render (token :: rest) =
              marks ++ pendingAfter pending (token :: rest) ∧
            (marks = [] ∨ marks.getLast? = some '>') := by
        rintro ⟨front, ends⟩ resets
        obtain ⟨marks, split, last⟩ := ih []
        rw [List.nil_append] at split
        refine ⟨pending ++ token.render ++ marks, ?_, .inr ?_⟩
        · rw [render_cons, split, resets]
          simp only [List.append_assoc]
        · rw [ends]
          rcases last with rfl | last
          · simp
          · rw [List.getLast?_append, last]
            rfl
      cases token with
      | text raw =>
          obtain ⟨marks, split, last⟩ := ih (pending ++ raw)
          exact ⟨marks, by rw [render_cons, ← List.append_assoc]; exact split, last⟩
      | start tag => exact markup ⟨'<' :: tag.render, rfl⟩ rfl
      | empty tag => exact markup ⟨'<' :: tag.render ++ ['/'], by simp [Token.render]⟩ rfl
      | close name after => exact markup ⟨'<' :: '/' :: name ++ after, rfl⟩ rfl
      | misc kind body =>
          refine markup ⟨kind.openMark ++ body ++ kind.closeMark.dropLast, ?_⟩ rfl
          cases kind <;> simp [Token.render, Misc.closeMark]

/-- Where blank text changes nothing, all that is delivered is settled: a letter
that follows would show what is still pending. -/
theorem Emits.settled {tokens : List Token} {delivered : List Event}
    (emits : Emits tokens delivered) {pending : Str} (blank : Blank pending) :
    settled pending tokens = delivered ∧ Blank (pendingAfter pending tokens) := by
  have notSpace : isSpace 'x' = false := by decide
  have letter : ∀ raw : Str, textEvent (raw ++ ['x']) = [.text (trim (raw ++ ['x']))] := by
    intro raw
    refine if_neg fun nothing => ?_
    have space := trim_eq_nil_iff.mp nothing 'x' (by simp)
    rw [notSpace] at space
    cases space
  obtain ⟨left, blankLeft, whole⟩ := emits pending [.text ['x']] blank
  rw [events_append] at whole
  change _ ++ textEvent _ = _ ++ textEvent _ at whole
  rw [letter, letter] at whole
  obtain ⟨same, last⟩ := List.append_inj' whole rfl
  have alone : trim (pendingAfter pending tokens ++ ['x']) = ['x'] := by
    have padded : trimMatches isSpace (left ++ ['x'] ++ []) = trimMatches isSpace ['x'] :=
      trimMatches_pad blankLeft blank_nil
    rw [List.append_nil] at padded
    rw [Event.text.inj (List.singleton_inj.mp last)]
    exact padded.trans (by decide)
  refine ⟨same, ?_⟩
  obtain ⟨before, after, split, front, back⟩ := trimMatches_split isSpace
    (pendingAfter pending tokens ++ ['x'])
  change _ = before ++ trim _ ++ after at split
  rw [alone] at split
  cases after using List.reverseRecOn with
  | nil =>
      rw [List.append_nil] at split
      rw [List.append_cancel_right split]
      exact front
  | append_singleton others c _ =>
      rw [← List.append_assoc] at split
      have final := (List.append_inj' split rfl).2
      have space := back c (by simp)
      rw [← List.singleton_inj.mp final, notSpace] at space
      cases space

/-! ## Whole elements -/

namespace Delivers

theorem nil : Delivers [] [] :=
  ⟨[], rfl, by simp, fun _ => rfl, fun pending _ blank => ⟨pending, blank, rfl⟩⟩

theorem append {left right : Str} {first second : List Event} (deliversLeft : Delivers left first)
    (deliversRight : Delivers right second) : Delivers (left ++ right) (first ++ second) := by
  obtain ⟨tokensLeft, renderLeft, wellFormedLeft, balancedLeft, emitsLeft⟩ := deliversLeft
  obtain ⟨tokensRight, renderRight, wellFormedRight, balancedRight, emitsRight⟩ := deliversRight
  refine ⟨tokensLeft ++ tokensRight, by rw [render_append, renderLeft, renderRight], ?_,
    balancedLeft.append balancedRight, emitsLeft.append emitsRight⟩
  intro token member
  rcases List.mem_append.mp member with before | after
  · exact wellFormedLeft token before
  · exact wellFormedRight token after

theorem blank {text : Str} (isBlank : Blank text) : Delivers text [] := by
  refine ⟨[.text text], by simp [Token.render], ?_, fun opened => rfl, ?_⟩
  · intro token member
    obtain rfl : token = .text text := by simpa using member
    intro lt
    exact absurd (isBlank '<' lt) (by decide)
  · intro pending rest blankPending
    exact ⟨pending ++ text, blankPending.append isBlank, rfl⟩

/-- Blank text on both sides delivers nothing. -/
theorem padded {before text after : Str} {delivered : List Event} (front : Blank before)
    (delivers : Delivers text delivered) (back : Blank after) :
    Delivers (before ++ text ++ after) delivered := by
  simpa using (blank front).append (delivers.append (blank back))

theorem emptyTag {tag : Tag} (wellFormed : tag.WellFormed) :
    Delivers ('<' :: tag.render ++ "/>".toList) [.empty tag.event] := by
  refine ⟨[.empty tag], by simp [Token.render], ?_, fun opened => rfl, .single fun _ _ => rfl⟩
  intro token member
  obtain rfl : token = .empty tag := by simpa using member
  exact wellFormed

theorem misc {kind : Misc} {body : Str}
    (closed : findWindow kind.closeMark (body ++ kind.closeMark) = some body.length)
    (admitted : kind.Admits body) :
    Delivers (kind.openMark ++ body ++ kind.closeMark) [.other] := by
  refine ⟨[.misc kind body], by simp [Token.render], ?_, fun opened => rfl, .single fun _ _ => rfl⟩
  intro token member
  obtain rfl : token = .misc kind body := by simpa using member
  exact ⟨closed, admitted⟩

theorem element {tag : Tag} {content : Str} {delivered : List Event} (wellFormed : tag.WellFormed)
    (inner : Delivers content delivered) :
    Delivers ('<' :: tag.render ++ ">".toList ++ content ++ ("</".toList ++ tag.name ++ ">".toList))
      (.start tag.event :: delivered ++ [.close tag.name]) := by
  obtain ⟨tokens, rendered, wellFormedTokens, balanced, emits⟩ := inner
  refine ⟨.start tag :: tokens ++ [.close tag.name []], ?_, ?_, ?_, ?_⟩
  · simp [Token.render, rendered]
  · intro token member
    simp only [List.cons_append, List.mem_cons, List.mem_append, List.not_mem_nil, or_false]
      at member
    rcases member with rfl | inside | rfl
    · exact wellFormed
    · exact wellFormedTokens token inside
    · exact ⟨wellFormed.name, blank_nil⟩
  · intro opened
    rw [List.cons_append, openAfter, openAfter_append, balanced]
    simp [openAfter]
  · have opening : Emits [.start tag] [.start tag.event] := .single fun _ _ => rfl
    have closing : Emits [.close tag.name []] [.close tag.name] := .single fun _ _ => rfl
    exact (opening.append emits).append closing

theorem textElement {tag : Tag} {raw : Str} (wellFormed : tag.WellFormed) (plain : '<' ∉ raw) :
    Delivers ('<' :: tag.render ++ ">".toList ++ raw ++ ("</".toList ++ tag.name ++ ">".toList))
      (.start tag.event :: textEvent raw ++ [.close tag.name]) := by
  refine ⟨[.start tag, .text raw, .close tag.name []], by simp [Token.render], ?_, ?_, ?_⟩
  · intro token member
    simp only [List.mem_cons, List.not_mem_nil, or_false] at member
    rcases member with rfl | rfl | rfl
    · exact wellFormed
    · exact plain
    · exact ⟨wellFormed.name, blank_nil⟩
  · intro opened
    simp [openAfter]
  · intro pending rest blankPending
    refine ⟨[], blank_nil, ?_⟩
    simp [events, textEvent_blank blankPending]

theorem flatMap {α : Type} {print : α → Str} {delivered : α → List Event}
    (delivers : ∀ item, Delivers (print item) (delivered item)) (items : List α) :
    Delivers (items.flatMap print) (items.flatMap delivered) := by
  induction items with
  | nil => exact nil
  | cons item rest ih => exact (delivers item).append ih

/-- A reader that behaves as documented delivers these events and then ends. -/
theorem read {xml : QuickXml} (documented : Documented xml) {text : Str} {delivered : List Event}
    (delivers : Delivers text delivered) (noMark : text.head? ≠ some '\uFEFF') :
    xml.read text = ⟨delivered, .ok ()⟩ := by
  obtain ⟨tokens, rfl, wellFormed, balanced, emits⟩ := delivers
  rw [documented.read_render tokens wellFormed (by rw [balanced]; rfl) noMark]
  obtain ⟨left, blankLeft, emitted⟩ := emits [] [] blank_nil
  rw [List.append_nil] at emitted
  rw [emitted, events, textEvent_blank blankLeft, List.append_nil]

end Delivers

/-! ## Plain tags -/

theorem Tag.plain_wellFormed {name : Str} {attributes : List (Str × Str)} (isName : IsName name)
    (keys : ∀ pair ∈ attributes, IsName pair.1)
    (distinct : (attributes.map Prod.fst).Nodup)
    (values : ∀ pair ∈ attributes, '"' ∉ pair.2 ∧ '<' ∉ pair.2) :
    (Tag.plain name attributes).WellFormed := by
  refine ⟨isName, ?_, ?_, blank_nil⟩
  · intro source member
    obtain ⟨pair, inside, rfl⟩ := List.mem_map.mp member
    exact ⟨⟨by simp [AttributeSource.plain], by simp [AttributeSource.plain, Blank, isSpace]⟩,
      keys pair inside, ⟨blank_nil, blank_nil⟩, values pair inside⟩
  · have same : (Tag.plain name attributes).attributes.map AttributeSource.key =
        attributes.map Prod.fst := by
      simp [Tag.plain, AttributeSource.plain, Function.comp_def]
    rw [same]
    exact distinct

def plainStart (name : Str) (attributes : List (Str × Str)) : BytesStart :=
  { name, attributes := attributes.map fun pair => .ok ⟨pair.1, pair.2⟩ }

theorem Tag.plain_event (name : Str) (attributes : List (Str × Str)) :
    (Tag.plain name attributes).event = plainStart name attributes := by
  simp [Tag.event, Tag.plain, plainStart, AttributeSource.plain, Function.comp_def]

/-! ## Names of events -/

/-- Every element among some events has a name of some kind. -/
def AllNamed (kind : Str → Prop) (events : List Event) : Prop :=
  ∀ event ∈ events, event.Named kind

namespace AllNamed

variable {kind : Str → Prop} {name : Str} {attributes : List (Str × Str)}

theorem nil : AllNamed kind [] := by
  simp [AllNamed]

theorem append {first second : List Event} (namedFirst : AllNamed kind first)
    (namedSecond : AllNamed kind second) : AllNamed kind (first ++ second) :=
  List.forall_mem_append.mpr ⟨namedFirst, namedSecond⟩

theorem flatMap {α : Type} {stretch : α → List Event} (each : ∀ item, AllNamed kind (stretch item))
    (items : List α) : AllNamed kind (items.flatMap stretch) := by
  intro event member
  obtain ⟨item, _, inside⟩ := List.mem_flatMap.mp member
  exact each item event inside

theorem emptyTag (named : kind name) : AllNamed kind [.empty (plainStart name attributes)] :=
  List.forall_mem_singleton.mpr named

theorem element {inner : List Event} (named : kind name) (children : AllNamed kind inner) :
    AllNamed kind (.start (plainStart name attributes) :: inner ++ [.close name]) :=
  append (List.forall_mem_cons.mpr ⟨named, children⟩) (List.forall_mem_singleton.mpr named)

theorem text (raw : Str) : AllNamed kind (textEvent raw) := by
  intro event member
  unfold textEvent at member
  split at member
  · simp at member
  · obtain rfl := List.mem_singleton.mp member
    trivial

end AllNamed

namespace Delivers

variable {name content : Str} {attributes : List (Str × Str)}

/-- Some text between an opening and a closing tag that are written plainly. -/
theorem enclosed (opening closing : Str) {delivered : List Event}
    (wellFormed : (Tag.plain name attributes).WellFormed)
    (opens : opening = '<' :: (Tag.plain name attributes).render ++ ">".toList)
    (closes : closing = "</".toList ++ name ++ ">".toList) (inner : Delivers content delivered) :
    Delivers (opening ++ content ++ closing)
      (.start (plainStart name attributes) :: delivered ++ [.close name]) := by
  rw [opens, closes, ← Tag.plain_event]
  exact element wellFormed inner

theorem enclosedText (opening closing : Str) (wellFormed : (Tag.plain name attributes).WellFormed)
    (opens : opening = '<' :: (Tag.plain name attributes).render ++ ">".toList)
    (closes : closing = "</".toList ++ name ++ ">".toList) (plain : '<' ∉ content) :
    Delivers (opening ++ content ++ closing)
      (.start (plainStart name attributes) :: textEvent content ++ [.close name]) := by
  rw [opens, closes, ← Tag.plain_event]
  exact textElement wellFormed plain

theorem plainEmpty {text : Str} (wellFormed : (Tag.plain name attributes).WellFormed)
    (written : text = '<' :: (Tag.plain name attributes).render ++ "/>".toList) :
    Delivers text [.empty (plainStart name attributes)] := by
  rw [written, ← Tag.plain_event]
  exact emptyTag wellFormed

end Delivers

end Library.Xml
