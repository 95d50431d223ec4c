import Simulboot.Session.Schema
import Simulboot.Session.RoundTrip

/-!
# The namespace split in the parser

The parser takes an element by its local name, whatever its namespace. So a block
of the coefficients namespace is ignored just where it keeps clear of the names
that the base uses.
-/

set_option autoImplicit false

namespace Simulboot

open Library Library.Xml

/-! ## Behind the layout no text is collected -/

/-- Some codec has ended, and no text element has begun since. -/
def Settled (tokens : List Token) : Prop :=
  ∃ (before : List Token) (name after : Str) (rest : List Token),
    tokens = before ++ .close name after :: rest ∧ Element.ofName (localName name) = .codec ∧
      ∀ token ∈ rest, token.Named ParseState.PlainName

namespace Settled

private theorem behind {tokens : List Token} (settled : Settled tokens) (front : List Token) :
    Settled (front ++ tokens) := by
  obtain ⟨before, name, after, rest, rfl, codec, plain⟩ := settled
  exact ⟨front ++ before, name, after, rest, (List.append_assoc ..).symm, codec, plain⟩

private theorem extended {tokens more : List Token} (settled : Settled tokens)
    (plainMore : ∀ token ∈ more, token.Named ParseState.PlainName) : Settled (tokens ++ more) := by
  obtain ⟨before, name, after, rest, rfl, codec, plain⟩ := settled
  refine ⟨before, name, after, rest ++ more, by simp, codec, ?_⟩
  exact List.forall_mem_append.mpr ⟨plain, plainMore⟩

private theorem not_nil : ¬ Settled [] := by
  rintro ⟨before, name, after, rest, empty, _⟩
  simp at empty

end Settled

private theorem padding_named {kind : Str → Prop} {tokens : List Token} (pads : Padding tokens) :
    ∀ token ∈ tokens, token.Named kind := by
  intro token member
  cases pads token member <;> trivial

variable {xml : QuickXml}

private theorem BaseElement.plainName {scope : Scope} {tag : Tag} {name : Str} {required : List Str}
    (named : NamedTag sessionNamespace name required scope tag)
    (plain : (Element.ofName name).isText = false) : ParseState.PlainName tag.name := by
  unfold ParseState.PlainName
  rw [localName_of_qualified named.1]
  exact plain

private theorem BaseElement.settled {name : Str} {required : List Str}
    {content : Scope → List Token → Prop} {scope : Scope} {tokens : List Token}
    (element : BaseElement xml name required content scope tokens)
    (plain : (Element.ofName name).isText = false)
    (inside : ∀ scope inner, content scope inner → Settled inner) : Settled tokens := by
  cases element with
  | empty _ _ nothing => exact absurd (inside _ _ nothing) Settled.not_nil
  | @enclosing tag _ after _ named inner _ =>
      have closing : ∀ token ∈ [Token.close tag.name after], token.Named ParseState.PlainName :=
        List.forall_mem_singleton.mpr (BaseElement.plainName named plain)
      exact ((inside _ _ inner).extended closing).behind [_]

private theorem BaseElement.named {name : Str} {required : List Str} {content : Scope → List Token → Prop}
    {scope : Scope} {tokens : List Token}
    (element : BaseElement xml name required content scope tokens)
    (plain : (Element.ofName name).isText = false)
    (inside : ∀ scope inner, content scope inner →
      ∀ token ∈ inner, token.Named ParseState.PlainName) :
    ∀ token ∈ tokens, token.Named ParseState.PlainName := by
  cases element with
  | empty _ named _ => exact List.forall_mem_singleton.mpr (BaseElement.plainName named plain)
  | enclosing _ named inner _ =>
      have name := BaseElement.plainName named plain
      rw [List.forall_mem_append, List.forall_mem_cons, List.forall_mem_singleton]
      exact ⟨⟨name, inside _ _ inner⟩, name⟩

private theorem CodecElement.settled {scope : Scope} {tokens : List Token}
    (codec : CodecElement xml scope tokens) : Settled tokens := by
  cases codec with
  | empty _ _ nothing =>
      obtain ⟨_, value, data, allowed⟩ := nothing
      obtain rfl := (Option.some.inj data).symm
      exact absurd allowed (by decide)
  | enclosing _ named _ _ =>
      refine ⟨_, _, _, [], rfl, ?_, by simp⟩
      rw [localName_of_qualified named.1]
      rfl

private theorem SurfaceElement.settled {scope : Scope} {tokens : List Token}
    (surface : SurfaceElement xml scope tokens) : Settled tokens := by
  refine BaseElement.settled surface (by decide) fun scope inner content => ?_
  obtain ⟨lead, host, _, rfl, _, _, gap, codec, _, rfl, _, codecOk, pad, dimensions, last, rfl,
    padOk, dimensionsOk, lastOk⟩ := content
  have plain : ∀ token ∈ pad ++ (dimensions ++ last), token.Named ParseState.PlainName := by
    rw [List.forall_mem_append, List.forall_mem_append]
    exact ⟨padding_named padOk, BaseElement.named dimensionsOk (by decide)
      fun _ _ empty => padding_named empty.1, padding_named lastOk⟩
  exact (((CodecElement.settled codecOk).extended plain).behind _).behind _ |>.behind _

private theorem SurfacesContent.settled {scope : Scope} {tokens : List Token}
    (content : SurfacesContent xml scope tokens) : Settled tokens := by
  obtain ⟨more, sequence⟩ := content
  induction more generalizing tokens with
  | zero =>
      obtain ⟨lead, surface, last, rfl, _, surfaceOk, lastOk⟩ := sequence
      exact ((SurfaceElement.settled surfaceOk).extended (padding_named lastOk)).behind lead
  | succ more ih =>
      obtain ⟨lead, surface, rest, rfl, _, _, later⟩ := sequence
      exact ((ih later).behind surface).behind lead

private theorem BaseSession.settled {scope : Scope} {head tail : List Token}
    (document : BaseSession xml scope head tail) : Settled head := by
  cases document with
  | cut _ _ _ _ _ surfacesOk gapOk layoutOk _ _ _ =>
      have layout := BaseElement.named layoutOk (by decide) fun scope inner content => by
        obtain ⟨lead, strip, _, rfl, leadOk, stripOk, gap, focus, last, rfl, gapOk, focusOk,
          lastOk⟩ := content
        simp only [List.forall_mem_append]
        exact ⟨padding_named leadOk, BaseElement.named stripOk (by decide)
          fun _ _ empty => padding_named empty.1, padding_named gapOk,
          BaseElement.named focusOk (by decide) fun _ _ empty => padding_named empty.1,
          padding_named lastOk⟩
      have surfaces := BaseElement.settled surfacesOk (by decide)
        fun _ _ => SurfacesContent.settled
      exact ((((surfaces.behind _).extended (padding_named gapOk)).extended layout).behind
        [_]).behind _

private theorem BaseSession.sealed {scope : Scope} {head tail : List Token}
    (document : BaseSession xml scope head tail) : Sealed head := by
  cases document with
  | cut _ _ _ _ _ _ _ layoutOk _ _ _ =>
      exact .append _ (.append [_] (.append _ (.elementOf layoutOk)))

variable {F : Type} [Zero F] [RustFloat F]

private theorem Settled.quiet {tokens : List Token} (settled : Settled tokens)
    {state final : ParseState F}
    (run : (events [] tokens).foldlM (ParseState.step xml) state = .ok final) : final.Quiet := by
  obtain ⟨before, name, after, rest, rfl, codec, plain⟩ := settled
  have shape : events [] (before ++ .close name after :: rest) =
      events [] before ++ .close name :: events [] rest := by
    rw [events_append, events_eq_settled [] before, List.append_assoc]
    rfl
  rw [shape] at run
  obtain ⟨_, _, later⟩ := Run.append_eq_ok run
  obtain ⟨closed, accepted, last⟩ := bind_eq_ok later
  exact Run.invariant
    (fun event member _ _ quiet => ParseState.Quiet.step_plain quiet
      (AllNamed.events plain [] event member))
    (ParseState.quiet_of_close_codec codec accepted) last

/-! ## Splicing -/

theorem BaseSession.read_spliced (documented : Documented xml) {scope : Scope}
    {head tail spliced : List Token} (document : BaseSession xml scope head tail)
    (sound : Sound spliced) :
    xml.read (render (head ++ spliced ++ tail)) =
      ⟨events [] head ++ events [] (spliced ++ tail), .ok ()⟩ := by
  have whole := document.sound sound
  rw [documented.read_render _ whole.wellFormed (by rw [whole.balanced]; rfl)
    (by rw [List.append_assoc]; exact document.head_render _), List.append_assoc, document.sealed]

def parserNames : List Str :=
  ["session".toList, "surface".toList, "host".toList, "address".toList, "os".toList,
    "machine".toList, "capture".toList, "codec".toList, "dimensions".toList, "strip".toList,
    "focus".toList]

private theorem ofName_eq_unknown_iff {name : Str} : Element.ofName name = .unknown ↔ name ∉ parserNames := by
  have known : ∀ name ∈ parserNames, Element.ofName name ≠ .unknown := by decide
  refine ⟨fun unknown member => known name member unknown, fun absent => ?_⟩
  have other : ∀ known ∈ parserNames, name ≠ known := fun known member same =>
    absent (same ▸ member)
  unfold Element.ofName
  rw [if_neg (other _ (by simp [parserNames])), if_neg (other _ (by simp [parserNames])),
    if_neg (other _ (by simp [parserNames])), if_neg (other _ (by simp [parserNames])),
    if_neg (other _ (by simp [parserNames])), if_neg (other _ (by simp [parserNames])),
    if_neg (other _ (by simp [parserNames])), if_neg (other _ (by simp [parserNames])),
    if_neg (other _ (by simp [parserNames])), if_neg (other _ (by simp [parserNames])),
    if_neg (other _ (by simp [parserNames]))]

/-- A subtree whose names the base does not use can be spliced in behind the
layout of any document. -/
theorem fromXml_spliced (documented : Documented xml) {scope : Scope}
    {head tail subtree : List Token} {uri : Str} {vocabulary : Str → Prop}
    (document : BaseSession xml scope head tail)
    (element : NamespaceElement xml uri vocabulary scope subtree)
    (clear : ∀ name, vocabulary name → name ∉ parserNames) :
    SessionImage.fromXml (F := F) xml (render (head ++ subtree ++ tail)) =
      SessionImage.fromXml xml (render (head ++ tail)) := by
  have sound : Sound subtree := .elementOf element fun _ _ => .namespaceContent
  have ignored : AllNamed ParseState.UnknownName (events [] subtree) :=
    .events (element.named fun scope name part qualified inVocabulary => by
      unfold ParseState.UnknownName
      rw [localName_of_qualified qualified, ofName_eq_unknown_iff]
      exact clear part inVocabulary) []
  have without := document.read_spliced documented .nil
  rw [List.append_nil, List.nil_append] at without
  unfold SessionImage.fromXml parseReading
  rw [document.read_spliced documented sound, without, Sealed.elementOf element]
  simp only [List.foldlM_append]
  cases ran : (events [] head).foldlM (ParseState.step xml) (ParseState.init (F := F)) with
  | error e => rfl
  | ok state =>
      have quiet := document.settled.quiet ran
      have kept : (events [] subtree).foldlM (ParseState.step xml) state = .ok state :=
        quiet.run_unknown ignored
      simp only [bind, Except.bind] at kept ⊢
      rw [kept]

end Simulboot
