import Simulboot.Library.XmlSchema
import Simulboot.Galois
import Simulboot.Session.Foreign

/-!
# The base schema

The source text of a v0 document as the schema has it, cut behind the layout,
where the wildcard admits elements of the coefficients namespace. The simple
types of attribute values are left open: nothing here depends on them.
-/

set_option autoImplicit false

namespace Simulboot

open Library Library.Xml

section

variable (xml : QuickXml)

/-- An element of the base namespace. -/
def BaseElement (name : Str) (required : List Str) (content : Scope → List Token → Prop)
    (scope : Scope) (tokens : List Token) : Prop :=
  ElementOf xml scope (NamedTag sessionNamespace name required) content tokens

def HostContent (scope : Scope) (tokens : List Token) : Prop :=
  InSequence
    [BaseElement xml "address".toList [] (TextContent xml fun _ => True) scope,
      BaseElement xml "os".toList []
        (TextContent xml fun value => value ∈ ["macOS".toList, "Windows".toList, "Linux".toList])
        scope,
      BaseElement xml "machine".toList [] (TextContent xml fun _ => True) scope,
      BaseElement xml "capture".toList [] (TextContent xml fun _ => True) scope] tokens

def CodecElement (scope : Scope) (tokens : List Token) : Prop :=
  BaseElement xml "codec".toList []
    (TextContent xml fun value => value ∈ ["H265".toList, "AV1".toList]) scope tokens

def DimensionsElement (scope : Scope) (tokens : List Token) : Prop :=
  BaseElement xml "dimensions".toList ["width".toList, "height".toList] EmptyContent scope tokens

def SurfaceContent (scope : Scope) (tokens : List Token) : Prop :=
  InSequence [BaseElement xml "host".toList [] (HostContent xml) scope, CodecElement xml scope,
    DimensionsElement xml scope] tokens

def SurfaceElement (scope : Scope) (tokens : List Token) : Prop :=
  BaseElement xml "surface".toList ["id".toList, "name".toList, "order".toList]
    (SurfaceContent xml) scope tokens

def SurfacesContent (scope : Scope) (tokens : List Token) : Prop :=
  ∃ more, InSequence (SurfaceElement xml scope :: List.replicate more (SurfaceElement xml scope))
    tokens

def LayoutContent (scope : Scope) (tokens : List Token) : Prop :=
  InSequence
    [BaseElement xml "strip".toList ["scroll-pos".toList] EmptyContent scope,
      BaseElement xml "focus".toList ["surface-ref".toList] EmptyContent scope] tokens

def LayoutElement (scope : Scope) (tokens : List Token) : Prop :=
  BaseElement xml "layout".toList [] (LayoutContent xml) scope tokens

/-- An element that the wildcard admits, its content left to other schemas. -/
def WildcardElement (scope : Scope) (tokens : List Token) : Prop :=
  ElementOf xml scope (fun scope tag => ∃ name, Qualified scope tag.name coefficientsNamespace name)
    (fun _ inner => Sound inner) tokens

/-- What may stand before the root element. -/
def IsProlog (tokens : List Token) : Prop :=
  ∀ token ∈ tokens, IsPadding token ∨
    ∃ body, token = .misc .doctype body ∧ (Token.misc .doctype body).WellFormed

/-- A document of the base schema: `head` up to the end of the layout, `tail`
from there on, and the namespaces in scope between them. -/
inductive BaseSession : Scope → List Token → List Token → Prop where
  | cut {prolog lead surfaces gap layout wildcards epilog : List Token} {tag : Tag} {after : Str}
      {scope : Scope} {count : Nat} :
      IsProlog prolog → tag.WellFormed →
      scope = Scope.declare xml (fun _ => none) tag →
      NamedTag sessionNamespace "session".toList
        ["id".toList, "created".toList, "schema-version".toList] scope tag →
      Padding lead → BaseElement xml "surfaces".toList [] (SurfacesContent xml) scope surfaces →
      Padding gap → LayoutElement xml scope layout →
      InSequence (List.replicate count (WildcardElement xml scope)) wildcards →
      Blank after → Padding epilog →
      BaseSession scope (prolog ++ .start tag :: (lead ++ surfaces ++ gap ++ layout))
        (wildcards ++ .close tag.name after :: epilog)

end

/-! ## Documents are sound -/

theorem localName_of_qualified {scope : Scope} {name uri part : Str}
    (qualified : Qualified scope name uri part) : localName name = part := by
  unfold localName
  cases qualified with
  | unqualified noColon _ => rw [rsplitOnce_eq_none_iff.mpr noColon]
  | qualified _ noColon _ => rw [rsplitOnce_append noColon]

variable {xml : QuickXml}

theorem BaseElement.sound {name : Str} {required : List Str}
    {content : Scope → List Token → Prop} {scope : Scope} {tokens : List Token}
    (element : BaseElement xml name required content scope tokens)
    (inside : ∀ scope inner, content scope inner → Sound inner) : Sound tokens :=
  .elementOf element inside

theorem HostContent.sound {scope : Scope} {tokens : List Token}
    (content : HostContent xml scope tokens) : Sound tokens := by
  refine .inSequence content ?_
  simp only [List.forall_mem_cons, List.not_mem_nil, false_implies, implies_true, and_true]
  exact ⟨fun _ element => element.sound fun _ _ => .textContent,
    fun _ element => element.sound fun _ _ => .textContent,
    fun _ element => element.sound fun _ _ => .textContent,
    fun _ element => element.sound fun _ _ => .textContent⟩

theorem SurfaceElement.sound {scope : Scope} {tokens : List Token}
    (surface : SurfaceElement xml scope tokens) : Sound tokens := by
  refine BaseElement.sound surface fun scope inner content => .inSequence content ?_
  simp only [List.forall_mem_cons, List.not_mem_nil, false_implies, implies_true, and_true]
  exact ⟨fun _ element => element.sound fun _ _ => HostContent.sound,
    fun _ element => BaseElement.sound element fun _ _ => .textContent,
    fun _ element => BaseElement.sound element fun _ _ => .emptyContent⟩

theorem LayoutElement.sound {scope : Scope} {tokens : List Token}
    (layout : LayoutElement xml scope tokens) : Sound tokens := by
  refine BaseElement.sound layout fun scope inner content => .inSequence content ?_
  simp only [List.forall_mem_cons, List.not_mem_nil, false_implies, implies_true, and_true]
  exact ⟨fun _ element => element.sound fun _ _ => .emptyContent,
    fun _ element => element.sound fun _ _ => .emptyContent⟩

theorem SurfacesContent.sound {scope : Scope} {tokens : List Token}
    (content : SurfacesContent xml scope tokens) : Sound tokens := by
  obtain ⟨more, sequence⟩ := content
  refine .inSequence sequence fun part member => ?_
  have same : part = SurfaceElement xml scope :=
    (List.mem_cons.mp member).elim id List.eq_of_mem_replicate
  rw [same]
  exact fun _ => SurfaceElement.sound

theorem IsProlog.sound {tokens : List Token} (prolog : IsProlog tokens) : Sound tokens := by
  induction tokens with
  | nil => exact .nil
  | cons token rest ih =>
      obtain ⟨first, others⟩ := List.forall_mem_cons.mp prolog
      have head : Sound [token] := by
        rcases first with padding | ⟨body, rfl, wellFormed⟩
        · exact .padding (List.forall_mem_singleton.mpr padding)
        · exact .misc wellFormed
      exact head.append (ih others)

/-- A document stays sound when sound markup goes in at the cut. -/
theorem BaseSession.sound {scope : Scope} {head tail : List Token}
    (document : BaseSession xml scope head tail) {spliced : List Token} (sound : Sound spliced) :
    Sound (head ++ spliced ++ tail) := by
  cases document with
  | @cut prolog lead surfaces gap layout wildcards epilog tag after _ count prologOk wellFormed _ _
      leadOk surfacesOk gapOk layoutOk wildcardsOk blank epilogOk =>
      have inner : Sound (lead ++ surfaces ++ gap ++ layout ++ spliced ++ wildcards) := by
        refine ((((Sound.padding leadOk).append (surfacesOk.sound fun _ _ =>
          SurfacesContent.sound)).append (.padding gapOk)).append layoutOk.sound).append
            sound |>.append (.inSequence wildcardsOk fun part member => ?_)
        rw [List.eq_of_mem_replicate member]
        exact fun _ element => .elementOf element fun _ _ => id
      have whole := (prologOk.sound.append (.enclosing wellFormed blank inner)).append
        (.padding epilogOk)
      simpa using whole

/-- No document begins with a byte order mark. -/
theorem BaseSession.head_render {scope : Scope} {head tail : List Token}
    (document : BaseSession xml scope head tail) (rest : List Token) :
    (render (head ++ rest)).head? ≠ some '\uFEFF' := by
  cases document with
  | @cut prolog lead surfaces gap layout wildcards epilog tag after _ count prologOk =>
      have tagged : ∀ more, (render (.start tag :: more)).head? = some '<' := fun _ => rfl
      rw [List.append_assoc, List.cons_append]
      generalize lead ++ surfaces ++ gap ++ layout ++ rest = more
      clear * - prologOk tagged
      induction prolog with
      | nil =>
          rw [List.nil_append, tagged]
          decide
      | cons token others ih =>
          obtain ⟨first, later⟩ := List.forall_mem_cons.mp prologOk
          rw [List.cons_append, render_cons]
          rcases first with padding | ⟨body, rfl, _⟩
          · cases padding with
            | @blank raw isBlank =>
                cases raw with
                | nil => exact ih later
                | cons c text =>
                    have space := isBlank c (by simp)
                    simp only [Token.render, List.cons_append, List.head?_cons, ne_eq,
                      Option.some.injEq]
                    rintro rfl
                    exact absurd space (by decide)
            | comment _ => exact (by decide : some '<' ≠ some '\uFEFF')
            | processing _ => exact (by decide : some '<' ≠ some '\uFEFF')
          · exact (by decide : some '<' ≠ some '\uFEFF')

end Simulboot
