import Simulboot.Session.Escaping

/-!
# Content addressing

The canonical form is uniquely readable, so it determines the content of an
image whatever strings the image quotes.
-/

set_option autoImplicit false

namespace Simulboot

open Library

variable {F : Type} [Zero F] [RustFloat F]

/-- Agreement on everything but the declared id. Scroll positions are compared
as numbers, so the two zeros are one. -/
structure SameContent (a b : SessionImage F) : Prop where
  created : a.created = b.created
  schemaVersion : a.schemaVersion = b.schemaVersion
  surfaces : a.surfaces = b.surfaces
  scrollPos : RustFloat.eq a.layout.scrollPos b.layout.scrollPos = true
  focus : a.layout.focus = b.layout.focus

/-! ## Reading the pieces -/

private theorem readable_attr {α : Type} {value : α → Str} (close : Str) (inj : Function.Injective value)
    (starts : close.head? = some '"') :
    UniquelyReadable fun v => escapeAttr (value v) ++ close :=
  .closedBy starts (escapeAttr_injective.comp inj) fun _ => quote_not_mem_escapeAttr _

private theorem readable_text {α : Type} {value : α → Str} (close : Str) (inj : Function.Injective value)
    (starts : close.head? = some '<') :
    UniquelyReadable fun v => escapeText (value v) ++ close :=
  .closedBy starts (escapeText_injective.comp inj) fun _ => lt_not_mem_escapeText _

private theorem displayU32_injective : Function.Injective displayU32 := by
  intro left right same
  have parsed := congrArg parseU32 same
  simpa [parseU32_displayU32] using parsed

private theorem readable_u32 (close : Str) (starts : close.head? = some '"') :
    UniquelyReadable fun n => displayU32 n ++ close :=
  .closedBy starts displayU32_injective fun n => not_mem_displayNat n.toNat (by decide)

private theorem osToStr_injective : Function.Injective osToStr := by
  intro left right same
  have parsed := congrArg osFromStr same
  simpa [osFromStr_osToStr] using parsed

private theorem codecToStr_injective : Function.Injective codecToStr := by
  intro left right same
  have parsed := congrArg codecFromStr same
  simpa [codecFromStr_codecToStr] using parsed

/-! ## Reading the document -/

private def openTag (tag : Str) : Str :=
  "<".toList ++ (tag ++ ">".toList)

private def closeTag (tag : Str) : Str :=
  "</".toList ++ (tag ++ ">".toList)

private theorem readable_surface : UniquelyReadable (writeSurface false) := by
  refine .record
    (fun surf => (surf.id, surf.name, surf.order, surf.host.address, surf.host.os,
      surf.host.machine, surf.host.capture, surf.codec, surf.height, surf.width))
    (.openedBy "<surface id=\"".toList
      (.pair (readable_attr "\" name=\"".toList surfaceIdToStr_injective rfl)
      (.pair (readable_attr "\" order=\"".toList Function.injective_id rfl)
      (.pair (readable_u32
        ("\">".toList ++ ("<host>".toList ++ openTag "address".toList)) rfl)
      (.pair (readable_text
        (closeTag "address".toList ++ openTag "os".toList) Function.injective_id rfl)
      (.pair (readable_text
        (closeTag "os".toList ++ openTag "machine".toList) osToStr_injective rfl)
      (.pair (readable_text
        (closeTag "machine".toList ++ openTag "capture".toList) Function.injective_id rfl)
      (.pair (readable_text
        (closeTag "capture".toList ++ ("</host>".toList ++ openTag "codec".toList))
        Function.injective_id rfl)
      (.pair (readable_text
        (closeTag "codec".toList ++ "<dimensions height=\"".toList)
        codecToStr_injective rfl)
      (.pair (readable_u32 "\" width=\"".toList rfl)
        (readable_u32 ("\"/>".toList ++ "</surface>".toList) rfl)))))))))))
    ?_ ?_
  · rintro ⟨_, _, _, ⟨_, _, _, _⟩, _, _, _⟩ ⟨_, _, _, ⟨_, _, _, _⟩, _, _, _⟩ same
    simp_all
  · intro surf
    simp only [writeSurface, writeTextEl, indent, newline, openTag, closeTag, Bool.false_eq_true,
      if_false, List.append_assoc, List.nil_append, List.append_nil, id]

private theorem readable_focus : UniquelyReadable (writeFocus false) := by
  refine .record id
    (.openedBy "<focus surface-ref=\"".toList
      (readable_attr "\"/>".toList surfaceIdToStr_injective rfl))
    Function.injective_id ?_
  intro focus
  simp only [writeFocus, indent, newline, Bool.false_eq_true, if_false, List.append_assoc,
    List.nil_append, List.append_nil, id]

/-- What the canonical form shows of an image, the scroll position as its text. -/
abbrev Shown : Type :=
  Str × UInt32 × List SurfaceEntry × { text : Str // '"' ∉ text } × Option SurfaceId

/-- The canonical form up to the end of the layout. -/
private def printHead (content : Shown) : Str :=
  ("<session xmlns=\"".toList ++ (sessionNamespace ++ ("\"".toList ++ " created=\"".toList))) ++
    ((escapeAttr content.1 ++ ("\"".toList ++ " schema-version=\"".toList)) ++
    ((displayU32 content.2.1 ++ ("\"".toList ++ (">".toList ++ "<surfaces>".toList))) ++
    ((content.2.2.1.flatMap (writeSurface false) ++
      ("</surfaces>".toList ++ ("<layout>".toList ++ "<strip scroll-pos=\"".toList))) ++
    ((content.2.2.2.1.val ++ "\"/>".toList) ++
      (content.2.2.2.2.elim [] (writeFocus false) ++ "</layout>".toList)))))

private def printShown (content : Shown) : Str :=
  ("<session xmlns=\"".toList ++ (sessionNamespace ++ ("\"".toList ++ " created=\"".toList))) ++
    ((escapeAttr content.1 ++ ("\"".toList ++ " schema-version=\"".toList)) ++
    ((displayU32 content.2.1 ++ ("\"".toList ++ (">".toList ++ "<surfaces>".toList))) ++
    ((content.2.2.1.flatMap (writeSurface false) ++
      ("</surfaces>".toList ++ ("<layout>".toList ++ "<strip scroll-pos=\"".toList))) ++
    ((content.2.2.2.1.val ++ "\"/>".toList) ++
      (content.2.2.2.2.elim [] (writeFocus false) ++
        ("</layout>".toList ++ "</session>".toList))))))

private theorem readable_head : UniquelyReadable printHead := by
  have surfaces : UniquelyReadable fun surfaces : List SurfaceEntry =>
      surfaces.flatMap (writeSurface false) ++
        ("</surfaces>".toList ++ ("<layout>".toList ++ "<strip scroll-pos=\"".toList)) := by
    refine readable_surface.many fun surf after rest same => ?_
    have second := congrArg (fun text => text[1]?) same
    simp [writeSurface, indent] at second
  have focus : UniquelyReadable fun focus : Option SurfaceId =>
      focus.elim [] (writeFocus false) ++ "</layout>".toList := by
    refine readable_focus.optional fun focus after rest same => ?_
    have second := congrArg (fun text => text[1]?) same
    simp [writeFocus, indent] at second
  have created : UniquelyReadable fun created : Str =>
      escapeAttr created ++ ("\"".toList ++ " schema-version=\"".toList) :=
    readable_attr _ Function.injective_id rfl
  have version : UniquelyReadable fun n : UInt32 =>
      displayU32 n ++ ("\"".toList ++ (">".toList ++ "<surfaces>".toList)) :=
    readable_u32 _ rfl
  have scroll : UniquelyReadable fun text : { text : Str // '"' ∉ text } =>
      text.val ++ "\"/>".toList :=
    .closedBy rfl Subtype.val_injective fun text => text.property
  have document := (created.pair (version.pair (surfaces.pair (scroll.pair focus)))).openedBy
    ("<session xmlns=\"".toList ++ (sessionNamespace ++ ("\"".toList ++ " created=\"".toList)))
  refine document.record id Function.injective_id fun content => ?_
  unfold printHead
  rfl

private theorem readable_shown : UniquelyReadable printShown := by
  refine (readable_head.followedBy "</session>".toList).record id Function.injective_id
    fun content => ?_
  unfold printShown printHead
  simp only [List.append_assoc, id]

section

variable (laws : RustFloat.Documented F)

include laws

private def shown (img : SessionImage F) : Shown :=
  (img.created, img.schemaVersion, img.surfaces,
    ⟨fmtF32 img.layout.scrollPos, (fmtF32_delimiters laws _).1⟩, img.layout.focus)

private theorem printShown_shown (img : SessionImage F) :
    img.writeDoc false false = printShown (shown laws img) := by
  unfold SessionImage.writeDoc SessionImage.writeDocWithId printShown shown
  simp only [writeId, writeLayout, indent, newline, Bool.false_eq_true, if_false, Option.elim_none, Option.getD_none,
    List.append_assoc, List.nil_append, List.append_nil]

private theorem writeDocWithId_shown (img : SessionImage F) (extraChildren : Str) :
    img.writeDocWithId false none (some extraChildren) =
      printHead (shown laws img) ++ (extraChildren ++ "</session>".toList) := by
  unfold SessionImage.writeDocWithId printHead shown
  simp only [writeId, writeLayout, indent, newline, Bool.false_eq_true, if_false, Option.elim_none,
    Option.getD_some, List.append_assoc, List.nil_append, List.append_nil]

/-- What stands behind the layout cannot be taken for a part of the base. -/
theorem writeDocWithId_extra_iff {a b : SessionImage F} {left right : Str} :
    a.writeDocWithId false none (some left) = b.writeDocWithId false none (some right) ↔
      a.canonicalBytes = b.canonicalBytes ∧ left = right := by
  unfold SessionImage.canonicalBytes
  rw [utf8_injective.eq_iff, printShown_shown laws a, printShown_shown laws b,
    readable_shown.injective.eq_iff, writeDocWithId_shown laws a, writeDocWithId_shown laws b]
  constructor
  · intro same
    obtain ⟨bases, rest⟩ := readable_head _ _ _ _ same
    exact ⟨bases, List.append_cancel_right rest⟩
  · intro ⟨bases, extras⟩
    rw [bases, extras]

/-- Equal canonical forms come from equal content. -/
theorem canonicalBytes_eq_iff_content {a b : SessionImage F} :
    a.canonicalBytes = b.canonicalBytes ↔
      a.created = b.created ∧ a.schemaVersion = b.schemaVersion ∧ a.surfaces = b.surfaces ∧
        fmtF32 a.layout.scrollPos = fmtF32 b.layout.scrollPos ∧
        a.layout.focus = b.layout.focus := by
  unfold SessionImage.canonicalBytes
  rw [utf8_injective.eq_iff, printShown_shown laws a, printShown_shown laws b,
    readable_shown.injective.eq_iff]
  simp [shown]

theorem canonicalBytes_eq_iff_sameContent {a b : SessionImage F}
    (number : RustFloat.isNaN a.layout.scrollPos = false) :
    a.canonicalBytes = b.canonicalBytes ↔ SameContent a b := by
  rw [canonicalBytes_eq_iff_content laws]
  unfold fmtF32
  rw [laws.displayUnsignedZero_inj number]
  constructor
  · rintro ⟨created, version, surfaces, scroll, focus⟩
    exact ⟨created, version, surfaces, scroll, focus⟩
  · rintro ⟨created, version, surfaces, scroll, focus⟩
    exact ⟨created, version, surfaces, scroll, focus⟩

end

end Simulboot
