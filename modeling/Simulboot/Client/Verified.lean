import Simulboot.Client.Identity
import Simulboot.Client.Resume

/-!
# The identity of a resumed session

The hash is checked against the URL, but a session goes on under the id that its
document declares. A document that declares another id is not refused.
-/

set_option autoImplicit false
set_option linter.unusedSectionVars false

namespace Simulboot

open Library Library.Xml Library.Http

/-! ## The declared id -/

section

variable {F : Type} [Zero F] [RustFloat F] (xml : QuickXml)

/-- What a tag declares as the id of the session, where it opens one. -/
def declares : Event → Option (Option Str)
  | .start e | .empty e =>
      if Element.ofName (localName e.name) = .session then
        match SessionAttrs.parse xml e with
        | .ok attrs => some attrs.id
        | .error _ => none
      else none
  | _ => none

/-- The id that a document declares, in the last tag that opens a session. -/
def declaredIn (text : Str) : Option Str :=
  (((xml.read text).events.filterMap (declares xml)).getLast?).join

namespace ParseState

variable {xml}

private theorem openElement_sessionAttrs {state opened : ParseState F} {e : BytesStart}
    (other : Element.ofName (localName e.name) ≠ .session)
    (done : openElement xml state e = .ok opened) : opened.sessionAttrs = state.sessionAttrs := by
  unfold openElement at done
  cases element : Element.ofName (localName e.name) with
  | session => exact absurd element other
  | surface =>
      simp only [element] at done
      obtain ⟨_, _, done⟩ := bind_eq_ok done
      cases done
      rfl
  | dimensions =>
      simp only [element] at done
      cases current : state.curSurface with
      | none => simp [current] at done
      | some b =>
          simp only [current] at done
          obtain ⟨_, _, done⟩ := bind_eq_ok done
          obtain ⟨_, _, done⟩ := bind_eq_ok done
          cases done
          rfl
  | strip =>
      simp only [element] at done
      obtain ⟨_, _, done⟩ := bind_eq_ok done
      cases done
      rfl
  | focus =>
      simp only [element] at done
      obtain ⟨_, _, done⟩ := bind_eq_ok done
      obtain ⟨_, _, done⟩ := bind_eq_ok done
      cases done
      rfl
  | _ =>
      simp only [element] at done
      cases done
      rfl

private theorem closeElement_sessionAttrs {state closed : ParseState F} {name : Str}
    (done : closeElement state name = .ok closed) : closed.sessionAttrs = state.sessionAttrs := by
  unfold closeElement at done
  cases element : Element.ofName (localName name) with
  | surface =>
      simp only [element] at done
      cases current : state.curSurface with
      | none => simp [current] at done
      | some b =>
          simp only [current] at done
          obtain ⟨_, _, done⟩ := bind_eq_ok done
          cases done
          rfl
  | address | os | machine | capture | codec =>
      simp only [element] at done
      obtain ⟨_, _, done⟩ := bind_eq_ok done
      cases done
      rfl
  | _ =>
      simp only [element] at done
      cases done
      rfl

private theorem step_declared {state next : ParseState F} {event : Event}
    (stepped : step xml state event = .ok next) :
    next.sessionAttrs.id = (declares xml event).getD state.sessionAttrs.id := by
  cases event with
  | start e | empty e =>
      obtain ⟨opened, done, stepped⟩ := bind_eq_ok stepped
      cases stepped
      by_cases session : Element.ofName (localName e.name) = .session
      · simp only [openElement, session] at done
        obtain ⟨attrs, parsed, done⟩ := bind_eq_ok done
        cases done
        simp only [declares, session, ↓reduceIte, parsed, Option.getD_some]
      · have kept := openElement_sessionAttrs session done
        simp only [declares, session, ↓reduceIte, Option.getD_none, kept]
  | text raw =>
      simp only [step] at stepped
      cases target : state.textTarget with
      | none =>
          simp only [target] at stepped
          cases stepped
          rfl
      | some _ =>
          simp only [target] at stepped
          obtain ⟨_, _, stepped⟩ := bind_eq_ok stepped
          cases stepped
          rfl
  | close name =>
      rw [closeElement_sessionAttrs stepped]
      rfl
  | other =>
      cases stepped
      rfl

private theorem run_declared {state after : ParseState F} {events : List Event}
    (run : events.foldlM (step xml) state = .ok after) :
    after.sessionAttrs.id =
      ((events.filterMap (declares xml)).getLast?).getD state.sessionAttrs.id := by
  induction events generalizing state with
  | nil =>
      cases run
      rfl
  | cons event events ih =>
      obtain ⟨next, stepped, run⟩ := bind_eq_ok run
      rw [ih run, step_declared stepped, List.filterMap_cons]
      cases declares xml event with
      | none => rfl
      | some id => rw [List.getLast?_cons, Option.getD_some, Option.getD_some]

end ParseState

variable {xml} in
private theorem fromXml_id {text : Str} {image : SessionImage F}
    (read : SessionImage.fromXml xml text = .ok image) : image.id = declaredIn xml text := by
  obtain ⟨state, run, read⟩ := bind_eq_ok read
  have declared := ParseState.run_declared run
  cases ending : (xml.read text).ending with
  | error e => simp [ending] at read
  | ok _ =>
      simp only [ending, ParseState.finish] at read
      cases created : state.sessionAttrs.created with
      | none => simp [created] at read
      | some _ =>
          simp only [created, Except.ok.injEq] at read
          rw [← read]
          change state.sessionAttrs.id = _
          rw [declared, declaredIn]
          cases ((xml.read text).events.filterMap (declares xml)).getLast? <;> rfl

end

/-! ## The id in the URL -/

/-- The id that a URL's last segment names, in full or by its bare hash. -/
def namedId (segment : Str) : Str :=
  if (stripPrefix "sha256:".toList segment).isSome then segment else "sha256:".toList ++ segment

variable {F : Type} [Zero F] [RustFloat F] {sha256 : Sha256} {xml : QuickXml}

private theorem computeId_eq_namedId {image : SessionImage F} {segment : Str}
    (matched : idMatches segment (image.computeId sha256) = true) :
    image.computeId sha256 = namedId segment := by
  unfold namedId
  rcases idMatches_computeId.mp matched with rfl | rfl
  · unfold SessionImage.computeId
    rw [stripPrefix_append]
    rfl
  · have bare : stripPrefix "sha256:".toList (hexEncode (sha256 image.canonicalBytes).bytes) =
        none := by
      refine Option.eq_none_iff_forall_ne_some.mpr fun rest marked => ?_
      have mark : ':' ∈ "sha256:".toList ++ rest := List.mem_append_left _ (by decide)
      rw [← stripPrefix_eq_some_iff.mp marked] at mark
      exact absurd (mem_hexEncode mark) (by decide)
    rw [bare]
    rfl

variable {E : Type}

/-- An answer to a URL that the client accepts: the last segment of the URL, the
text of the document, and the image it is read as. -/
structure Accepted (E : Type) (sha256 : Sha256) (xml : QuickXml) (network : Network)
    (url segment text : Str) (image : SessionImage F) : Prop where
  answered : ∃ host port path body, parseHttpUrl (E := E) url = .ok (host, port, path) ∧
    urlId path = segment ∧ httpGet (E := E) network host port path = .ok body ∧
    fromUtf8 body = some text
  fetched : fetchImage (E := E) sha256 xml network url = .ok image

private theorem Accepted.read {network : Network} {url segment text : Str} {image : SessionImage F}
    (accepted : Accepted E sha256 xml network url segment text image) :
    SessionImage.fromXml xml text = .ok image ∧
      idMatches segment (image.computeId sha256) = true := by
  obtain ⟨host, port, path, body, parsed, rfl, got, decoded⟩ := accepted.answered
  obtain ⟨_, _, _, _, _, again, gotAgain, decodedAgain, read, matched⟩ :=
    fetchImage_eq_ok accepted.fetched
  rw [parsed] at again
  cases again
  rw [got] at gotAgain
  cases gotAgain
  rw [decoded] at decodedAgain
  cases decodedAgain
  exact ⟨read, matched⟩

/-- The document declares no id but the one that the URL names. -/
def DeclaresNamed (xml : QuickXml) (segment text : Str) : Prop :=
  ∀ id ∈ declaredIn xml text, id = namedId segment

/-- The id that a session goes on under is the checked one. -/
structure VerifiedIdentity (sha256 : Sha256) (segment : Str) (image : SessionImage F) : Prop where
  declared : image.id = none ∨ image.id = some (image.computeId sha256)
  resumed : image.declaredId sha256 = namedId segment

private theorem Accepted.verified_iff {network : Network} {url segment text : Str}
    {image : SessionImage F} (accepted : Accepted E sha256 xml network url segment text image) :
    VerifiedIdentity sha256 segment image ↔ DeclaresNamed xml segment text := by
  obtain ⟨read, matched⟩ := accepted.read
  have named := computeId_eq_namedId matched
  unfold DeclaresNamed
  rw [← fromXml_id read]
  constructor
  · intro verified id declared
    have same := verified.resumed
    unfold SessionImage.declaredId at same
    rw [Option.mem_def.mp declared, Option.getD_some] at same
    exact same
  · intro only
    cases declared : image.id with
    | none =>
        refine ⟨.inl declared, ?_⟩
        unfold SessionImage.declaredId
        rw [declared, Option.getD_none, named]
    | some id =>
        have same := only id declared
        refine ⟨.inr (by rw [declared, same, named]), ?_⟩
        unfold SessionImage.declaredId
        rw [declared, Option.getD_some, same]

/-! ## The resumed session -/

variable [One F] [OfNat F 3] [Add F] [Sub F] [Div F] [Max F]
variable [LT F] [LE F] [DecidableLT F] [DecidableLE F] {W : Type}

/-- Equal strips, their scroll positions compared as numbers. -/
structure SameStrip (a b : Strip F) : Prop where
  surfaces : a.surfaces = b.surfaces
  scrollPos : RustFloat.Alike a.scrollPos b.scrollPos
  viewportWidth : a.viewportWidth = b.viewportWidth
  viewportHeight : a.viewportHeight = b.viewportHeight
  focus : a.focus = b.focus

/-- The same failure, or the same links and strips. -/
def SameOutcome {ε : Type} : Except ε (List Link × Strip F) → Except ε (List Link × Strip F) → Prop
  | .error left, .error right => left = right
  | .ok left, .ok right => left.1 = right.1 ∧ SameStrip left.2 right.2
  | _, _ => False

/-- The message that goes to the host of each surface. -/
def reconnects (W : Type) (sha256 : Sha256) (image : SessionImage F) :
    List (Str × StructureMessage W) :=
  image.surfaces.map fun entry => (entry.host.address, .reconnect (image.declaredId sha256))

section

variable (laws : RustFloat.Documented F) (compares : RustFloat.Compares F)

include laws compares

private theorem alike_clamp {v w : F} (alike : RustFloat.Alike v w) (low high : F) :
    RustFloat.Alike (clamp v low high) (clamp w low high) := by
  have below : ∀ x, v < x ↔ w < x := fun x => (compares.lt_iff_of_alike alike x).1
  have above : ∀ x, x < v ↔ x < w := fun x => (compares.lt_iff_of_alike alike x).2
  unfold clamp
  simp only [below]
  by_cases under : w < low
  · simp only [under, ↓reduceIte]
    exact laws.alike_self _
  · simp only [under, ↓reduceIte, above]
    by_cases beyond : high < w
    · simp only [beyond, ↓reduceIte]
      exact laws.alike_self _
    · simp only [beyond, ↓reduceIte]
      exact alike

/-- Images of equal content and one id are resumed alike. -/
theorem sameOutcome_resume {a b : SessionImage F} (content : a.canonicalBytes = b.canonicalBytes)
    (id : a.declaredId sha256 = b.declaredId sha256)
    {postcard : Postcard (StructureMessage W) E} {debug : StructureMessage W → Str} {hosts : Hosts}
    {fetchLeft fetchRight : Str → Except (AnyhowError E) (SessionImage F)} {url : Str}
    (left : fetchLeft url = .ok a) (right : fetchRight url = .ok b) (strip : Strip F) :
    SameOutcome (resume sha256 postcard debug hosts fetchLeft url strip)
      (resume sha256 postcard debug hosts fetchRight url strip) := by
  obtain ⟨_, _, surfaces, scroll, focus⟩ := (canonicalBytes_eq_iff_content laws).mp content
  unfold SessionImage.declaredId at id
  unfold resume
  simp only [left, right, bind, Except.bind, id, surfaces]
  cases b.surfaces.foldlM (reconnect postcard debug hosts (b.id.getD (b.computeId sha256)))
      ([], strip) with
  | error e => rfl
  | ok state =>
      refine ⟨rfl, rfl, ?_, rfl, rfl, ?_⟩
      · exact alike_clamp laws compares (laws.alike_of_displayUnsignedZero scroll) _ _
      · change a.layout.focus.filter _ = b.layout.focus.filter _
        rw [focus]
        rfl

variable (sha256 xml) in
/-- The verified id is the one that a session goes on under exactly where the
document declares no other; then all answers to a URL resume alike. -/
theorem verified_iff_declaresNamed :
    (∀ (network : Network) (url segment text : Str) (image : SessionImage F),
        Accepted E sha256 xml network url segment text image →
          (VerifiedIdentity sha256 segment image ↔ DeclaresNamed xml segment text)) ∧
      ∀ (left right : Network) (url segment leftText rightText : Str) (a b : SessionImage F),
        Accepted E sha256 xml left url segment leftText a →
        Accepted E sha256 xml right url segment rightText b →
        Distinguishes sha256 a b →
          ((VerifiedIdentity sha256 segment a ∧ VerifiedIdentity sha256 segment b ∧
              reconnects W sha256 a = reconnects W sha256 b ∧
              ∀ (postcard : Postcard (StructureMessage W) E) (debug : StructureMessage W → Str)
                (hosts : Hosts) (strip : Strip F),
                SameOutcome
                  (resume sha256 postcard debug hosts (fetchImage sha256 xml left) url strip)
                  (resume sha256 postcard debug hosts (fetchImage sha256 xml right) url strip)) ↔
            DeclaresNamed xml segment leftText ∧ DeclaresNamed xml segment rightText) := by
  refine ⟨fun network url segment text image accepted => accepted.verified_iff, ?_⟩
  intro left right url segment leftText rightText a b acceptedLeft acceptedRight distinguishes
  have content : a.canonicalBytes = b.canonicalBytes :=
    canonicalBytes_eq_of_idMatches distinguishes acceptedLeft.read.2 acceptedRight.read.2
  rw [← acceptedLeft.verified_iff, ← acceptedRight.verified_iff]
  constructor
  · intro ⟨verifiedLeft, verifiedRight, _⟩
    exact ⟨verifiedLeft, verifiedRight⟩
  · intro ⟨verifiedLeft, verifiedRight⟩
    have id := verifiedLeft.resumed.trans verifiedRight.resumed.symm
    refine ⟨verifiedLeft, verifiedRight, ?_, fun postcard debug hosts strip => ?_⟩
    · unfold reconnects
      rw [id, ((canonicalBytes_eq_iff_content laws).mp content).2.2.1]
    · exact sameOutcome_resume laws compares content id acceptedLeft.fetched
        acceptedRight.fetched strip

end

/-! ## A document that declares another id -/

def servedUnder (sha256 : Sha256) (img : SessionImage F) (text : Str) : ServedImage :=
  .newXml (img.computeId sha256) (utf8 text)

private theorem accepted_servedUnder {img back : SessionImage F} {text : Str}
    (read : SessionImage.fromXml xml text = .ok back)
    (same : back.computeId sha256 = img.computeId sha256) {host : Str} (noSlash : '/' ∉ host)
    (port : UInt16) :
    Accepted E sha256 xml (.only host port (servedUnder sha256 img text))
      (sessionUrl host port (img.computeId sha256)) (img.computeId sha256) text back := by
  have parsed := parseHttpUrl_sessionUrl (E := E) noSlash port (img.computeId sha256)
  have reaches := Network.only_reaches host port (servedUnder sha256 img text)
  have got := httpGet_served (E := E) reaches (computeId_isAddress sha256 img)
    (newXml_contentType _ _)
  have named := urlId_computeId sha256 img
  refine ⟨⟨host, port, _, _, parsed, named, got, fromUtf8_utf8 _⟩,
    fetchImage_of_document parsed got read ?_⟩
  rw [named, same]
  exact idMatches_computeId.mpr (.inl rfl)

private theorem tidySession_computeId (id : Option Str) :
    (tidySession.normalForm id).computeId sha256Digest = tidySession.computeId sha256Digest :=
  SessionImage.computeId_normalForm ExactFloat.documented _ _ rfl tidySession_trimmed
    (List.pairwise_singleton _ _)

/-- The printed document and the canonical form, which declares no id, resume alike. -/
theorem tidySession_verified :
    let host := "127.0.0.1".toList
    let segment := tidySession.computeId sha256Digest
    let url := sessionUrl host 8080 segment
    let printed := tidySession.normalForm (some segment)
    let bare := tidySession.normalForm none
    ∃ left right : Network,
      fetchImage (E := Str) sha256Digest Scanner.quickXml left url = .ok printed ∧
        fetchImage (E := Str) sha256Digest Scanner.quickXml right url = .ok bare ∧
        VerifiedIdentity sha256Digest segment printed ∧ VerifiedIdentity sha256Digest segment bare ∧
        reconnects Unit sha256Digest printed = reconnects Unit sha256Digest bare := by
  intro host segment url printed bare
  have noSlash : '/' ∉ host := by decide
  have readPrinted : SessionImage.fromXml Scanner.quickXml (tidySession.toXml sha256Digest) =
      .ok printed :=
    fromXml_toXml Scanner.documented ExactFloat.documented sha256Digest tidySession rfl
  have readBare : SessionImage.fromXml Scanner.quickXml (tidySession.writeDoc false false) =
      .ok bare := fromXml_canonical Scanner.documented ExactFloat.documented tidySession rfl
  have left := accepted_servedUnder (E := Str) readPrinted (tidySession_computeId _) noSlash 8080
  have right := accepted_servedUnder (E := Str) readBare (tidySession_computeId _) noSlash 8080
  have named : tidySession.computeId sha256Digest = namedId segment :=
    computeId_eq_namedId (idMatches_computeId.mpr (.inl rfl))
  have declaredPrinted : DeclaresNamed Scanner.quickXml segment (tidySession.toXml sha256Digest) := by
    intro id declared
    rw [← fromXml_id readPrinted] at declared
    cases declared
    exact named
  have declaredBare : DeclaresNamed Scanner.quickXml segment (tidySession.writeDoc false false) := by
    intro id declared
    rw [← fromXml_id readBare] at declared
    cases declared
  obtain ⟨single, pair⟩ := verified_iff_declaresNamed (E := Str) (W := Unit) sha256Digest
    Scanner.quickXml ExactFloat.documented ExactFloat.compares
  obtain ⟨_, _, same, _⟩ := (pair _ _ _ _ _ _ _ _ left right fun _ => rfl).mpr
    ⟨declaredPrinted, declaredBare⟩
  exact ⟨_, _, left.fetched, right.fetched, (single _ _ _ _ _ left).mpr declaredPrinted,
    (single _ _ _ _ _ right).mpr declaredBare, same⟩

def SessionImage.declaring (img : SessionImage F) (id : Str) : SessionImage F :=
  { img with id := some id }

private theorem computeId_declaring (laws : RustFloat.Documented F) (sha256 : Sha256)
    {img : SessionImage F} (id : Str) (number : RustFloat.isNaN img.layout.scrollPos = false)
    (trimmed : img.Trimmed) (ordered : img.Ordered) :
    ((img.declaring id).normalForm (some id)).computeId sha256 = img.computeId sha256 := by
  have kept : (img.declaring id).Trimmed := trimmed
  exact SessionImage.computeId_normalForm laws sha256 (some id) number kept ordered

theorem mislabelled_document_accepted :
    ∃ (network : Network) (image : SessionImage ℚ),
      fetchImage (E := Str) sha256Digest Scanner.quickXml network
          (sessionUrl "127.0.0.1".toList 8080 (tidySession.computeId sha256Digest)) = .ok image ∧
        ¬ (image.id = none ∨ image.id = some (image.computeId sha256Digest)) := by
  have read := fromXml_toXml Scanner.documented ExactFloat.documented sha256Digest
    (tidySession.declaring "sha256:stale".toList) rfl
  have computed : ((tidySession.declaring "sha256:stale".toList).normalForm
      (some "sha256:stale".toList)).computeId sha256Digest = tidySession.computeId sha256Digest :=
    computeId_declaring ExactFloat.documented _ _ rfl tidySession_trimmed
      (List.pairwise_singleton _ _)
  have accepted := accepted_servedUnder (E := Str) read computed
    (by decide : '/' ∉ "127.0.0.1".toList) 8080
  refine ⟨_, _, accepted.fetched, fun verified => ?_⟩
  rcases verified with absent | hash
  · cases absent
  · have size := congrArg List.length (Option.some.inj hash)
    rw [length_computeId] at size
    exact absurd size (by decide)

end Simulboot
