import Simulboot.Client.Paths

/-!
# The standalone broker

The broker's own program: it reads a document from a file and serves it under the id
that the document declares, where a client recomputes the id from the content.
-/

set_option autoImplicit false

namespace Simulboot

open Library Library.Xml Library.Http

variable {F : Type} [Zero F] [RustFloat F] {E : Type}

namespace Standalone

structure Config where
  imagePath : Str
  bind : Str
  port : UInt16

/-- What is advertised and served, given what reading the file returned. -/
def run (F : Type) [Zero F] [RustFloat F] (sha256 : Sha256) (xml : QuickXml) (cfg : Config)
    (file : Except Str Str) : Except (AnyhowError E) (Str × ServedImage) := do
  let text ← withContext [.text ("reading session image ".toList ++ cfg.imagePath)]
    (file.mapError .std)
  let image : SessionImage F ← withContext [.text "parsing session image".toList]
    ((SessionImage.fromXml xml text).mapError .session)
  let id := image.id.getD (image.computeId sha256)
  return (sessionUrl cfg.bind cfg.port id, .newXml id (utf8 text))

variable {sha256 : Sha256} {xml : QuickXml}

theorem run_eq_ok {cfg : Config} {text : Str} {image : SessionImage F}
    (read : SessionImage.fromXml xml text = .ok image) :
    run (E := E) F sha256 xml cfg (.ok text) =
      .ok (sessionUrl cfg.bind cfg.port (image.declaredId sha256),
        .newXml (image.declaredId sha256) (utf8 text)) := by
  unfold run
  simp only [Except.mapError, withContext, bind, Except.bind, read]
  rfl

/-- Whoever reaches the broker at the advertised path is answered with the document,
and a client that fetches it takes it for a session. -/
def Resumable (E F : Type) [Zero F] [RustFloat F] (sha256 : Sha256) (xml : QuickXml)
    (text : Str) : Prop :=
  ∀ cfg advertised served,
    run (E := E) F sha256 xml cfg (.ok text) = .ok (advertised, served) →
      advertised = sessionUrl cfg.bind cfg.port served.id ∧
      ∀ (network : Network) (host : Str) (port : UInt16), '/' ∉ host →
        network.Reaches host port served →
          httpGet (E := E) network host port (sessionPath served.id) = .ok (utf8 text) ∧
          ∃ image : SessionImage F,
            fetchImage (E := E) sha256 xml network (sessionUrl host port served.id) = .ok image

/-- A declared id that ends, behind any slash, with a name of the content; that no
blank cuts; and that fits into the head that the broker reads. -/
structure Resolves (sha256 : Sha256) (image : SessionImage F) (declared : Str) : Prop where
  named : ∃ lead name, declared = lead ++ name ∧ (lead = [] ∨ lead.getLast? = some '/') ∧
    (name = image.computeId sha256 ∨ name = hexEncode (sha256 image.canonicalBytes).bytes)
  solid : ∀ c ∈ declared, isWhitespace c = false
  short : (utf8 ("GET ".toList ++ sessionPath declared)).length ≤ maxHeadLen + 1

/-! ## Ids that resolve -/

private theorem idMatches_iff_named {image : SessionImage F} {declared : Str} :
    idMatches (urlId (sessionPath declared)) (image.computeId sha256) = true ↔
      ∃ lead name, declared = lead ++ name ∧ (lead = [] ∨ lead.getLast? = some '/') ∧
        (name = image.computeId sha256 ∨
          name = hexEncode (sha256 image.canonicalBytes).bytes) := by
  have noSlash : ∀ name, (name = image.computeId sha256 ∨
      name = hexEncode (sha256 image.canonicalBytes).bytes) → '/' ∉ name := by
    have full : '/' ∉ image.computeId sha256 := fun slash =>
      (computeId_idChar sha256 image _ slash).2.2 rfl
    rintro name (rfl | rfl)
    · exact full
    · exact fun slash => full (List.mem_append_right _ slash)
  rw [idMatches_computeId]
  constructor
  · intro named
    have absent := noSlash _ named
    cases split : rsplitOnce '/' declared with
    | none =>
        have whole : urlId (sessionPath declared) = declared :=
          urlId_sessionPath (rsplitOnce_eq_none_iff.mp split)
        exact ⟨[], declared, rfl, .inl rfl, whole ▸ named⟩
    | some parts =>
        obtain ⟨before, name⟩ := parts
        obtain ⟨rfl, behind⟩ := rsplitOnce_eq_some split
        have last : urlId (sessionPath (before ++ '/' :: name)) = name := by
          unfold urlId sessionPath
          rw [← List.append_assoc, rsplitOnce_append behind]
        refine ⟨before ++ ['/'], name, by simp, .inr (by simp), last ▸ named⟩
  · rintro ⟨lead, name, rfl, front, named⟩
    have last : urlId (sessionPath (lead ++ name)) = name := by
      obtain rfl | slash := front
      · exact urlId_sessionPath (noSlash name named)
      · obtain ⟨before, rfl⟩ := List.getLast?_eq_some_iff.mp slash
        unfold urlId sessionPath
        rw [List.append_assoc, List.singleton_append, ← List.append_assoc,
          rsplitOnce_append (noSlash name named)]
    rw [last]
    exact named

private theorem ends_of_named {image : SessionImage F} {declared : Str}
    (named : idMatches (urlId (sessionPath declared)) (image.computeId sha256) = true) :
    ∃ front c d, declared = front ++ [c, d] ∧ c ∈ hexAlphabet ∧ d ∈ hexAlphabet := by
  have digits : ∃ front c d, hexEncode (sha256 image.canonicalBytes).bytes = front ++ [c, d] ∧
      c ∈ hexAlphabet ∧ d ∈ hexAlphabet := by
    have size : (hexEncode (sha256 image.canonicalBytes).bytes).length = 64 := by
      rw [length_hexEncode, (sha256 image.canonicalBytes).length_eq]
    have split := List.take_append_drop 62 (hexEncode (sha256 image.canonicalBytes).bytes)
    have two : ((hexEncode (sha256 image.canonicalBytes).bytes).drop 62).length = 2 := by
      rw [List.length_drop, size]
    obtain ⟨c, d, last⟩ := List.length_eq_two.mp two
    rw [last] at split
    have inside : ∀ e ∈ [c, d], e ∈ hexAlphabet := by
      intro e member
      exact mem_hexEncode (split ▸ List.mem_append_right _ member)
    exact ⟨_, c, d, split.symm, inside c (by simp), inside d (by simp)⟩
  obtain ⟨front, c, d, hex, first, second⟩ := digits
  obtain ⟨lead, name, split, _, either⟩ := idMatches_iff_named.mp named
  cases either with
  | inl full =>
      refine ⟨lead ++ ("sha256:".toList ++ front), c, d, ?_, first, second⟩
      unfold SessionImage.computeId at full
      rw [split, full, hex, List.append_assoc, List.append_assoc]
  | inr bare =>
      refine ⟨lead ++ front, c, d, ?_, first, second⟩
      rw [split, bare, hex, List.append_assoc]

private theorem Resolves.isAddress {image : SessionImage F} {declared : Str}
    (resolves : Resolves sha256 image declared) : IsAddress declared := by
  obtain ⟨front, c, d, rfl, _, digit⟩ := ends_of_named (idMatches_iff_named.mpr resolves.named)
  refine ⟨resolves.solid, fun slash => ?_, resolves.short⟩
  have same : d = '/' := by simpa using slash
  exact absurd (same ▸ digit) (by decide)

/-! ## Ids that do not -/

private theorem bareHex_cases (served : ServedImage) :
    served.bareHex = served.id ∨ served.id = "sha256:".toList ++ served.bareHex := by
  unfold ServedImage.bareHex
  cases stripped : stripPrefix "sha256:".toList served.id with
  | none => exact .inl rfl
  | some bare => exact .inr (stripPrefix_eq_some_iff.mp stripped)

private theorem route_notFound {served : ServedImage} {rest : Str}
    (other : served.isNamedBy (rest.rdropWhile (· = '/')) = false) :
    route "GET".toList (sessionPath rest) served = .notFound := by
  unfold route sessionPath
  rw [if_neg (not_not_intro rfl), stripPrefix_append]
  simp only [other, Bool.false_eq_true, ↓reduceIte]

private theorem not_named_of_blank {served : ServedImage} {word : Str} {blank : Char}
    (inside : blank ∈ served.id) (separates : isWhitespace blank = true)
    (solid : ∀ c ∈ word, isWhitespace c = false) :
    served.isNamedBy (word.rdropWhile (· = '/')) = false := by
  have absent : blank ∉ word.rdropWhile (· = '/') := fun member =>
    not_mem_of_solid solid separates ((List.rdropWhile_prefix _ _).subset member)
  rw [Bool.eq_false_iff]
  intro named
  obtain same | same := isNamedBy_iff.mp named
  · exact absent (same ▸ inside)
  · rw [same] at absent
    obtain equal | front := bareHex_cases served
    · exact absent (equal ▸ inside)
    · rw [front] at inside
      obtain mark | bare := List.mem_append.mp inside
      · exact absurd (by decide : ∀ c ∈ "sha256:".toList, isWhitespace c = false)
          fun plain => by rw [plain blank mark] at separates; cases separates
      · exact absent bare

private theorem not_named_of_cut {served : ServedImage} {front : Str} {c d : Char}
    (id : served.id = front ++ [c, d]) (noSlash : c ≠ '/') :
    served.isNamedBy ((front ++ [c]).rdropWhile (· = '/')) = false := by
  rw [List.rdropWhile_concat_neg _ _ _ (by simpa using noSlash), Bool.eq_false_iff]
  intro named
  have size : served.id.length = front.length + 2 := by simp [id]
  obtain same | same := isNamedBy_iff.mp named
  · rw [← same] at size
    simp at size
  · obtain equal | mark := bareHex_cases served
    · rw [← equal, ← same] at size
      simp at size
    · have seven : "sha256:".toList.length = 7 := by decide
      have longer := congrArg List.length mark
      rw [List.length_append, seven, ← same, size] at longer
      simp at longer
      omega

/-! ## Sessions that can be resumed -/

section

variable {text : Str} {image : SessionImage F} (read : SessionImage.fromXml xml text = .ok image)

include read

private theorem resumable_of_address (address : IsAddress (image.declaredId sha256))
    (named : idMatches (urlId (sessionPath (image.declaredId sha256)))
      (image.computeId sha256) = true) : Resumable E F sha256 xml text := by
  intro cfg advertised served ran
  rw [run_eq_ok read] at ran
  cases ran
  refine ⟨rfl, fun network host port noSlash reaches => ?_⟩
  have got := httpGet_served (E := E) reaches address (newXml_contentType _ _)
  exact ⟨got, image, fetchImage_of_document (parseHttpUrl_sessionUrl noSlash port _) got read named⟩

private theorem Resumable.fetched (resumable : Resumable E F sha256 xml text) {network : Network}
    {host : Str} {port : UInt16} (noSlash : '/' ∉ host)
    (reaches : network.Reaches host port (.newXml (image.declaredId sha256) (utf8 text))) :
    httpGet (E := E) network host port (sessionPath (image.declaredId sha256)) =
        .ok (utf8 text) ∧
      idMatches (urlId (sessionPath (image.declaredId sha256))) (image.computeId sha256) = true := by
  obtain ⟨_, reachable⟩ := resumable ⟨[], [], 0⟩ _ _ (run_eq_ok read)
  obtain ⟨got, fetched, accepted⟩ := reachable network host port noSlash reaches
  refine ⟨got, ?_⟩
  obtain ⟨_, _, _, body, document, parsed, gotAgain, decoded, readAgain, passed⟩ :=
    fetchImage_eq_ok accepted
  rw [ServedImage.newXml] at parsed got
  rw [parseHttpUrl_sessionUrl noSlash] at parsed
  cases parsed
  cases got.symm.trans gotAgain
  rw [fromUtf8_utf8] at decoded
  cases decoded
  cases read.symm.trans readAgain
  exact passed

private theorem Resumable.not_cut (resumable : Resumable E F sha256 xml text) {path rest : Str}
    {front after : Bytes}
    (request : utf8 (getRequest [] (sessionPath (image.declaredId sha256))) = front ++ after)
    (enough : after = [] ∨ maxHeadLen < front.length)
    (bytes : front = utf8 ("GET ".toList ++ sessionPath path ++ rest))
    (solid : ∀ c ∈ path, isWhitespace c = false) (ends : ∀ c ∈ rest.head?, isWhitespace c = true)
    (other : (ServedImage.newXml (image.declaredId sha256) (utf8 text)).isNamedBy
      (path.rdropWhile (· = '/')) = false) : False := by
  have some : front ≠ [] := by
    rw [bytes]
    exact fun empty => absurd (utf8_eq_nil_iff.mp empty) (by simp)
  let served := ServedImage.newXml (image.declaredId sha256) (utf8 text)
  have cutting : ∃ chunks, readHead [] chunks = front ∧
      httpGet (E := E) (Network.cutting [] 0 served front.length) [] 0 _ =
        responseBody (handleConnection chunks served) := httpGet_cutting request some rfl enough
  obtain ⟨chunks, taken, got⟩ := cutting
  have decoded : fromUtf8Lossy (readHead [] chunks) = "GET ".toList ++ sessionPath path ++ rest := by
    rw [taken, bytes, fromUtf8Lossy_utf8]
  rw [handleConnection_of_head _ decoded (by rw [sessionPath_eq_cons]; simp)
    (sessionPath_solid solid) ends, route_notFound other] at got
  have answered := (resumable.fetched read List.not_mem_nil
    (Network.cutting_reaches [] 0 _ front.length)).1
  exact responseBody_notFound _ _ (got.symm.trans answered)

private theorem Resumable.solid (resumable : Resumable E F sha256 xml text) :
    ∀ c ∈ image.declaredId sha256, isWhitespace c = false := by
  by_contra blanks
  have found : ((image.declaredId sha256).find? isWhitespace).isSome = true := by
    rw [List.find?_isSome]
    simpa using blanks
  obtain ⟨blank, first⟩ := Option.isSome_iff_exists.mp found
  obtain ⟨separates, word, after, split, solid⟩ := List.find?_eq_some_iff_append.mp first
  have wordSolid : ∀ c ∈ word, isWhitespace c = false := fun c member => by simpa using solid c member
  have inside : blank ∈ image.declaredId sha256 := by
    rw [split]
    simp
  have bytes : utf8 (getRequest [] (sessionPath (image.declaredId sha256))) =
      utf8 ("GET ".toList ++ sessionPath word ++ blank :: (after ++ (" HTTP/1.1".toList ++
        ("\r\nHost: ".toList ++ "\r\nConnection: close\r\nAccept: */*\r\n\r\n".toList)))) := by
    rw [getRequest_eq, split]
    unfold requestLine sessionPath
    simp only [List.append_assoc, List.cons_append, List.nil_append]
  exact resumable.not_cut read (List.append_nil _).symm (.inl rfl) bytes wordSolid
    (by simpa using separates) (not_named_of_blank inside separates wordSolid)

private theorem Resumable.short (resumable : Resumable E F sha256 xml text) :
    (utf8 ("GET ".toList ++ sessionPath (image.declaredId sha256))).length ≤ maxHeadLen + 1 := by
  by_contra long
  obtain ⟨_, named⟩ := resumable.fetched read List.not_mem_nil (Network.only_reaches [] 0 _)
  obtain ⟨front, c, d, ends, digit, last⟩ := ends_of_named named
  have single : ∀ d ∈ hexAlphabet, (utf8 [d]).length = 1 := by decide
  have noSlash : c ≠ '/' := by
    rintro rfl
    exact absurd digit (by decide)
  have solid : ∀ e ∈ front ++ [c], isWhitespace e = false := by
    intro e member
    refine resumable.solid read e ?_
    rw [ends]
    simp only [List.mem_append, List.mem_cons, List.not_mem_nil, or_false] at member ⊢
    exact member.imp_right .inl
  have split : "GET ".toList ++ sessionPath (image.declaredId sha256) =
      ("GET ".toList ++ sessionPath (front ++ [c]) ++ []) ++ [d] := by
    rw [ends]
    unfold sessionPath
    simp only [List.append_assoc, List.cons_append, List.nil_append]
  have size := congrArg (fun line => (utf8 line).length) split
  simp only [utf8_append _ [d], List.length_append, single d last] at size
  have request : utf8 (getRequest [] (sessionPath (image.declaredId sha256))) =
      utf8 ("GET ".toList ++ sessionPath (front ++ [c]) ++ []) ++ utf8 ([d] ++
        (" HTTP/1.1".toList ++ ("\r\nHost: ".toList ++
          "\r\nConnection: close\r\nAccept: */*\r\n\r\n".toList))) := by
    rw [getRequest_eq, requestLine, split, ← utf8_append]
    simp only [List.append_assoc, List.nil_append]
  exact resumable.not_cut read request (.inr (by omega)) rfl solid (by simp)
    (not_named_of_cut ends noSlash)

/-- The standalone broker can be resumed from, unless the document declares an id that
does not resolve to it. -/
theorem resumable_iff :
    Resumable E F sha256 xml text ↔ ∀ declared ∈ image.id, Resolves sha256 image declared := by
  constructor
  · intro resumable declared present
    have served : image.declaredId sha256 = declared := by
      unfold SessionImage.declaredId
      rw [present, Option.getD_some]
    have solid := resumable.solid read
    have short := resumable.short read
    have named := (resumable.fetched read List.not_mem_nil (Network.only_reaches [] 0 _)).2
    rw [served] at solid short named
    exact ⟨idMatches_iff_named.mp named, solid, short⟩
  · intro resolves
    cases declared : image.id with
    | none =>
        have served : image.declaredId sha256 = image.computeId sha256 := by
          unfold SessionImage.declaredId
          rw [declared, Option.getD_none]
        refine resumable_of_address read ?_ ?_
        · rw [served]
          exact computeId_isAddress sha256 image
        · rw [served, urlId_computeId]
          exact idMatches_computeId.mpr (.inl rfl)
    | some id =>
        have served : image.declaredId sha256 = id := by
          unfold SessionImage.declaredId
          rw [declared, Option.getD_some]
        have resolved := resolves id declared
        refine resumable_of_address read ?_ ?_
        · rw [served]
          exact resolved.isAddress
        · rw [served]
          exact idMatches_iff_named.mpr resolved.named

end

theorem tidySession_resumable :
    Resumable Str ℚ sha256Digest Scanner.quickXml (tidySession.toXml sha256Digest) := by
  refine (resumable_iff tidySession_serves.read).mpr fun declared present => ?_
  have named : tidySession.SelfNamed sha256Digest := withComputedId_selfNamed _ _
  have own : declared = (tidySession.normalForm tidySession.id).computeId sha256Digest := by
    have same : tidySession.id = some declared := present
    rw [← tidySession_serves.id, served_id, SessionImage.declaredId, same, Option.getD_some]
  have address := computeId_isAddress sha256Digest (tidySession.normalForm tidySession.id)
  rw [← own] at address
  exact ⟨⟨[], declared, rfl, .inl rfl, .inl own⟩, address.solid, address.short⟩

/-- A document whose id was written by hand. -/
theorem draftSession_not_resumable :
    let text := { tidySession with id := some "sha256:draft".toList }.toXml sha256Digest
    (∃ image : SessionImage ℚ, SessionImage.fromXml Scanner.quickXml text = .ok image) ∧
      ¬ Resumable Str ℚ sha256Digest Scanner.quickXml text := by
  intro text
  have read := fromXml_toXml Scanner.documented ExactFloat.documented sha256Digest
    { tidySession with id := some "sha256:draft".toList } rfl
  refine ⟨⟨_, read⟩, fun resumable => ?_⟩
  obtain ⟨_, named⟩ := resumable.fetched read List.not_mem_nil (Network.only_reaches [] 0 _)
  obtain ⟨front, c, d, ends, _, last⟩ := ends_of_named named
  have final : "sha256:draft".toList.getLast? = some d := by
    have declared : "sha256:draft".toList = front ++ [c, d] := ends
    rw [declared]
    simp
  obtain rfl : 't' = d := by simpa using final
  exact absurd last (by decide)

end Standalone

end Simulboot
