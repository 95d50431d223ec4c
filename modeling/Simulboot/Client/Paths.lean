import Simulboot.Client.Identity

/-!
# The path of a session

The broker looks behind `/session/` and trims slashes off the end, the client
looks behind the last slash. They read one id out of a path that ends with it.
-/

set_option autoImplicit false

namespace Simulboot

open Library Library.Xml Library.Http

/-! ## Slashes at the end -/

private theorem eq_rdropWhile_append (text : Str) (mark : Char) :
    ∃ n, text = text.rdropWhile (· = mark) ++ List.replicate n mark := by
  have marks : ∀ c ∈ text.rtakeWhile (· = mark), c = mark := fun c member => by
    simpa using List.mem_rtakeWhile_imp member
  refine ⟨(text.rtakeWhile (· = mark)).length, ?_⟩
  rw [← List.eq_replicate_of_mem marks]
  exact List.rdropWhile_append_rtakeWhile.symm

private theorem rdropWhile_append_replicate {name : Str} {mark : Char} (absent : mark ∉ name) (n : Nat) :
    (name ++ List.replicate n mark).rdropWhile (· = mark) = name := by
  induction n with
  | zero =>
      rw [List.replicate_zero, List.append_nil, List.rdropWhile_eq_self_iff]
      intro nonempty last
      have ends : name.getLast nonempty = mark := by simpa using last
      exact absent (ends ▸ List.getLast_mem nonempty)
  | succ n ih =>
      rw [List.replicate_succ', ← List.append_assoc, List.rdropWhile_concat_pos _ _ _ (by simp), ih]

/-! ## The two readings -/

section

variable {served : ServedImage} (noSlash : '/' ∉ served.id)

include noSlash

private theorem bareHex_noSlash : '/' ∉ served.bareHex := by
  unfold ServedImage.bareHex
  cases stripped : stripPrefix "sha256:".toList served.id with
  | none => exact noSlash
  | some bare =>
      rw [stripPrefix_eq_some_iff] at stripped
      intro slash
      rw [stripped] at noSlash
      exact noSlash (List.mem_append_right _ slash)

omit noSlash in
theorem route_eq_ok {path : Str} :
    route "GET".toList path served = .ok ↔
      ∃ rest, path = sessionPath rest ∧ served.isNamedBy (rest.rdropWhile (· = '/')) = true := by
  unfold route sessionPath
  rw [if_neg (not_not_intro rfl)]
  cases stripped : stripPrefix "/session/".toList path with
  | none =>
      refine iff_of_false (fun found => by cases found) fun ⟨rest, same, _⟩ => ?_
      rw [stripPrefix_eq_some_iff.mpr same] at stripped
      cases stripped
  | some rest =>
      have path_eq := stripPrefix_eq_some_iff.mp stripped
      cases named : served.isNamedBy (rest.rdropWhile (· = '/')) with
      | true => exact iff_of_true (if_pos named) ⟨rest, path_eq, named⟩
      | false =>
          refine iff_of_false (fun found => ?_) fun ⟨other, same, otherNamed⟩ => ?_
          · simp [named] at found
          · rw [path_eq, List.append_cancel_left_eq] at same
            rw [← same, named] at otherNamed
            cases otherNamed

omit noSlash in
theorem isNamedBy_iff {requested : Str} :
    served.isNamedBy requested = true ↔ requested = served.id ∨ requested = served.bareHex := by
  unfold ServedImage.isNamedBy
  rw [Bool.or_eq_true, decide_eq_true_eq, decide_eq_true_eq]

/-- The broker answers to the two names of an image, with slashes behind them. -/
theorem route_ok_iff {path : Str} :
    route "GET".toList path served = .ok ↔
      ∃ name, (name = served.id ∨ name = served.bareHex) ∧
        ∃ n, path = sessionPath name ++ List.replicate n '/' := by
  rw [route_eq_ok]
  constructor
  · intro ⟨rest, same, named⟩
    obtain ⟨n, split⟩ := eq_rdropWhile_append rest '/'
    refine ⟨_, isNamedBy_iff.mp named, n, ?_⟩
    unfold sessionPath at same ⊢
    rw [same, List.append_assoc, ← split]
  · intro ⟨name, either, n, same⟩
    have here : '/' ∉ name := by
      obtain rfl | rfl := either
      · exact noSlash
      · exact bareHex_noSlash noSlash
    refine ⟨name ++ List.replicate n '/', ?_, ?_⟩
    · unfold sessionPath at same ⊢
      rw [same, List.append_assoc]
    · rwa [rdropWhile_append_replicate here, isNamedBy_iff]

end

private theorem urlId_slashes (name : Str) (n : Nat) :
    urlId (sessionPath name ++ List.replicate (n + 1) '/') = [] := by
  have split : sessionPath name ++ List.replicate (n + 1) '/' =
      (sessionPath name ++ List.replicate n '/') ++ '/' :: [] := by
    rw [List.replicate_succ', List.append_assoc]
  unfold urlId
  rw [split, rsplitOnce_append List.not_mem_nil]

variable {F : Type} [Zero F] [RustFloat F]

/-- An image is served under the content id of the document in its body. -/
structure Serves (sha256 : Sha256) (xml : QuickXml) (served : ServedImage) (text : Str)
    (image : SessionImage F) : Prop where
  body : served.body = utf8 text
  read : SessionImage.fromXml xml text = .ok image
  id : served.id = image.computeId sha256

/-- What the broker answers under a path passes the client's comparison. -/
def PathAgrees (sha256 : Sha256) (served : ServedImage) (image : SessionImage F) (path : Str) :
    Prop :=
  route "GET".toList path served = .ok →
    idMatches (urlId path) (image.computeId sha256) = true

variable {sha256 : Sha256} {xml : QuickXml}

private theorem bareHex_eq {served : ServedImage} {image : SessionImage F}
    (same : served.id = image.computeId sha256) :
    served.bareHex = hexEncode (sha256 image.canonicalBytes).bytes := by
  unfold ServedImage.bareHex SessionImage.computeId at *
  rw [same, stripPrefix_append]
  rfl

private theorem idMatches_nil (image : SessionImage F) :
    idMatches [] (image.computeId sha256) = false := by
  rw [Bool.eq_false_iff]
  intro matched
  obtain full | bare := idMatches_computeId.mp matched
  · have size := length_computeId sha256 image
    rw [← full] at size
    cases size
  · have size := congrArg List.length bare
    rw [length_hexEncode, (sha256 image.canonicalBytes).length_eq] at size
    cases size

/-- The two agree on every path but those of the image with a slash behind. -/
theorem pathAgrees_iff {served : ServedImage} {text : Str} {image : SessionImage F}
    (serves : Serves sha256 xml served text image) (path : Str) :
    PathAgrees sha256 served image path ↔
      ¬ ∃ name, (name = served.id ∨ name = served.bareHex) ∧
        ∃ n, path = sessionPath name ++ List.replicate (n + 1) '/' := by
  have noSlash : '/' ∉ served.id := by
    rw [serves.id]
    exact fun slash => (computeId_idChar sha256 image _ slash).2.2 rfl
  unfold PathAgrees
  rw [route_ok_iff noSlash]
  constructor
  · rintro agrees ⟨name, either, n, rfl⟩
    have matched := agrees ⟨name, either, n + 1, rfl⟩
    rw [urlId_slashes, idMatches_nil] at matched
    cases matched
  · rintro elsewhere ⟨name, either, n, rfl⟩
    cases n with
    | zero =>
        have here : '/' ∉ name := by
          obtain rfl | rfl := either
          · exact noSlash
          · exact bareHex_noSlash noSlash
        rw [List.replicate_zero, List.append_nil, urlId_sessionPath here, idMatches_computeId,
          ← serves.id, ← bareHex_eq serves.id]
        exact either
    | succ n => exact absurd ⟨name, either, n, rfl⟩ elsewhere

theorem tidySession_serves :
    Serves sha256Digest Scanner.quickXml (tidySession.served sha256Digest)
      (tidySession.toXml sha256Digest) (tidySession.normalForm tidySession.id) := by
  have number : RustFloat.isNaN tidySession.layout.scrollPos = false := rfl
  have named : tidySession.SelfNamed sha256Digest := withComputedId_selfNamed _ _
  refine ⟨rfl, fromXml_toXml Scanner.documented ExactFloat.documented sha256Digest tidySession
    number, ?_⟩
  rw [served_id, named.declaredId_eq]
  exact (SessionImage.computeId_normalForm ExactFloat.documented _ _ number tidySession_trimmed
    (List.pairwise_singleton _ _)).symm

private theorem tidySession_noSlash : '/' ∉ (tidySession.served sha256Digest).id := by
  rw [tidySession_serves.id]
  exact fun slash => (computeId_idChar _ _ _ slash).2.2 rfl

theorem tidySession_pathAgrees :
    PathAgrees sha256Digest (tidySession.served sha256Digest)
      (tidySession.normalForm tidySession.id)
      (sessionPath (tidySession.served sha256Digest).bareHex) := by
  refine (pathAgrees_iff tidySession_serves _).mpr fun ⟨name, _, n, same⟩ => ?_
  have last := congrArg urlId same
  rw [urlId_slashes, urlId_sessionPath (bareHex_noSlash tidySession_noSlash),
    bareHex_eq tidySession_serves.id] at last
  have size := congrArg List.length last
  rw [length_hexEncode, (sha256Digest _).length_eq] at size
  cases size

/-- A slash behind the id. -/
theorem slash_disagrees :
    let served := tidySession.served sha256Digest
    let image := tidySession.normalForm tidySession.id
    Serves sha256Digest Scanner.quickXml served (tidySession.toXml sha256Digest) image ∧
      ¬ PathAgrees sha256Digest served image (sessionPath served.id ++ ['/']) := by
  intro served image
  refine ⟨tidySession_serves, fun agrees => ?_⟩
  have answered : route "GET".toList (sessionPath served.id ++ ['/']) served = .ok :=
    (route_ok_iff tidySession_noSlash).mpr ⟨_, .inl rfl, 1, rfl⟩
  have last : urlId (sessionPath served.id ++ ['/']) = [] := urlId_slashes served.id 0
  have matched := agrees answered
  rw [last, idMatches_nil] at matched
  cases matched

end Simulboot
