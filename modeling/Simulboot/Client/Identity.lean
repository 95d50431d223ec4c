import Simulboot.Client.Parking

/-!
# Images by their id

The id in a URL stands for the content of one image: whatever a server answers,
the client accepts no document of other content.
-/

set_option autoImplicit false

namespace Simulboot

open Library Library.Xml Library.Http

variable {F : Type} [Zero F] [RustFloat F] {E : Type}

/-- No collision between two images. -/
def Distinguishes (sha256 : Sha256) (a b : SessionImage F) : Prop :=
  sha256 a.canonicalBytes = sha256 b.canonicalBytes → a.canonicalBytes = b.canonicalBytes

private theorem surfaceId_bytes_injective : Function.Injective SurfaceId.bytes := by
  rintro ⟨left, _⟩ ⟨right, _⟩ same
  simpa using same

private theorem hex_canonicalBytes_eq_iff {sha256 : Sha256} {a b : SessionImage F}
    (distinguishes : Distinguishes sha256 a b) :
    hexEncode (sha256 a.canonicalBytes).bytes = hexEncode (sha256 b.canonicalBytes).bytes ↔
      a.canonicalBytes = b.canonicalBytes := by
  rw [hexEncode_injective.eq_iff, surfaceId_bytes_injective.eq_iff]
  exact ⟨distinguishes, congrArg sha256⟩

private theorem computeId_eq_iff {sha256 : Sha256} {a b : SessionImage F}
    (distinguishes : Distinguishes sha256 a b) :
    a.computeId sha256 = b.computeId sha256 ↔ a.canonicalBytes = b.canonicalBytes := by
  unfold SessionImage.computeId
  rw [List.append_cancel_left_eq, hex_canonicalBytes_eq_iff distinguishes]

/-- An id that two images answer to is the id of both. -/
theorem canonicalBytes_eq_of_idMatches {sha256 : Sha256} {a b : SessionImage F} {requested : Str}
    (distinguishes : Distinguishes sha256 a b)
    (named : idMatches requested (a.computeId sha256) = true)
    (passed : idMatches requested (b.computeId sha256) = true) :
    a.canonicalBytes = b.canonicalBytes := by
  have mixed : ∀ one other : SessionImage F,
      one.computeId sha256 ≠ hexEncode (sha256 other.canonicalBytes).bytes := by
    intro one other same
    have colon : ':' ∈ one.computeId sha256 :=
      List.mem_append_left _ (by decide)
    rw [same] at colon
    exact absurd (mem_hexEncode colon) (by decide)
  rw [idMatches_computeId] at named passed
  rcases named with rfl | rfl
  · rcases passed with full | bare
    · exact (computeId_eq_iff distinguishes).mp full
    · exact absurd bare (mixed a b)
  · rcases passed with full | bare
    · exact absurd full.symm (mixed b a)
    · exact (hex_canonicalBytes_eq_iff distinguishes).mp bare

/-- The canonical form determines the content, so where the hash has no collision
between two images the id does, and a fetch for the one never yields the other
unless their contents agree. -/
theorem id_stands_for_content (laws : RustFloat.Documented F) (a b : SessionImage F)
    (number : RustFloat.isNaN a.layout.scrollPos = false) :
    (a.canonicalBytes = b.canonicalBytes ↔ SameContent a b) ∧
      ∀ sha256 : Sha256, Distinguishes sha256 a b →
        (a.computeId sha256 = b.computeId sha256 ↔ SameContent a b) ∧
        ∀ (xml : QuickXml) (network : Network) (url host path : Str) (port : UInt16),
          parseHttpUrl (E := E) url = .ok (host, port, path) →
          idMatches (urlId path) (a.computeId sha256) = true →
          fetchImage (E := E) sha256 xml network url = .ok b → SameContent a b := by
  have content := canonicalBytes_eq_iff_sameContent laws (b := b) number
  refine ⟨content, fun sha256 distinguishes => ⟨?_, ?_⟩⟩
  · rw [computeId_eq_iff distinguishes, content]
  · intro xml network url host path port parsed named fetched
    obtain ⟨_, _, _, _, _, parsedAgain, _, _, _, passed⟩ := fetchImage_eq_ok fetched
    obtain ⟨rfl, rfl, rfl⟩ := by simpa [parsed] using parsedAgain
    exact content.mp (canonicalBytes_eq_of_idMatches distinguishes named passed)

theorem tidySession_stands_for_content :
    let url := sessionUrl "127.0.0.1".toList 8080 (tidySession.declaredId sha256Digest)
    let network := Network.only "127.0.0.1".toList 8080 (tidySession.served sha256Digest)
    let back := tidySession.normalForm tidySession.id
    fetchImage (E := Str) sha256Digest Scanner.quickXml network url = .ok back ∧
      (tidySession.computeId sha256Digest = back.computeId sha256Digest ↔
        SameContent tidySession back) ∧
      SameContent tidySession back := by
  intro url network back
  have number : RustFloat.isNaN tidySession.layout.scrollPos = false := rfl
  have noSlash : '/' ∉ "127.0.0.1".toList := by decide
  have named : tidySession.SelfNamed sha256Digest := withComputedId_selfNamed _ _
  have ordered : tidySession.Ordered := List.pairwise_singleton _ _
  have computed : back.computeId sha256Digest = tidySession.computeId sha256Digest :=
    SessionImage.computeId_normalForm ExactFloat.documented _ _ number tidySession_trimmed ordered
  have matched : idMatches (tidySession.computeId sha256Digest)
      (tidySession.computeId sha256Digest) = true := idMatches_computeId.mpr (.inl rfl)
  have fetched : fetchImage (E := Str) sha256Digest Scanner.quickXml network url = .ok back :=
    (fetchImage_parked Scanner.documented ExactFloat.documented named number noSlash
      (Network.only_reaches _ _ _)).mpr ⟨rfl, by rw [computed]; exact matched⟩
  have same := (canonicalBytes_eq_iff_sameContent ExactFloat.documented (b := back) number).mpr
    ⟨rfl, rfl, ((SessionImage.normalForm_surfaces_eq_iff _).mpr
      ⟨tidySession_trimmed, ordered⟩).symm, rfl, rfl⟩
  obtain ⟨byId, byFetch⟩ := (id_stands_for_content (E := Str) ExactFloat.documented tidySession
    back number).2 sha256Digest fun _ => same
  refine ⟨fetched, byId, byFetch _ _ url _ _ _ (parseHttpUrl_sessionUrl noSlash _ _) ?_ fetched⟩
  rw [named.declaredId_eq, urlId_computeId]
  exact matched

end Simulboot
