import Simulboot.Client.Exchange
import Simulboot.Session.NormalForm

/-!
# Parking an image

The image that the broker serves after suspension, and what a client gets that
fetches it by its URL.
-/

set_option autoImplicit false

namespace Simulboot

open Library Library.Xml Library.Http

variable {F : Type} [Zero F] [RustFloat F] {E : Type}

/-- The id that an image is served under and printed with. -/
def SessionImage.declaredId (sha256 : Sha256) (img : SessionImage F) : Str :=
  img.id.getD (img.computeId sha256)

/-- What is handed to the broker on suspension. -/
def SessionImage.served (sha256 : Sha256) (img : SessionImage F) : ServedImage :=
  .newXml (img.declaredId sha256) (utf8 (img.toXml sha256))

theorem served_id (sha256 : Sha256) (img : SessionImage F) :
    (img.served sha256).id = img.declaredId sha256 := rfl

private theorem served_body (sha256 : Sha256) (img : SessionImage F) :
    (img.served sha256).body = utf8 (img.toXml sha256) := rfl

theorem newXml_contentType (id : Str) (body : Bytes) :
    ∀ c ∈ (ServedImage.newXml id body).contentType, c.toNat < 128 ∧ c ≠ '\r' := by
  have literal : ∀ c ∈ "application/xml; charset=utf-8".toList, c.toNat < 128 ∧ c ≠ '\r' := by
    decide
  exact literal

/-- The image carries its own content id, as every checkpoint does. -/
def SessionImage.SelfNamed (sha256 : Sha256) (img : SessionImage F) : Prop :=
  img.id = some (img.computeId sha256)

private theorem computeId_withComputedId (sha256 : Sha256) (img : SessionImage F) :
    (img.withComputedId sha256).computeId sha256 = img.computeId sha256 := rfl

theorem withComputedId_selfNamed (sha256 : Sha256) (img : SessionImage F) :
    (img.withComputedId sha256).SelfNamed sha256 := by
  unfold SessionImage.SelfNamed
  rw [computeId_withComputedId]
  rfl

variable {sha256 : Sha256} {img : SessionImage F}

theorem SessionImage.SelfNamed.declaredId_eq (named : img.SelfNamed sha256) :
    img.declaredId sha256 = img.computeId sha256 := by
  unfold SelfNamed at named
  unfold declaredId
  rw [named, Option.getD_some]

theorem SessionImage.SelfNamed.renamed_eq (named : img.SelfNamed sha256) :
    { img with id := some (img.computeId sha256) } = img := by
  unfold SelfNamed at named
  rw [← named]

theorem route_served (named : img.SelfNamed sha256) :
    route "GET".toList (sessionPath (img.declaredId sha256)) (img.served sha256) = .ok := by
  rw [← served_id]
  refine route_sessionPath ?_
  rw [served_id, named.declaredId_eq]
  exact (computeId_isAddress sha256 img).noSlash

theorem httpGet_parked (named : img.SelfNamed sha256) {network : Network} {host : Str}
    {port : UInt16} (reaches : network.Reaches host port (img.served sha256)) :
    httpGet (E := E) network host port (sessionPath (img.declaredId sha256)) =
      .ok (utf8 (img.toXml sha256)) := by
  have address : IsAddress (img.served sha256).id := by
    rw [served_id, named.declaredId_eq]
    exact computeId_isAddress sha256 img
  have got := httpGet_served (E := E) reaches address (newXml_contentType _ _)
  rw [served_id, served_body] at got
  exact got

variable {xml : QuickXml} (documented : Documented xml) (laws : RustFloat.Documented F)

include documented laws

/-- A client that fetches a parked image gets its normal form, where the id in
the URL still names that. -/
theorem fetchImage_parked (named : img.SelfNamed sha256)
    (number : RustFloat.isNaN img.layout.scrollPos = false) {network : Network} {host : Str}
    (noSlash : '/' ∉ host) {port : UInt16}
    (reaches : network.Reaches host port (img.served sha256)) {back : SessionImage F} :
    fetchImage (E := E) sha256 xml network (sessionUrl host port (img.declaredId sha256)) =
        .ok back ↔
      back = img.normalForm img.id ∧
        idMatches (img.computeId sha256) (back.computeId sha256) = true := by
  have url := parseHttpUrl_sessionUrl (E := E) noSlash port (img.declaredId sha256)
  have body := httpGet_parked (E := E) named reaches
  have requested : urlId (sessionPath (img.declaredId sha256)) = img.computeId sha256 := by
    rw [named.declaredId_eq, urlId_computeId]
  have read := fromXml_toXml documented laws sha256 img number
  have declared : some (img.id.getD (img.computeId sha256)) = img.id := by
    unfold SessionImage.SelfNamed at named
    rw [named, Option.getD_some]
  rw [declared] at read
  constructor
  · intro fetched
    obtain ⟨_, _, _, _, text, parsed, got, decoded, result, same⟩ := fetchImage_eq_ok fetched
    rw [url] at parsed
    cases parsed
    rw [body] at got
    cases got
    rw [fromUtf8_utf8] at decoded
    cases decoded
    rw [read] at result
    cases result
    rw [requested] at same
    exact ⟨rfl, same⟩
  · rintro ⟨rfl, same⟩
    exact fetchImage_of_document url body read (by rw [requested]; exact same)

end Simulboot
