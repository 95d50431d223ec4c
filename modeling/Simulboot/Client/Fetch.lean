import Simulboot.Library.Http
import Simulboot.Library.Run
import Simulboot.Errors

/-!
# Fetching a session image

The compositor's HTTP client: the URL of a parked session, one GET request, and
the check of the document against the id in the URL.
-/

set_option autoImplicit false

namespace Simulboot

open Library Library.Xml Library.Http

/-- How the process reaches a server: connecting, and then writing a request
and reading the response to its end. Both may fail. -/
structure Network where
  connect : Str → UInt16 → Except Str (Bytes → Except Str Bytes)

variable {E : Type}

def parseU16 (s : Str) : Option UInt16 :=
  (parseNat (2 ^ 16) s).map .ofNat

/-- Split an `http://host[:port]/path` URL into its parts. -/
def parseHttpUrl (url : Str) : Except (AnyhowError E) (Str × UInt16 × Str) := do
  let rest ← contextNone [.text "resume URL must start with http://".toList]
    (stripPrefix "http://".toList url)
  let (authority, path) :=
    if '/' ∈ rest then (rest.takeWhile (· ≠ '/'), rest.dropWhile (· ≠ '/'))
    else (rest, "/".toList)
  let (host, port) ←
    match rsplitOnce ':' authority with
    | some (h, p) =>
        match parseU16 p with
        | some port => .ok (h, port)
        | none => .error (.context [.text "invalid port in URL".toList] (.std p))
    | none => .ok (authority, 80)
  return (host, port, path)

def getRequest (host path : Str) : Str :=
  "GET ".toList ++ path ++ " HTTP/1.1\r\nHost: ".toList ++ host ++
    "\r\nConnection: close\r\nAccept: */*\r\n\r\n".toList

/-- The body of a response, where its status line carries a 200. -/
def responseBody (raw : Bytes) : Except (AnyhowError E) Bytes := do
  let split ← contextNone [.text "malformed HTTP response (no header terminator)".toList]
    (findWindow headerTerminator raw)
  let header := fromUtf8Lossy (raw.take split)
  let status := firstLine header
  if !contains status " 200".toList then
    .error (.message [.text ("session image fetch failed: ".toList ++ status)])
  else .ok (raw.drop (split + 4))

/-- Minimal HTTP/1.1 GET returning the response body. -/
def httpGet (network : Network) (host : Str) (port : UInt16) (path : Str) :
    Except (AnyhowError E) Bytes := do
  let exchange ← withContext
    [.text ("connecting to ".toList ++ host ++ ":".toList ++ displayNat port.toNat)]
    ((network.connect host port).mapError .std)
  let raw ← (exchange (utf8 (getRequest host path))).mapError .std
  responseBody raw

def urlId (path : Str) : Str :=
  match rsplitOnce '/' path with
  | some (_, last) => last
  | none => path

/-- Does an id from a URL name the image with the computed id? -/
def idMatches (urlId computed : Str) : Bool :=
  urlId = computed || urlId = (stripPrefix "sha256:".toList computed).getD computed

variable {F : Type} [Zero F] [RustFloat F]

/-- Fetch and validate a session image. The id in the URL is the authority; the
document may carry another one or none. -/
def fetchImage (sha256 : Sha256) (xml : QuickXml) (network : Network) (url : Str) :
    Except (AnyhowError E) (SessionImage F) := do
  let (host, port, path) ← parseHttpUrl url
  let body ← httpGet network host port path
  let text ← withContext [.text "session image was not valid UTF-8".toList]
    (match fromUtf8 body with
      | some text => .ok text
      | none => .error (.std "invalid utf-8 sequence".toList))
  let image ← withContext [.text "parsing fetched session image".toList]
    ((SessionImage.fromXml xml text).mapError .session)
  let computed := image.computeId sha256
  if !idMatches (urlId path) computed then
    .error (.message
      [.text "session image integrity check failed: url id ".toList, .debug (urlId path),
        .text (" != computed ".toList ++ computed)])
  else
    match image.verify sha256 with
    | .ok () | .error _ => .ok image

/-! ## What an accepted image has passed -/

theorem fetchImage_eq_ok {sha256 : Sha256} {xml : QuickXml} {network : Network} {url : Str}
    {image : SessionImage F} (fetched : fetchImage (E := E) sha256 xml network url = .ok image) :
    ∃ host port path body text, parseHttpUrl (E := E) url = .ok (host, port, path) ∧
      httpGet (E := E) network host port path = .ok body ∧ fromUtf8 body = some text ∧
      SessionImage.fromXml xml text = .ok image ∧
      idMatches (urlId path) (image.computeId sha256) = true := by
  unfold fetchImage at fetched
  obtain ⟨⟨host, port, path⟩, parsed, fetched⟩ := bind_eq_ok fetched
  obtain ⟨body, got, fetched⟩ := bind_eq_ok fetched
  obtain ⟨text, decoded, fetched⟩ := bind_eq_ok fetched
  obtain ⟨parsedImage, read, fetched⟩ := bind_eq_ok fetched
  rw [withContext_eq_ok] at decoded read
  by_cases same : idMatches (urlId path) (parsedImage.computeId sha256) = true
  · have image_eq : parsedImage = image := by
      simp only [same, Bool.not_true, Bool.false_eq_true, ↓reduceIte] at fetched
      cases verified : parsedImage.verify sha256 with
      | ok _ => simpa [verified] using fetched
      | error _ => simpa [verified] using fetched
    subst image_eq
    refine ⟨host, port, path, body, text, parsed, got, ?_, ?_, same⟩
    · cases valid : fromUtf8 body with
      | none => simp [valid] at decoded
      | some other =>
          simp only [valid, Except.ok.injEq] at decoded
          rw [decoded]
    · cases result : SessionImage.fromXml (F := F) xml text with
      | error e => simp [result, Except.mapError] at read
      | ok other =>
          simp only [result, Except.mapError, Except.ok.injEq] at read
          rw [read]
  · simp [same] at fetched

theorem fetchImage_of_document {sha256 : Sha256} {xml : QuickXml} {network : Network} {url : Str}
    {host : Str} {port : UInt16} {path text : Str} {image : SessionImage F}
    (parsed : parseHttpUrl (E := E) url = .ok (host, port, path))
    (got : httpGet (E := E) network host port path = .ok (utf8 text))
    (read : SessionImage.fromXml xml text = .ok image)
    (same : idMatches (urlId path) (image.computeId sha256) = true) :
    fetchImage (E := E) sha256 xml network url = .ok image := by
  unfold fetchImage
  simp only [parsed, got, fromUtf8_utf8, read, same, Except.mapError, withContext, bind,
    Except.bind, Bool.not_true, Bool.false_eq_true, ↓reduceIte]
  cases image.verify sha256 <;> rfl

theorem idMatches_computeId {sha256 : Sha256} {img : SessionImage F} {requested : Str} :
    idMatches requested (img.computeId sha256) = true ↔
      requested = img.computeId sha256 ∨
        requested = hexEncode (sha256 img.canonicalBytes).bytes := by
  have bare : (stripPrefix "sha256:".toList (img.computeId sha256)).getD (img.computeId sha256) =
      hexEncode (sha256 img.canonicalBytes).bytes := by
    unfold SessionImage.computeId
    rw [stripPrefix_append]
    rfl
  unfold idMatches
  rw [bare]
  simp only [Bool.or_eq_true, decide_eq_true_eq]

end Simulboot
