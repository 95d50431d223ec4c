import Simulboot.Library.Http
import Simulboot.Library.Numerals

/-!
# The broker

The HTTP server that parks one session image behind `/session/{id}`: reading a
request head, routing it, and writing the response.
-/

set_option autoImplicit false

namespace Simulboot

open Library Library.Http

/-- A session image ready to be served. -/
structure ServedImage where
  id : Str
  body : Bytes
  contentType : Str

namespace ServedImage

def newXml (id : Str) (body : Bytes) : ServedImage :=
  { id, body, contentType := "application/xml; charset=utf-8".toList }

/-- The id without its `sha256:` prefix. -/
def bareHex (image : ServedImage) : Str :=
  (stripPrefix "sha256:".toList image.id).getD image.id

/-- Does the path segment after `/session/` name this image? -/
def isNamedBy (image : ServedImage) (requested : Str) : Bool :=
  requested = image.id || requested = image.bareHex

end ServedImage

inductive Route where
  | ok | notFound | methodNotAllowed
  deriving DecidableEq, Repr

def route (method path : Str) (image : ServedImage) : Route :=
  if method ≠ "GET".toList then .methodNotAllowed
  else
    match stripPrefix "/session/".toList path with
    | some id => if image.isNamedBy (id.rdropWhile (· = '/')) then .ok else .notFound
    | none => .notFound

def responseHead (status fields : Str) (length : Nat) : Str :=
  "HTTP/1.1 ".toList ++ status ++ "\r\n".toList ++ fields ++ "\r\nContent-Length: ".toList ++
    displayNat length ++ "\r\nConnection: close\r\n\r\n".toList

def writeResponse (r : Route) (image : ServedImage) : Bytes :=
  match r with
  | .ok =>
      utf8 (responseHead "200 OK".toList ("Content-Type: ".toList ++ image.contentType)
        image.body.length) ++ image.body
  | .notFound =>
      let body := utf8 "session not found\n".toList
      utf8 (responseHead "404 Not Found".toList "Content-Type: text/plain".toList body.length) ++
        body
  | .methodNotAllowed =>
      let body := utf8 "method not allowed\n".toList
      utf8 (responseHead "405 Method Not Allowed".toList
        "Allow: GET\r\nContent-Type: text/plain".toList body.length) ++ body

def findHeaderEnd (buf : Bytes) : Option Nat :=
  findWindow headerTerminator buf

def maxHeadLen : Nat :=
  64 * 1024

/-- Read until the request head is there, the stream ends, or too much came. -/
def readHead (buf : Bytes) : List Bytes → Bytes
  | [] => buf
  | chunk :: chunks =>
      if chunk = [] then buf
      else
        let buf := buf ++ chunk
        if (findHeaderEnd buf).isSome ∨ buf.length > maxHeadLen then buf
        else readHead buf chunks

/-- Answer one connection: the bytes written, given the chunks that reads return. -/
def handleConnection (chunks : List Bytes) (image : ServedImage) : Bytes :=
  let requestLine := firstLine (fromUtf8Lossy (readHead [] chunks))
  let parts := splitWhitespace requestLine
  let method := parts.getD 0 []
  let path := parts.getD 1 []
  writeResponse (route method path image) image

/-! ## The request is understood -/

theorem readHead_spec (chunks : List Bytes) (nonempty : ∀ chunk ∈ chunks, chunk ≠ [])
    (buf : Bytes) :
    ∃ rest, readHead buf chunks ++ rest = buf ++ chunks.flatten ∧
      (rest = [] ∨ (findHeaderEnd (readHead buf chunks)).isSome = true ∨
        maxHeadLen < (readHead buf chunks).length) := by
  induction chunks generalizing buf with
  | nil => exact ⟨[], by simp [readHead], .inl rfl⟩
  | cons chunk chunks ih =>
      obtain ⟨delivered, others⟩ := List.forall_mem_cons.mp nonempty
      by_cases complete : (findHeaderEnd (buf ++ chunk)).isSome ∨ (buf ++ chunk).length > maxHeadLen
      · have read : readHead buf (chunk :: chunks) = buf ++ chunk := by
          rw [readHead, if_neg delivered]
          exact if_pos complete
        exact ⟨chunks.flatten, by simp [read], .inr (by rw [read]; exact complete)⟩
      · have read : readHead buf (chunk :: chunks) = readHead (buf ++ chunk) chunks := by
          rw [readHead, if_neg delivered]
          exact if_neg complete
        rw [read]
        simpa using ih others (buf ++ chunk)

theorem readHead_front {chunks : List Bytes} (nonempty : ∀ chunk ∈ chunks, chunk ≠ [])
    {front after : Bytes} (stream : chunks.flatten = front ++ after)
    (noReturn : (13 : UInt8) ∉ front) (short : front.length ≤ maxHeadLen + 1) :
    ∃ tail, readHead [] chunks = front ++ tail ∧ tail <+: after := by
  obtain ⟨rest, split, enough⟩ := readHead_spec chunks nonempty []
  rw [List.nil_append, stream] at split
  have covers : front.length ≤ (readHead [] chunks).length := by
    rcases enough with rfl | found | long
    · rw [List.append_nil] at split
      rw [split]
      exact (List.prefix_append front after).length_le
    · obtain ⟨position, found⟩ := Option.isSome_iff_exists.mp found
      have later := findWindow_append rest found
      rw [split, headerTerminator, findWindow_skip noReturn] at later
      obtain ⟨further, _, rfl⟩ := Option.map_eq_some_iff.mp later
      have bound := findWindow_le found
      omega
    · omega
  obtain ⟨tail, read⟩ := List.prefix_of_prefix_length_le (List.prefix_append front after)
    ⟨rest, split⟩ covers
  refine ⟨tail, read.symm, rest, ?_⟩
  rw [← read, List.append_assoc, List.append_cancel_left_eq] at split
  exact split

def requestLine (path : Str) : Str :=
  "GET ".toList ++ path ++ " HTTP/1.1".toList

theorem not_mem_of_solid {word : Str} (solid : ∀ c ∈ word, isWhitespace c = false) {blank : Char}
    (separates : isWhitespace blank = true) : blank ∉ word := by
  intro member
  rw [solid blank member] at separates
  cases separates

private theorem firstLine_append {front : Str} (noFeed : '\n' ∉ front) (noReturn : '\r' ∉ front)
    (rest : Str) : ∃ line, firstLine (front ++ rest) = front ++ line ∧ line <+: rest := by
  have inside : ∀ c ∈ front, (decide (c ≠ '\n')) = true := by
    intro c member
    rw [decide_eq_true_eq]
    rintro rfl
    exact noFeed member
  have taken := List.takeWhile_prefix (p := (· ≠ '\n')) (l := rest)
  unfold firstLine
  simp only [List.takeWhile_append_of_pos inside]
  split
  · rename_i ending
    have goesOn : rest.takeWhile (· ≠ '\n') ≠ [] := by
      intro empty
      rw [empty, List.append_nil] at ending
      exact noReturn (List.mem_of_getLast? ending.2)
    rw [List.dropLast_append_of_ne_nil goesOn]
    exact ⟨_, rfl, (List.dropLast_prefix _).trans taken⟩
  · exact ⟨_, rfl, taken⟩

private theorem words_of_request {path rest : Str} (path_nonempty : path ≠ [])
    (solid : ∀ c ∈ path, isWhitespace c = false)
    (ends : ∀ c ∈ rest.head?, isWhitespace c = true) :
    ∃ others, splitWhitespace (firstLine ("GET ".toList ++ path ++ rest)) =
      "GET".toList :: path :: others := by
  have plain : ∀ blank, blank ∉ "GET ".toList → isWhitespace blank = true →
      blank ∉ "GET ".toList ++ path := by
    intro blank elsewhere separates member
    obtain front | inPath := List.mem_append.mp member
    · exact elsewhere front
    · exact not_mem_of_solid solid separates inPath
  obtain ⟨line, first, front⟩ :=
    firstLine_append (plain '\n' (by decide) (by decide)) (plain '\r' (by decide) (by decide)) rest
  have get : ∀ text, splitWhitespace ("GET ".toList ++ text) =
      "GET".toList :: splitWhitespace text := by
    intro text
    have mark : "GET ".toList = "GET".toList ++ [' '] := rfl
    rw [mark, List.append_assoc, List.singleton_append]
    exact splitWhitespace_word (by decide) (by decide) (by decide)
  rw [first, List.append_assoc, get]
  cases line with
  | nil => exact ⟨[], by rw [List.append_nil, splitWhitespace_last path_nonempty solid]⟩
  | cons blank after =>
      obtain ⟨more, rfl⟩ := front
      have separates : isWhitespace blank = true := ends blank rfl
      exact ⟨_, by rw [splitWhitespace_word path_nonempty solid separates]⟩

/-- The broker routes the path of the head that it read. -/
theorem handleConnection_of_head {chunks : List Bytes} {path rest : Str} (image : ServedImage)
    (read : fromUtf8Lossy (readHead [] chunks) = "GET ".toList ++ path ++ rest)
    (path_nonempty : path ≠ []) (solid : ∀ c ∈ path, isWhitespace c = false)
    (ends : ∀ c ∈ rest.head?, isWhitespace c = true) :
    handleConnection chunks image = writeResponse (route "GET".toList path image) image := by
  obtain ⟨others, words⟩ := words_of_request path_nonempty solid ends
  unfold handleConnection
  simp only [read, words]
  rfl

/-- However a GET request arrives, its path is routed whole. -/
theorem handleConnection_get {chunks : List Bytes} (nonempty : ∀ chunk ∈ chunks, chunk ≠ [])
    {path : Str} {after : Bytes} (image : ServedImage)
    (stream : chunks.flatten = utf8 (requestLine path) ++ after)
    (path_nonempty : path ≠ []) (solid : ∀ c ∈ path, isWhitespace c = false)
    (short : (utf8 ("GET ".toList ++ path)).length ≤ maxHeadLen + 1) :
    handleConnection chunks image = writeResponse (route "GET".toList path image) image := by
  have noReturn : (13 : UInt8) ∉ utf8 ("GET ".toList ++ path) := by
    intro member
    obtain front | inPath := List.mem_append.mp (mem_utf8_return member)
    · exact absurd front (by decide)
    · exact not_mem_of_solid solid (by decide) inPath
  have version : " HTTP/1.1".toList = [' '] ++ "HTTP/1.1".toList := rfl
  have line : utf8 (requestLine path) ++ after =
      utf8 ("GET ".toList ++ path) ++ (utf8 [' '] ++ (utf8 "HTTP/1.1".toList ++ after)) := by
    rw [requestLine, version]
    simp only [utf8_append, List.append_assoc]
  obtain ⟨tail, read, front⟩ := readHead_front nonempty (stream.trans line) noReturn short
  cases tail with
  | nil =>
      rw [List.append_nil] at read
      have head : fromUtf8Lossy (readHead [] chunks) = "GET ".toList ++ path ++ [] := by
        rw [read, fromUtf8Lossy_utf8, List.append_nil]
      exact handleConnection_of_head image head path_nonempty solid (by simp)
  | cons byte more =>
      obtain ⟨others, split⟩ := front
      have space : byte :: more = utf8 [' '] ++ more := by
        have blank : utf8 [' '] = [32] := by decide
        rw [blank, List.singleton_append, List.cons_append, List.cons.injEq] at split
        rw [blank, split.1, List.singleton_append]
      rw [space, ← List.append_assoc, ← utf8_append] at read
      obtain ⟨rest, decoded⟩ := fromUtf8Lossy_append ("GET ".toList ++ path ++ [' ']) more
      have head : fromUtf8Lossy (readHead [] chunks) = "GET ".toList ++ path ++ ' ' :: rest := by
        rw [read, decoded, List.append_assoc, List.singleton_append]
      have separates : ∀ c ∈ (' ' :: rest).head?, isWhitespace c = true := by
        rintro c ⟨⟩
        decide
      exact handleConnection_of_head image head path_nonempty solid separates

end Simulboot
