import Simulboot.Broker
import Simulboot.Client.Fetch

/-!
# One request to the broker

The compositor's HTTP client against the broker: the URL names the served image,
and the body comes back whole, however TCP cuts the request.
-/

set_option autoImplicit false

namespace Simulboot

open Library Library.Http

variable {E : Type}

/-- The connections to a port reach a broker that serves an image: the bytes of
a request arrive in order, in some chunks, and the response goes back. -/
def Network.Reaches (network : Network) (host : Str) (port : UInt16) (image : ServedImage) :
    Prop :=
  ∃ exchange, network.connect host port = .ok exchange ∧ ∀ request, ∃ chunks : List Bytes,
    chunks.flatten = request ∧ (∀ chunk ∈ chunks, chunk ≠ []) ∧
      exchange request = .ok (handleConnection chunks image)

/-- A network of one broker that delivers every request in one chunk. -/
def Network.only (host : Str) (port : UInt16) (image : ServedImage) : Network :=
  { connect := fun dialled dialledPort =>
      if dialled = host ∧ dialledPort = port then
        .ok fun request => .ok (handleConnection (if request = [] then [] else [request]) image)
      else .error "connection refused".toList }

theorem Network.only_reaches (host : Str) (port : UInt16) (image : ServedImage) :
    (Network.only host port image).Reaches host port image := by
  refine ⟨_, if_pos ⟨rfl, rfl⟩, fun request => ⟨_, ?_, ?_, rfl⟩⟩
  · split
    · rename_i empty
      simp [empty]
    · simp
  · split
    · simp
    · rename_i nonempty
      simpa using nonempty

/-- A network of one broker that delivers the bytes of a request up to a position first. -/
def Network.cutting (host : Str) (port : UInt16) (image : ServedImage) (position : Nat) : Network :=
  { connect := fun dialled dialledPort =>
      if dialled = host ∧ dialledPort = port then
        .ok fun request => .ok (handleConnection
          ([request.take position, request.drop position].filter (· ≠ [])) image)
      else .error "connection refused".toList }

theorem Network.cutting_reaches (host : Str) (port : UInt16) (image : ServedImage)
    (position : Nat) : (Network.cutting host port image position).Reaches host port image := by
  refine ⟨_, if_pos ⟨rfl, rfl⟩, fun request => ⟨_, ?_, ?_, rfl⟩⟩
  · rw [List.flatten_filter_ne_nil]
    simp
  · intro chunk member
    simpa using (List.mem_filter.mp member).2

/-- Where the first bytes are all there are, or more than a head may have, they are read. -/
theorem httpGet_cutting {host : Str} {port : UInt16} {image : ServedImage} {position : Nat}
    {path : Str} {front after : Bytes} (request : utf8 (getRequest host path) = front ++ after)
    (some : front ≠ []) (cut : front.length = position)
    (enough : after = [] ∨ maxHeadLen < front.length) :
    ∃ chunks, readHead [] chunks = front ∧
      httpGet (E := E) (Network.cutting host port image position) host port path =
        responseBody (handleConnection chunks image) := by
  have reached : (Network.cutting host port image position).connect host port =
      .ok fun request => .ok (handleConnection
        ([request.take position, request.drop position].filter (· ≠ [])) image) :=
    if_pos ⟨rfl, rfl⟩
  have pieces : (utf8 (getRequest host path)).take position = front ∧
      (utf8 (getRequest host path)).drop position = after := by
    rw [request, ← cut]
    exact ⟨List.take_left, List.drop_left⟩
  refine ⟨[front, after].filter (· ≠ []), ?_, ?_⟩
  · rw [List.filter_cons_of_pos (by simpa using some), readHead, if_neg some, List.nil_append]
    obtain rfl | long := enough
    · exact ite_self front
    · exact if_pos (.inr long)
  · unfold httpGet
    simp only [reached, Except.mapError, withContext, bind, Except.bind, pieces]

/-! ## URLs -/

def sessionPath (id : Str) : Str :=
  "/session/".toList ++ id

def sessionUrl (host : Str) (port : UInt16) (id : Str) : Str :=
  "http://".toList ++ (host ++ ':' :: (displayNat port.toNat ++ sessionPath id))

theorem sessionPath_eq_cons (id : Str) : sessionPath id = '/' :: ("session/".toList ++ id) :=
  rfl

private theorem parseU16_display (port : UInt16) : parseU16 (displayNat port.toNat) = some port := by
  unfold parseU16
  rw [parseNat_displayNat port.toNat_lt, Option.map_some, UInt16.ofNat_toNat]

theorem parseHttpUrl_sessionUrl {host : Str} (noSlash : '/' ∉ host) (port : UInt16) (id : Str) :
    parseHttpUrl (E := E) (sessionUrl host port id) = .ok (host, port, sessionPath id) := by
  have authority : ∀ c ∈ host ++ ':' :: displayNat port.toNat, (decide (c ≠ '/')) = true := by
    intro c member
    simp only [decide_eq_true_eq]
    rintro rfl
    simp only [List.mem_append, List.mem_cons] at member
    rcases member with inHost | colon | inPort
    · exact noSlash inHost
    · exact absurd colon (by decide)
    · exact not_mem_displayNat _ (by decide) inPort
  have split : host ++ ':' :: (displayNat port.toNat ++ sessionPath id) =
      (host ++ ':' :: displayNat port.toNat) ++ '/' :: ("session/".toList ++ id) := by
    rw [sessionPath_eq_cons, List.append_assoc, List.cons_append]
  have taken : (host ++ ':' :: (displayNat port.toNat ++ sessionPath id)).takeWhile (· ≠ '/') =
        host ++ ':' :: displayNat port.toNat ∧
      (host ++ ':' :: (displayNat port.toNat ++ sessionPath id)).dropWhile (· ≠ '/') =
        sessionPath id := by
    rw [split, List.takeWhile_append_of_pos authority, List.dropWhile_append_of_pos authority,
      List.takeWhile_cons_of_neg (by simp), List.dropWhile_cons_of_neg (by simp), List.append_nil]
    exact ⟨rfl, rfl⟩
  have slash : '/' ∈ host ++ ':' :: (displayNat port.toNat ++ sessionPath id) := by
    rw [split]
    simp
  have colon : rsplitOnce ':' (host ++ ':' :: displayNat port.toNat) =
      some (host, displayNat port.toNat) :=
    rsplitOnce_append (not_mem_displayNat _ (by decide))
  unfold parseHttpUrl sessionUrl
  rw [stripPrefix_append]
  simp only [contextNone, bind, Except.bind, slash, ↓reduceIte, taken, colon, parseU16_display,
    pure, Except.pure]

theorem urlId_sessionPath {id : Str} (noSlash : '/' ∉ id) : urlId (sessionPath id) = id := by
  have split : sessionPath id = "/session".toList ++ '/' :: id := rfl
  unfold urlId
  rw [split, rsplitOnce_append noSlash]

theorem route_sessionPath {image : ServedImage} (noSlash : image.id.getLast? ≠ some '/') :
    route "GET".toList (sessionPath image.id) image = .ok := by
  have kept : image.id.rdropWhile (· = '/') = image.id := by
    rw [List.rdropWhile_eq_self_iff]
    intro nonempty slash
    rw [List.getLast?_eq_some_getLast nonempty] at noSlash
    exact noSlash (congrArg some (by simpa using slash))
  unfold route sessionPath
  rw [stripPrefix_append]
  simp [kept, ServedImage.isNamedBy]

/-! ## The response -/

/-- The lines of a served image's response head. -/
def okLines (contentType : Str) (length : Nat) : List Str :=
  ["HTTP/1.1 200 OK".toList, "Content-Type: ".toList ++ contentType,
    "Content-Length: ".toList ++ displayNat length, "Connection: close".toList]

private theorem utf8_responseHead (status field : Str) (length : Nat) :
    utf8 (responseHead status field length) =
      head (["HTTP/1.1 ".toList ++ status, field, "Content-Length: ".toList ++ displayNat length,
        "Connection: close".toList].map utf8) := by
  have ends : utf8 "\r\n".toList = crlf := by decide
  have contentLength : "\r\nContent-Length: ".toList =
      "\r\n".toList ++ "Content-Length: ".toList := by decide
  have connection : "\r\nConnection: close\r\n\r\n".toList =
      "\r\n".toList ++ ("Connection: close".toList ++ ("\r\n".toList ++ "\r\n".toList)) := by decide
  unfold responseHead head
  rw [contentLength, connection]
  simp only [utf8_append, List.map_cons, List.map_nil, List.flatMap_cons, List.flatMap_nil, ends,
    List.append_assoc, List.nil_append]

private theorem responseBody_head {status next : Str} {lines : List Str} (body : Bytes)
    (isLine : ∀ line ∈ (status :: next :: lines).map utf8, IsLine line) (single : '\n' ∉ status) :
    responseBody (E := E) (head ((status :: next :: lines).map utf8) ++ body) =
      if !contains status " 200".toList then
        .error (.message [.text ("session image fetch failed: ".toList ++ status)])
      else .ok body := by
  have position := findWindow_head _ _ body isLine
  have split : head ((status :: next :: lines).map utf8) =
      utf8 (status ++ ['\r', '\n']) ++ head ((next :: lines).map utf8) := by
    have ends : utf8 ['\r', '\n'] = crlf := by decide
    simp only [head, List.map_cons, List.flatMap_cons, utf8_append, ends, List.append_assoc]
  have behind : 4 ≤ (head ((next :: lines).map utf8)).length := by
    simp only [head, List.map_cons, List.flatMap_cons, List.length_append, crlf, List.length_cons,
      List.length_nil]
    omega
  have long : 4 ≤ (head ((status :: next :: lines).map utf8)).length := by
    rw [split, List.length_append]
    omega
  obtain ⟨after, front⟩ : ∃ after, (head ((status :: next :: lines).map utf8) ++ body).take
      ((head ((status :: next :: lines).map utf8)).length - 4) =
        utf8 (status ++ ['\r', '\n']) ++ after := by
    rw [split, List.append_assoc, List.take_append]
    refine ⟨_, congrArg (· ++ _) (List.take_of_length_le ?_)⟩
    rw [List.length_append]
    omega
  obtain ⟨tail, decoded⟩ := fromUtf8Lossy_append (status ++ ['\r', '\n']) after
  have first : firstLine (fromUtf8Lossy ((head ((status :: next :: lines).map utf8) ++ body).take
      ((head ((status :: next :: lines).map utf8)).length - 4))) = status := by
    rw [front, decoded, List.append_assoc]
    exact firstLine_crlf single
  unfold responseBody
  simp only [List.map_cons] at first position long ⊢
  simp only [position, contextNone, bind, Except.bind, first]
  rw [Nat.sub_add_cancel long, List.drop_left]

private theorem plain_digits (n : Nat) : ∀ c ∈ displayNat n, c.toNat < 128 ∧ c ≠ '\r' := by
  intro c digit
  have isDigit := isDigit_of_mem_displayNat digit
  constructor
  · simp only [Char.isDigit, Bool.and_eq_true, decide_eq_true_eq,
      UInt32.le_iff_toNat_le] at isDigit
    have high : c.toNat ≤ 57 := isDigit.2
    omega
  · rintro rfl
    exact absurd isDigit (by decide)

private theorem isLine_of_plain (lines : List Str)
    (plain : ∀ text ∈ lines, text ≠ [] ∧ ∀ c ∈ text, c.toNat < 128 ∧ c ≠ '\r') :
    ∀ line ∈ lines.map utf8, IsLine line := by
  intro line member
  obtain ⟨text, inside, rfl⟩ := List.mem_map.mp member
  exact utf8_isLine (plain text inside).1 (plain text inside).2

theorem responseBody_writeResponse {image : ServedImage}
    (plain : ∀ c ∈ image.contentType, c.toNat < 128 ∧ c ≠ '\r') :
    responseBody (E := E) (writeResponse .ok image) = .ok image.body := by
  have typeField : ∀ c ∈ "Content-Type: ".toList, c.toNat < 128 ∧ c ≠ '\r' := by decide
  have lengthField : ∀ c ∈ "Content-Length: ".toList, c.toNat < 128 ∧ c ≠ '\r' := by decide
  have isLine := isLine_of_plain (okLines image.contentType image.body.length) <| by
    intro text member
    simp only [okLines, List.mem_cons, List.not_mem_nil, or_false] at member
    rcases member with rfl | rfl | rfl | rfl
    · exact ⟨by decide, by decide⟩
    · exact ⟨by simp, fun c inText => (List.mem_append.mp inText).elim (typeField c) (plain c)⟩
    · exact ⟨by simp, fun c inText =>
        (List.mem_append.mp inText).elim (lengthField c) (plain_digits _ c)⟩
    · exact ⟨by decide, by decide⟩
  have accepted : contains "HTTP/1.1 200 OK".toList " 200".toList = true := by decide
  unfold writeResponse
  rw [utf8_responseHead]
  refine (responseBody_head _ isLine (by decide)).trans ?_
  rw [accepted]
  rfl

theorem responseBody_of_notFound (image : ServedImage) :
    responseBody (E := E) (writeResponse .notFound image) =
      .error (.message [.text "session image fetch failed: HTTP/1.1 404 Not Found".toList]) := by
  have isLine := isLine_of_plain
    ["HTTP/1.1 404 Not Found".toList, "Content-Type: text/plain".toList,
      "Content-Length: 18".toList, "Connection: close".toList] (by decide)
  have refused : contains "HTTP/1.1 404 Not Found".toList " 200".toList = false := by decide
  have answer := responseBody_head (E := E) (utf8 "session not found\n".toList) isLine
    (by decide)
  rw [refused] at answer
  unfold writeResponse
  rw [utf8_responseHead]
  exact answer

theorem responseBody_notFound (image : ServedImage) (body : Bytes) :
    responseBody (E := E) (writeResponse .notFound image) ≠ .ok body := by
  rw [responseBody_of_notFound]
  nofun

/-! ## The exchange -/

def IsIdChar (c : Char) : Prop :=
  c.toNat < 128 ∧ isWhitespace c = false ∧ c ≠ '/'

section

variable {F : Type} [Zero F] [RustFloat F] (sha256 : Sha256) (img : SessionImage F)

theorem computeId_idChar : ∀ c ∈ img.computeId sha256, IsIdChar c := by
  have mark : ∀ c ∈ "sha256:".toList, IsIdChar c := by
    unfold IsIdChar
    decide
  have digits : ∀ c ∈ hexAlphabet, IsIdChar c := by
    unfold IsIdChar
    decide
  intro c member
  rcases List.mem_append.mp member with front | digit
  · exact mark c front
  · exact digits c (mem_hexEncode digit)

theorem length_computeId : (img.computeId sha256).length = 71 := by
  have mark : "sha256:".toList.length = 7 := by decide
  unfold SessionImage.computeId
  rw [List.length_append, length_hexEncode, (sha256 _).length_eq, mark]

/-- The client keeps the id that the URL was printed for. -/
theorem urlId_computeId : urlId (sessionPath (img.computeId sha256)) = img.computeId sha256 :=
  urlId_sessionPath fun slash => (computeId_idChar sha256 img _ slash).2.2 rfl

end

theorem getRequest_eq (host path : Str) :
    getRequest host path = requestLine path ++ ("\r\nHost: ".toList ++ (host ++
      "\r\nConnection: close\r\nAccept: */*\r\n\r\n".toList)) := by
  have literal : " HTTP/1.1\r\nHost: ".toList =
      " HTTP/1.1".toList ++ "\r\nHost: ".toList := by decide
  unfold getRequest requestLine
  rw [literal]
  simp only [List.append_assoc]

/-- The request for a path that a blank does not cut and the head limit does not cut off
is answered by its route. -/
theorem httpGet_eq {network : Network} {host : Str} {port : UInt16} {image : ServedImage}
    (reaches : network.Reaches host port image) {path : Str} (path_nonempty : path ≠ [])
    (solid : ∀ c ∈ path, isWhitespace c = false)
    (short : (utf8 ("GET ".toList ++ path)).length ≤ maxHeadLen + 1) :
    httpGet (E := E) network host port path =
      responseBody (writeResponse (route "GET".toList path image) image) := by
  obtain ⟨exchange, connected, answers⟩ := reaches
  obtain ⟨chunks, stream, nonempty, answered⟩ := answers (utf8 (getRequest host path))
  rw [getRequest_eq, utf8_append] at stream
  have handled := handleConnection_get nonempty image stream path_nonempty solid short
  unfold httpGet
  simp only [connected, Except.mapError, withContext, bind, Except.bind, answered, handled]

theorem sessionPath_solid {id : Str} (solid : ∀ c ∈ id, isWhitespace c = false) :
    ∀ c ∈ sessionPath id, isWhitespace c = false := by
  have mark : ∀ c ∈ "/session/".toList, isWhitespace c = false := by decide
  intro c member
  obtain front | inId := List.mem_append.mp member
  · exact mark c front
  · exact solid c inId

/-- An id that a request line carries whole and that the broker trims nothing off. -/
structure IsAddress (id : Str) : Prop where
  solid : ∀ c ∈ id, isWhitespace c = false
  noSlash : id.getLast? ≠ some '/'
  short : (utf8 ("GET ".toList ++ sessionPath id)).length ≤ maxHeadLen + 1

theorem computeId_isAddress {F : Type} [Zero F] [RustFloat F] (sha256 : Sha256)
    (img : SessionImage F) : IsAddress (img.computeId sha256) := by
  have chars := computeId_idChar sha256 img
  have ascii : ∀ c ∈ "GET ".toList ++ sessionPath (img.computeId sha256), c.toNat < 128 := by
    have front : ∀ c ∈ "GET ".toList ++ "/session/".toList, c.toNat < 128 := by decide
    intro c member
    unfold sessionPath at member
    rw [← List.append_assoc] at member
    obtain mark | inId := List.mem_append.mp member
    · exact front c mark
    · exact (chars c inId).1
  refine ⟨fun c member => (chars c member).2.1, fun slash => ?_, ?_⟩
  · exact (chars _ (List.mem_of_getLast? slash)).2.2 rfl
  · have front : "GET ".toList.length = 4 ∧ "/session/".toList.length = 9 := by decide
    rw [utf8_ascii ascii, List.length_map, List.length_append]
    unfold sessionPath maxHeadLen
    rw [List.length_append, length_computeId, front.1, front.2]
    omega

theorem httpGet_served {network : Network} {host : Str} {port : UInt16} {image : ServedImage}
    (reaches : network.Reaches host port image) (address : IsAddress image.id)
    (plain : ∀ c ∈ image.contentType, c.toNat < 128 ∧ c ≠ '\r') :
    httpGet (E := E) network host port (sessionPath image.id) = .ok image.body := by
  rw [httpGet_eq reaches (by rw [sessionPath_eq_cons]; simp) (sessionPath_solid address.solid)
    address.short, route_sessionPath address.noSlash]
  exact responseBody_writeResponse plain

end Simulboot
