import Simulboot.Library.Numerals
import Simulboot.Library.Xml
import Simulboot.Library.Float
import Simulboot.Wire
import Mathlib.Data.List.Sort

/-!
# The session image

The content-addressed snapshot of a running session: its data, the pretty and
the canonical text, the content hash and the event-driven parser.
-/

set_option autoImplicit false

namespace Simulboot

open Library Library.Xml

/-! ## Errors -/

/-- A piece of a formatted message. Arguments shown with `{:?}` stay unrendered. -/
inductive Fragment where
  | text (content : Str)
  | debug (value : Str)
  | debugByte (c : UInt8)
  deriving DecidableEq

abbrev Message := List Fragment

inductive SessionError where
  | xml (message : Str)
  | malformed (message : Message)
  | unknownEnum (kind value : Str)
  | badSurfaceId (value : Str) (reason : Message)
  /-- The recomputed content hash does not match the declared id. -/
  | integrityMismatch (declared computed : Str)
  deriving DecidableEq

/-- `FromHexError::to_string`. -/
def hexErrorMessage : FromHexError → Message
  | .invalidHexCharacter c index =>
      [.text "Invalid character ".toList, .debugByte c, .text " at position ".toList,
        .text (displayNat index)]
  | .oddLength => [.text "Odd number of digits".toList]

/-! ## Data -/

structure HostEntry where
  address : Str
  os : OsKind
  machine : Str
  capture : Str
  deriving DecidableEq

structure SurfaceEntry where
  id : SurfaceId
  name : Str
  order : UInt32
  host : HostEntry
  codec : Codec
  width : UInt32
  height : UInt32
  deriving DecidableEq

/-- Strip layout state; `F` stands for `f32`. -/
structure Layout (F : Type) where
  scrollPos : F
  focus : Option SurfaceId

structure SessionImage (F : Type) where
  /-- `none` until computed or parsed. -/
  id : Option Str
  created : Str
  schemaVersion : UInt32
  surfaces : List SurfaceEntry
  layout : Layout F

def sessionNamespace : Str :=
  "https://simulboot.dev/session/v1".toList

def schemaVersion : UInt32 := 1

variable {F : Type} [Zero F]

def Layout.default : Layout F :=
  { scrollPos := 0, focus := none }

/-! ## Texts of single values -/

def osToStr : OsKind → Str
  | .macOS => "macOS".toList
  | .windows => "Windows".toList
  | .linux => "Linux".toList

def osFromStr (s : Str) : Except SessionError OsKind :=
  if s = "macOS".toList then .ok .macOS
  else if s = "Windows".toList then .ok .windows
  else if s = "Linux".toList then .ok .linux
  else .error (.unknownEnum "os".toList s)

def codecToStr : Codec → Str
  | .h265 => "H265".toList
  | .av1 => "AV1".toList

def codecFromStr (s : Str) : Except SessionError Codec :=
  if s = "H265".toList then .ok .h265
  else if s = "AV1".toList then .ok .av1
  else .error (.unknownEnum "codec".toList s)

/-- A surface id as `sha256:<64 hex chars>`. -/
def surfaceIdToStr (id : SurfaceId) : Str :=
  "sha256:".toList ++ hexEncode id.bytes

def parseSurfaceId (s : Str) : Except SessionError SurfaceId :=
  match stripPrefix "sha256:".toList s with
  | none => .error (.badSurfaceId s [.text "missing 'sha256:' prefix".toList])
  | some hexPart =>
      match hexDecode (utf8 hexPart) with
      | .error e => .error (.badSurfaceId s (hexErrorMessage e))
      | .ok bytes =>
          if length_eq : bytes.length = 32 then .ok ⟨bytes, length_eq⟩
          else
            .error (.badSurfaceId s
              [.text "expected 32 bytes, got ".toList, .text (displayNat bytes.length)])

def displayU32 (n : UInt32) : Str :=
  displayNat n.toNat

def parseU32 (s : Str) : Option UInt32 :=
  (parseNat (2 ^ 32) s).map .ofNat

/-- Round-trippable float formatting that writes both zeros as `0`. -/
def fmtF32 [RustFloat F] (v : F) : Str :=
  RustFloat.displayUnsignedZero v

def escapeAttr (s : Str) : Str :=
  replaceChar '"' "&quot;".toList
    (replaceChar '>' "&gt;".toList
      (replaceChar '<' "&lt;".toList (replaceChar '&' "&amp;".toList s)))

def escapeText (s : Str) : Str :=
  replaceChar '>' "&gt;".toList
    (replaceChar '<' "&lt;".toList (replaceChar '&' "&amp;".toList s))

theorem osFromStr_osToStr (os : OsKind) : osFromStr (osToStr os) = .ok os := by
  cases os <;> rfl

theorem codecFromStr_codecToStr (codec : Codec) : codecFromStr (codecToStr codec) = .ok codec := by
  cases codec <;> rfl

theorem parseSurfaceId_surfaceIdToStr (id : SurfaceId) :
    parseSurfaceId (surfaceIdToStr id) = .ok id := by
  unfold parseSurfaceId surfaceIdToStr
  rw [stripPrefix_append]
  simp only [hexDecode_hexEncode, id.length_eq, ↓reduceDIte]

theorem surfaceIdToStr_injective : Function.Injective surfaceIdToStr := by
  intro left right same
  have parsed := congrArg parseSurfaceId same
  simpa [parseSurfaceId_surfaceIdToStr] using parsed

theorem parseU32_displayU32 (n : UInt32) : parseU32 (displayU32 n) = some n := by
  unfold parseU32 displayU32
  rw [parseNat_displayNat n.toNat_lt, Option.map_some, UInt32.ofNat_toNat]

/-! ## Serialisation -/

def newline (pretty : Bool) : Str :=
  if pretty then "\n".toList else []

def indent (pretty : Bool) (depth : Nat) : Str :=
  if pretty then (List.replicate depth "  ".toList).flatten else []

def writeTextEl (pretty : Bool) (depth : Nat) (tag text : Str) : Str :=
  indent pretty depth ++
    ("<".toList ++ tag ++ ">".toList ++ escapeText text ++ "</".toList ++ tag ++ ">".toList) ++
    newline pretty

def writeSurface (pretty : Bool) (surf : SurfaceEntry) : Str :=
  indent pretty 2 ++
    ("<surface id=\"".toList ++ escapeAttr (surfaceIdToStr surf.id) ++ "\" name=\"".toList ++
      escapeAttr surf.name ++ "\" order=\"".toList ++ displayU32 surf.order ++ "\">".toList) ++
    newline pretty ++
  (indent pretty 3 ++ "<host>".toList ++ newline pretty) ++
  writeTextEl pretty 4 "address".toList surf.host.address ++
  writeTextEl pretty 4 "os".toList (osToStr surf.host.os) ++
  writeTextEl pretty 4 "machine".toList surf.host.machine ++
  writeTextEl pretty 4 "capture".toList surf.host.capture ++
  (indent pretty 3 ++ "</host>".toList ++ newline pretty) ++
  writeTextEl pretty 3 "codec".toList (codecToStr surf.codec) ++
  (indent pretty 3 ++
    ("<dimensions height=\"".toList ++ displayU32 surf.height ++ "\" width=\"".toList ++
      displayU32 surf.width ++ "\"/>".toList) ++ newline pretty) ++
  (indent pretty 2 ++ "</surface>".toList ++ newline pretty)

def writeFocus (pretty : Bool) (focus : SurfaceId) : Str :=
  indent pretty 2 ++
    ("<focus surface-ref=\"".toList ++ escapeAttr (surfaceIdToStr focus) ++ "\"/>".toList) ++
    newline pretty

def writeLayout [RustFloat F] (pretty : Bool) (layout : Layout F) : Str :=
  (indent pretty 1 ++ "<layout>".toList ++ newline pretty) ++
  (indent pretty 2 ++
    ("<strip scroll-pos=\"".toList ++ fmtF32 layout.scrollPos ++ "\"/>".toList) ++
    newline pretty) ++
  layout.focus.elim [] (writeFocus pretty) ++
  (indent pretty 1 ++ "</layout>".toList ++ newline pretty)

/-- The `id` attribute of the session element, where there is one. -/
def writeId (id : Option Str) : Str :=
  id.elim [] fun id => " id=\"".toList ++ escapeAttr id ++ "\"".toList

namespace SessionImage

/-- The `<session>` document, with a rendered block of further children after
the layout. -/
def writeDocWithId [RustFloat F] (img : SessionImage F) (pretty : Bool) (id : Option Str)
    (extraChildren : Option Str) : Str :=
  ("<session xmlns=\"".toList ++ sessionNamespace ++ "\"".toList) ++
  (" created=\"".toList ++ escapeAttr img.created ++ "\"".toList) ++
  writeId id ++
  (" schema-version=\"".toList ++ displayU32 img.schemaVersion ++ "\"".toList) ++
  (">".toList ++ newline pretty) ++
  (indent pretty 1 ++ "<surfaces>".toList ++ newline pretty) ++
  img.surfaces.flatMap (writeSurface pretty) ++
  (indent pretty 1 ++ "</surfaces>".toList ++ newline pretty) ++
  writeLayout pretty img.layout ++
  extraChildren.getD [] ++
  "</session>".toList

def writeDoc [RustFloat F] (img : SessionImage F) (pretty includeId : Bool) : Str :=
  img.writeDocWithId pretty (if includeId then img.id else none) none

/-- The serialisation that is hashed. -/
def canonicalBytes [RustFloat F] (img : SessionImage F) : Bytes :=
  utf8 (img.writeDoc false false)

variable (sha256 : Sha256)

def computeId [RustFloat F] (img : SessionImage F) : Str :=
  "sha256:".toList ++ hexEncode (sha256 img.canonicalBytes).bytes

def withComputedId [RustFloat F] (img : SessionImage F) : SessionImage F :=
  { img with id := some (img.computeId sha256) }

/-- Recompute the content hash and compare it with the declared id. -/
def verify [RustFloat F] (img : SessionImage F) : Except SessionError Unit :=
  let computed := img.computeId sha256
  match img.id with
  | some declared =>
      if declared = computed then .ok () else .error (.integrityMismatch declared computed)
  | none => .error (.malformed [.text "no id to verify against".toList])

def xmlDeclaration : Str :=
  "<?xml version=\"1.0\" encoding=\"UTF-8\"?>\n".toList

/-- Human-readable XML with the id and a declaration. -/
def toXml [RustFloat F] (img : SessionImage F) : Str :=
  let id := img.id.getD (img.computeId sha256)
  xmlDeclaration ++ img.writeDocWithId true (some id) none

def new (created : Str) (surfaces : List SurfaceEntry) (layout : Layout F) : SessionImage F :=
  { id := none, created, schemaVersion := Simulboot.schemaVersion, surfaces, layout }

end SessionImage

/-! ## Parsing -/

def localName (qname : Str) : Str :=
  match rsplitOnce ':' qname with
  | some (_, name) => name
  | none => qname

variable (xml : QuickXml)

/-- An escaped value, its escaping error turned into a session error. -/
def unescape (raw : Str) : Except SessionError Str :=
  (xml.unescape raw).mapError .xml

/-- The first attribute whose local name is `key`. -/
def findAttr (key : Str) : List (Except Str Attribute) → Except SessionError Str
  | [] => .error (.malformed [.text ("missing attribute @".toList ++ key)])
  | .error e :: _ => .error (.xml e)
  | .ok attr :: rest =>
      if localName attr.key = key then unescape xml attr.value else findAttr key rest

def attrStr (e : BytesStart) (key : Str) : Except SessionError Str :=
  findAttr xml key e.attributes

def attrU32 (e : BytesStart) (key : Str) : Except SessionError UInt32 := do
  let v ← attrStr xml e key
  match parseU32 v with
  | some n => .ok n
  | none =>
      .error (.malformed [.text ("attribute @".toList ++ key ++ " is not a u32: ".toList), .debug v])

def attrF32 [RustFloat F] (e : BytesStart) (key : Str) : Except SessionError F := do
  let v ← attrStr xml e key
  match RustFloat.parse v with
  | some x => .ok x
  | none =>
      .error (.malformed [.text ("attribute @".toList ++ key ++ " is not an f32: ".toList), .debug v])

inductive TextTarget where
  | address | os | machine | capture | codec
  deriving DecidableEq, Repr

structure SessionAttrs where
  id : Option Str
  created : Option Str
  schemaVersion : Option UInt32
  deriving DecidableEq

namespace SessionAttrs

def default : SessionAttrs :=
  { id := none, created := none, schemaVersion := none }

def setVersion (out : SessionAttrs) (val : Str) : Except SessionError SessionAttrs :=
  match parseU32 val with
  | some n => .ok { out with schemaVersion := some n }
  | none => .error (.malformed [.text "bad schema-version ".toList, .debug val])

/-- Record one attribute by its local name. -/
def set (out : SessionAttrs) (key val : Str) : Except SessionError SessionAttrs :=
  if key = "id".toList then .ok { out with id := some val }
  else if key = "created".toList then .ok { out with created := some val }
  else if key = "schema-version".toList then out.setVersion val
  else .ok out

def parseAttr (out : SessionAttrs) : Except Str Attribute → Except SessionError SessionAttrs
  | .error e => .error (.xml e)
  | .ok attr => do
      let val ← unescape xml attr.value
      out.set (localName attr.key) val

def parse (e : BytesStart) : Except SessionError SessionAttrs :=
  e.attributes.foldlM (parseAttr xml) default

end SessionAttrs

structure SurfaceBuilder where
  id : SurfaceId
  name : Str
  order : UInt32
  address : Option Str
  os : Option OsKind
  machine : Option Str
  capture : Option Str
  codec : Option Codec
  width : Option UInt32
  height : Option UInt32
  deriving DecidableEq

namespace SurfaceBuilder

def parse (e : BytesStart) : Except SessionError SurfaceBuilder := do
  let ref ← attrStr xml e "id".toList
  let id ← parseSurfaceId ref
  let name ← attrStr xml e "name".toList
  let order ← attrU32 xml e "order".toList
  return { id, name, order, address := none, os := none, machine := none, capture := none,
           codec := none, width := none, height := none }

def present {α : Type} (field : Str) : Option α → Except SessionError α
  | some value => .ok value
  | none => .error (.malformed [.text ("surface missing <".toList ++ field ++ ">".toList)])

def build (b : SurfaceBuilder) : Except SessionError SurfaceEntry := do
  let address ← present "address".toList b.address
  let os ← present "os".toList b.os
  let machine ← present "machine".toList b.machine
  let capture ← present "capture".toList b.capture
  let codec ← present "codec".toList b.codec
  let width ← present "dimensions/@width".toList b.width
  let height ← present "dimensions/@height".toList b.height
  return { id := b.id, name := b.name, order := b.order,
           host := { address, os, machine, capture }, codec, width, height }

end SurfaceBuilder

/-- The element names the parser reacts to. -/
inductive Element where
  | session | surface | host | address | os | machine | capture | codec | dimensions | strip
  | focus | unknown
  deriving DecidableEq, Repr

def Element.ofName (name : Str) : Element :=
  if name = "session".toList then .session
  else if name = "surface".toList then .surface
  else if name = "host".toList then .host
  else if name = "address".toList then .address
  else if name = "os".toList then .os
  else if name = "machine".toList then .machine
  else if name = "capture".toList then .capture
  else if name = "codec".toList then .codec
  else if name = "dimensions".toList then .dimensions
  else if name = "strip".toList then .strip
  else if name = "focus".toList then .focus
  else .unknown

/-- Everything the event loop keeps. -/
structure ParseState (F : Type) where
  sessionAttrs : SessionAttrs
  surfaces : List SurfaceEntry
  layout : Layout F
  curSurface : Option SurfaceBuilder
  inHost : Bool
  textTarget : Option TextTarget
  textBuf : Str

namespace ParseState

def init : ParseState F :=
  { sessionAttrs := .default, surfaces := [], layout := .default, curSurface := none
    inHost := false, textTarget := none, textBuf := [] }

/-- The current surface with the collected text put where it belongs. -/
def applyText (cur : Option SurfaceBuilder) (inHost : Bool) (target : Option TextTarget)
    (text : Str) : Except SessionError SurfaceBuilder :=
  match cur with
  | none => .error (.malformed [.text "text element outside <surface>".toList])
  | some b =>
      match target, inHost with
      | some .address, true => .ok { b with address := some text }
      | some .os, true => do
          let os ← osFromStr text
          return { b with os := some os }
      | some .machine, true => .ok { b with machine := some text }
      | some .capture, true => .ok { b with capture := some text }
      | some .codec, _ => do
          let codec ← codecFromStr text
          return { b with codec := some codec }
      | _, _ => .ok b

/-- A start or empty tag, before the text buffer is cleared. -/
def openElement [RustFloat F] (state : ParseState F) (e : BytesStart) :
    Except SessionError (ParseState F) :=
  match Element.ofName (localName e.name) with
  | .session => do
      let attrs ← SessionAttrs.parse xml e
      return { state with sessionAttrs := attrs }
  | .surface => do
      let b ← SurfaceBuilder.parse xml e
      return { state with curSurface := some b }
  | .host => .ok { state with inHost := true }
  | .address => .ok { state with textTarget := some .address }
  | .os => .ok { state with textTarget := some .os }
  | .machine => .ok { state with textTarget := some .machine }
  | .capture => .ok { state with textTarget := some .capture }
  | .codec => .ok { state with textTarget := some .codec }
  | .dimensions =>
      match state.curSurface with
      | none => .error (.malformed [.text "<dimensions> outside <surface>".toList])
      | some b => do
          let width ← attrU32 xml e "width".toList
          let height ← attrU32 xml e "height".toList
          return { state with curSurface := some { b with width := some width, height := some height } }
  | .strip => do
      let pos ← attrF32 xml e "scroll-pos".toList
      return { state with layout := { state.layout with scrollPos := pos } }
  | .focus => do
      let r ← attrStr xml e "surface-ref".toList
      let id ← parseSurfaceId r
      return { state with layout := { state.layout with focus := some id } }
  | .unknown => .ok state

def closeElement (state : ParseState F) (name : Str) : Except SessionError (ParseState F) :=
  match Element.ofName (localName name) with
  | .host => .ok { state with inHost := false }
  | .surface =>
      match state.curSurface with
      | none => .error (.malformed [.text "</surface> without start".toList])
      | some b => do
          let surface ← b.build
          return { state with curSurface := none, surfaces := state.surfaces ++ [surface] }
  | .address | .os | .machine | .capture | .codec => do
      let b ← applyText state.curSurface state.inHost state.textTarget state.textBuf
      return { state with curSurface := some b, textTarget := none, textBuf := [] }
  | _ => .ok state

def step [RustFloat F] (state : ParseState F) : Event → Except SessionError (ParseState F)
  | .start e | .empty e => do
      let opened ← openElement xml state e
      return { opened with textBuf := [] }
  | .text raw =>
      match state.textTarget with
      | none => .ok state
      | some _ => do
          let text ← unescape xml raw
          return { state with textBuf := state.textBuf ++ text }
  | .close name => closeElement state name
  | .other => .ok state

/-- What is built once the input has ended. -/
def finish (state : ParseState F) : Except SessionError (SessionImage F) :=
  match state.sessionAttrs.created with
  | none => .error (.malformed [.text "missing session/@created".toList])
  | some created =>
      .ok { id := state.sessionAttrs.id
            created
            schemaVersion := state.sessionAttrs.schemaVersion.getD Simulboot.schemaVersion
            surfaces := state.surfaces.insertionSort fun a b => a.order ≤ b.order
            layout := state.layout }

end ParseState

/-- Walk the events of a reading, then build the image. -/
def parseReading [RustFloat F] (reading : Reading) : Except SessionError (SessionImage F) := do
  let state ← reading.events.foldlM (ParseState.step xml) ParseState.init
  match reading.ending with
  | .error e => .error (.xml e)
  | .ok () => state.finish

def SessionImage.fromXml [RustFloat F] (text : Str) : Except SessionError (SessionImage F) :=
  parseReading xml (xml.read text)

end Simulboot
