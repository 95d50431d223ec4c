import Simulboot.Coefficients

/-!
# Session images with coefficients

The v1 image, its order, the two maps to and from v0, and its XML carrier: the
coefficient block behind the layout and the second pass that reads it back.
-/

set_option autoImplicit false

namespace Simulboot

open Library Library.Xml

def coefficientsNamespace : Str :=
  "https://simulboot.dev/session/v1/coefficients".toList

def coeffPrefix : Str :=
  "c".toList

structure SurfaceCoefficient (D : Type) where
  surfaceRef : SurfaceId
  coefficient : Coefficient D

structure SessionImageV1 (F D : Type) where
  base : SessionImage F
  coefficients : List (SurfaceCoefficient D)

variable {F D : Type} [Zero F] [RustFloat F] [Zero D] [RustFloat D]

/-! ## Writing the block -/

/-- A qualified name of the coefficients namespace. -/
def coeffName (name : Str) : Str :=
  coeffPrefix ++ ':' :: name

def writeDelayPath (pretty : Bool) (iv : Interval D) : Str :=
  indent pretty 4 ++
    ("<".toList ++ coeffName "delay-path".toList ++ " hi=\"".toList ++ iv.hi.toStr ++
      "\" lo=\"".toList ++ iv.lo.toStr ++ "\"/>".toList) ++ newline pretty

def writeSurfaceCoefficient (pretty : Bool) (id : SurfaceId) (coeff : Coefficient D) : Str :=
  indent pretty 2 ++
    ("<".toList ++ coeffName "surface-coefficient".toList ++ " surface-ref=\"".toList ++
      surfaceIdToStr id ++ "\">".toList) ++ newline pretty ++
  (indent pretty 3 ++ ("<".toList ++ coeffName "timing".toList ++ ">".toList) ++ newline pretty) ++
  coeff.timing.flatMap (writeDelayPath pretty) ++
  (indent pretty 3 ++ ("</".toList ++ coeffName "timing".toList ++ ">".toList) ++ newline pretty) ++
  (indent pretty 3 ++
    ("<".toList ++ coeffName "security".toList ++ " confidentiality=\"".toList ++
      coeff.confidentiality.toStr ++ "\" integrity=\"".toList ++ coeff.integrity.toStr ++
      "\"/>".toList) ++ newline pretty) ++
  (indent pretty 3 ++
    ("<".toList ++ coeffName "linearity".toList ++ " count=\"".toList ++ coeff.linearity.toStr ++
      "\"/>".toList) ++ newline pretty) ++
  (indent pretty 2 ++ ("</".toList ++ coeffName "surface-coefficient".toList ++ ">".toList) ++
    newline pretty)

namespace SessionImageV1

/-! ## Structure -/

omit [Zero D] [RustFloat D] in
/-- The id is computed over the base alone. -/
def sessionId (sha256 : Sha256) (img : SessionImageV1 F D) : Str :=
  img.base.computeId sha256

section

omit [Zero F] [RustFloat F] [Zero D] [RustFloat D]

def validateSurface (img : SessionImageV1 F D) (surf : SurfaceEntry) : Except SessionError Unit :=
  let n := img.coefficients.countP fun c => c.surfaceRef = surf.id
  if n ≠ 1 then
    .error (.malformed
      [.text ("surface ".toList ++ surfaceIdToStr surf.id ++ " has ".toList ++ displayNat n ++
        " coefficients (expected 1)".toList)])
  else .ok ()

/-- Exactly one coefficient for each surface. -/
def validate (img : SessionImageV1 F D) : Except SessionError Unit :=
  if img.coefficients.length ≠ img.base.surfaces.length then
    .error (.malformed
      [.text ("v1 image has ".toList ++ displayNat img.base.surfaces.length ++
        " surfaces but ".toList ++ displayNat img.coefficients.length ++
        " coefficients".toList)])
  else img.base.surfaces.forM img.validateSurface

def coefficientFor (img : SessionImageV1 F D) (id : SurfaceId) : Option (Coefficient D) :=
  (img.coefficients.find? fun c => c.surfaceRef = id).map SurfaceCoefficient.coefficient

end

omit [Zero F] [RustFloat F] in
def coeffIsTop (img : SessionImageV1 F D) : Bool :=
  img.coefficients.all fun c => c.coefficient.isTop

omit [Zero D] [RustFloat D] in
/-- Bases are compared by their canonical form. -/
def baseEq (a b : SessionImageV1 F D) : Bool :=
  a.base.canonicalBytes = b.base.canonicalBytes

/-- Equal bases, and coefficients in order surface by surface. -/
def leq (a b : SessionImageV1 F D) : Bool :=
  if !a.baseEq b then false
  else
    (a.coefficients.all fun sc =>
      (b.coefficientFor sc.surfaceRef).any fun o => sc.coefficient.leq o) &&
    a.coefficients.length == b.coefficients.length

/-! ## Serialisation -/

/-- The coefficient block, surface by surface. -/
def writeCoefficients (img : SessionImageV1 F D) (pretty : Bool) : Str :=
  indent pretty 1 ++
    ("<".toList ++ coeffName "coefficients".toList ++ " xmlns:".toList ++ coeffPrefix ++
      "=\"".toList ++ coefficientsNamespace ++ "\">".toList) ++ newline pretty ++
  img.base.surfaces.flatMap (fun surf =>
    (img.coefficientFor surf.id).elim [] (writeSurfaceCoefficient pretty surf.id)) ++
  (indent pretty 1 ++ ("</".toList ++ coeffName "coefficients".toList ++ ">".toList) ++
    newline pretty)

def toXml (sha256 : Sha256) (img : SessionImageV1 F D) : Str :=
  SessionImage.xmlDeclaration ++
    img.base.writeDocWithId true (some (img.sessionId sha256)) (some (img.writeCoefficients true))

def canonicalBytes (img : SessionImageV1 F D) : Bytes :=
  utf8 (img.base.writeDocWithId false none (some (img.writeCoefficients false)))

end SessionImageV1

/-! ## The maps -/

omit [Zero F] [RustFloat F] [Zero D] [RustFloat D] in
def alpha (img : SessionImageV1 F D) : SessionImage F :=
  img.base

omit [Zero F] [RustFloat F] [Zero D] [RustFloat D] in
/-- Embed a v0 image at the top. -/
def gamma (base : SessionImage F) : SessionImageV1 F D :=
  { base
    coefficients := base.surfaces.map fun surf => { surfaceRef := surf.id, coefficient := .top } }

/-! ## Parsing the block -/

structure CoeffBuilder (D : Type) where
  surfaceRef : SurfaceId
  timing : List (Interval D)
  confidentiality : Option Confidentiality
  integrity : Option Integrity
  linearity : Option Linearity

namespace CoeffBuilder

def new (surfaceRef : SurfaceId) : CoeffBuilder D :=
  { surfaceRef, timing := [], confidentiality := none, integrity := none, linearity := none }

def missing (field : Str) : SessionError :=
  .malformed [.text ("surface-coefficient missing <".toList ++ field ++ ">".toList)]

def present {α : Type} (field : Str) : Option α → Except SessionError α
  | some value => .ok value
  | none => .error (missing field)

def build (b : CoeffBuilder D) : Except SessionError (SurfaceCoefficient D) :=
  if b.timing = [] then .error (missing "timing/delay-path".toList)
  else do
    let confidentiality ← present "security".toList b.confidentiality
    let integrity ← present "security".toList b.integrity
    let linearity ← present "linearity".toList b.linearity
    return { surfaceRef := b.surfaceRef
             coefficient := { timing := b.timing, confidentiality, integrity, linearity } }

end CoeffBuilder

inductive CoeffElement where
  | coefficients | surfaceCoefficient | delayPath | security | linearity | unknown
  deriving DecidableEq, Repr

def CoeffElement.ofName (name : Str) : CoeffElement :=
  if name = "coefficients".toList then .coefficients
  else if name = "surface-coefficient".toList then .surfaceCoefficient
  else if name = "delay-path".toList then .delayPath
  else if name = "security".toList then .security
  else if name = "linearity".toList then .linearity
  else .unknown

structure CoeffState (D : Type) where
  out : List (SurfaceCoefficient D)
  inCoeffs : Bool
  cur : Option (CoeffBuilder D)

namespace CoeffState

def init : CoeffState D :=
  { out := [], inCoeffs := false, cur := none }

def outside (tag : Str) : SessionError :=
  .malformed [.text ("<".toList ++ tag ++ "> outside <surface-coefficient>".toList)]

/-- The builder of the surface being read, for a tag that belongs inside one. -/
def current (state : CoeffState D) (tag : Str) : Except SessionError (CoeffBuilder D) :=
  match state.cur with
  | some b => .ok b
  | none => .error (outside tag)

variable (xml : QuickXml)

/-- The second pass reads attributes as the first one does. -/
def attr (e : BytesStart) (key : Str) : Except SessionError Str :=
  findAttr xml key e.attributes

def attrBound (e : BytesStart) (key : Str) : Except SessionError (Bound D) := do
  let text ← attr xml e key
  match Bound.parse text with
  | some bound => .ok bound
  | none => .error (.malformed [.text ("bad delay-path/@".toList ++ key)])

def attrEnum {α : Type} (parse : Str → Option α) (e : BytesStart) (key : Str) :
    Except SessionError α := do
  let text ← attr xml e key
  match parse text with
  | some value => .ok value
  | none => .error (.unknownEnum key text)

def attrCount (e : BytesStart) : Except SessionError Linearity := do
  let text ← attr xml e "count".toList
  match Linearity.parse text with
  | some count => .ok count
  | none => .error (.malformed [.text "bad linearity/@count ".toList, .debug text])

/-- A start or empty tag; only `<coefficients>` itself counts outside the block. -/
def openElement (state : CoeffState D) (e : BytesStart) : Except SessionError (CoeffState D) :=
  match CoeffElement.ofName (localName e.name), state.inCoeffs with
  | .coefficients, _ => .ok { state with inCoeffs := true }
  | .surfaceCoefficient, true => do
      let ref ← attr xml e "surface-ref".toList
      let id ← parseSurfaceId ref
      return { state with cur := some (.new id) }
  | .delayPath, true => do
      let b ← state.current "delay-path".toList
      let lo ← attrBound xml e "lo".toList
      let hi ← attrBound xml e "hi".toList
      return { state with cur := some { b with timing := b.timing ++ [{ lo, hi }] } }
  | .security, true => do
      let b ← state.current "security".toList
      let confidentiality ← attrEnum xml Confidentiality.parse e "confidentiality".toList
      let integrity ← attrEnum xml Integrity.parse e "integrity".toList
      return { state with
        cur := some { b with confidentiality := some confidentiality
                             integrity := some integrity } }
  | .linearity, true => do
      let b ← state.current "linearity".toList
      let linearity ← attrCount xml e
      return { state with cur := some { b with linearity := some linearity } }
  | _, _ => .ok state

def closeElement (state : CoeffState D) (name : Str) : Except SessionError (CoeffState D) :=
  match CoeffElement.ofName (localName name) with
  | .coefficients => .ok { state with inCoeffs := false }
  | .surfaceCoefficient =>
      match state.cur with
      | none => .ok state
      | some b => do
          let built ← b.build
          return { state with cur := none, out := state.out ++ [built] }
  | _ => .ok state

def step (state : CoeffState D) : Event → Except SessionError (CoeffState D)
  | .start e | .empty e => openElement xml state e
  | .close name => closeElement state name
  | .text _ | .other => .ok state

end CoeffState

variable (xml : QuickXml)

/-- Read the coefficient block in a pass of its own. -/
def parseCoefficients (text : Str) : Except SessionError (List (SurfaceCoefficient D)) := do
  let reading := xml.read text
  let state ← reading.events.foldlM (CoeffState.step xml) CoeffState.init
  match reading.ending with
  | .error e => .error (.xml e)
  | .ok () => .ok state.out

def SessionImageV1.fromXml (text : Str) : Except SessionError (SessionImageV1 F D) := do
  let base ← SessionImage.fromXml xml text
  let coefficients ← parseCoefficients xml text
  let img : SessionImageV1 F D := { base, coefficients }
  img.validate
  return img

end Simulboot
