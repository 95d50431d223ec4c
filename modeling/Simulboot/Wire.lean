import Simulboot.Library.Sha256
import Simulboot.Library.Utf8

/-!
# Wire protocol

The messages of the structure channel and their framing: a 4-byte big-endian
length prefix followed by a postcard body. Postcard itself is a parameter.
-/

set_option autoImplicit false

namespace Simulboot

open Library

/-! ## Messages -/

/-- A `[u8; 32]`: the SHA-256 that identifies a surface. -/
structure SurfaceId where
  bytes : Bytes
  length_eq : bytes.length = 32
  deriving DecidableEq

/-- The hash function of the `sha2` crate, as its callers see it. -/
abbrev Sha256 := Bytes → SurfaceId

def sha256Digest : Sha256 := fun data =>
  ⟨Library.Sha256.digest data, Library.Sha256.length_digest data⟩

def numberedId (n : UInt8) : SurfaceId :=
  ⟨List.replicate 32 n, rfl⟩

def surfaceIdFromSeed (sha256 : Sha256) (seed : Str) : SurfaceId :=
  sha256 (utf8 seed)

inductive Codec where
  | h265 | av1
  deriving DecidableEq, Repr

inductive OsKind where
  | macOS | windows | linux
  deriving DecidableEq, Repr

structure HostProvenance where
  os : OsKind
  machineName : Str
  tailscaleAddr : Str
  captureDescription : Str
  deriving DecidableEq

structure SurfaceAnnounce where
  id : SurfaceId
  name : Str
  width : UInt32
  height : UInt32
  codec : Codec
  provenance : HostProvenance
  deriving DecidableEq

/-- A normalised input event; `F` stands for `f32`. -/
inductive InputEvent (F : Type) where
  | keyDown (keycode : UInt32)
  | keyUp (keycode : UInt32)
  | mouseMove (x y : F)
  | mouseDown (button : UInt8)
  | mouseUp (button : UInt8)
  | scroll (dx dy : F)
  deriving DecidableEq

/-- Every control message on the structure channel. The first four travel from
host to compositor, the others from compositor to host. -/
inductive StructureMessage (F : Type) where
  | announce (surface : SurfaceAnnounce)
  | suspendAck
  | reconnectOk (surface : SurfaceAnnounce)
  | reconnectFail (reason : Str)
  | inputEvent (surfaceId : SurfaceId) (event : InputEvent F)
  | resize (surfaceId : SurfaceId) (width height : UInt32)
  | suspend
  | reconnect (sessionId : Str)
  | disconnect
  deriving DecidableEq

/-! ## Framing -/

/-- Postcard's functions at one message type `T`, with its error type `E`. -/
structure Postcard (T E : Type) where
  toStdvec : T → Except E Bytes
  fromBytes : Bytes → Except E T

def Postcard.Inverts {T E : Type} (postcard : Postcard T E) : Prop :=
  ∀ msg body, postcard.toStdvec msg = .ok body → postcard.fromBytes body = .ok msg

inductive WireError (E : Type) where
  | postcard (source : E)
  /-- The buffer does not hold a whole frame yet. -/
  | incomplete (needed available : Nat)
  | tooLarge (len limit : Nat)
  deriving DecidableEq

/-- Upper bound on a single structure-channel frame body. -/
def maxFrameLen : Nat :=
  16 * 1024 * 1024

def toBeBytes (len : Nat) : Bytes :=
  [.ofNat (len / 2 ^ 24), .ofNat (len / 2 ^ 16), .ofNat (len / 2 ^ 8), .ofNat len]

def fromBeBytes (b0 b1 b2 b3 : UInt8) : Nat :=
  b0.toNat * 2 ^ 24 + b1.toNat * 2 ^ 16 + b2.toNat * 2 ^ 8 + b3.toNat

variable {T E : Type}

/-- Serialise a message to a length-prefixed postcard frame. -/
def encodeFrame (postcard : Postcard T E) (msg : T) : Except (WireError E) Bytes :=
  match postcard.toStdvec msg with
  | .error error => .error (.postcard error)
  | .ok body => .ok (toBeBytes body.length ++ body)

/-- Try to decode one frame from the front of `buf`: the message and the number
of bytes consumed. -/
def decodeFrame (postcard : Postcard T E) (buf : Bytes) : Except (WireError E) (T × Nat) :=
  match buf with
  | b0 :: b1 :: b2 :: b3 :: rest =>
      let len := fromBeBytes b0 b1 b2 b3
      if len > maxFrameLen then .error (.tooLarge len maxFrameLen)
      else
        let total := 4 + len
        if buf.length < total then .error (.incomplete total buf.length)
        else
          match postcard.fromBytes (rest.take len) with
          | .error error => .error (.postcard error)
          | .ok msg => .ok (msg, total)
  | _ => .error (.incomplete 4 buf.length)

@[simp] theorem length_toBeBytes (len : Nat) : (toBeBytes len).length = 4 := rfl

/-- The prefix a decoder reads is the length modulo 2^32: the cast to `u32`
drops the rest. -/
theorem fromBeBytes_toBeBytes (len : Nat) :
    fromBeBytes (.ofNat (len / 2 ^ 24)) (.ofNat (len / 2 ^ 16)) (.ofNat (len / 2 ^ 8))
      (.ofNat len) = len % 2 ^ 32 := by
  simp only [fromBeBytes, UInt8.toNat_ofNat']
  omega

theorem decodeFrame_prefixed (postcard : Postcard T E) (b0 b1 b2 b3 : UInt8) (rest : Bytes) :
    decodeFrame postcard (b0 :: b1 :: b2 :: b3 :: rest) =
      let len := fromBeBytes b0 b1 b2 b3
      if maxFrameLen < len then .error (.tooLarge len maxFrameLen)
      else if rest.length < len then .error (.incomplete (4 + len) (rest.length + 4))
      else match postcard.fromBytes (rest.take len) with
        | .error error => .error (.postcard error)
        | .ok msg => .ok (msg, 4 + len) := by
  have shorter : (b0 :: b1 :: b2 :: b3 :: rest).length < 4 + fromBeBytes b0 b1 b2 b3 ↔
      rest.length < fromBeBytes b0 b1 b2 b3 := by
    simp only [List.length_cons]
    omega
  simp only [decodeFrame, gt_iff_lt, shorter]
  rfl

end Simulboot
