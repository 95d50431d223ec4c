import Mathlib.Data.List.Basic
import Simulboot.Library.Text

/-!
# SHA-256

The hash function itself, computed over lists of bytes.
-/

set_option autoImplicit false

namespace Library.Sha256

structure Words where
  a : UInt32
  b : UInt32
  c : UInt32
  d : UInt32
  e : UInt32
  f : UInt32
  g : UInt32
  h : UInt32

def initial : Words :=
  { a := 0x6a09e667, b := 0xbb67ae85, c := 0x3c6ef372, d := 0xa54ff53a
    e := 0x510e527f, f := 0x9b05688c, g := 0x1f83d9ab, h := 0x5be0cd19 }

def roundConstants : List UInt32 :=
  [0x428a2f98, 0x71374491, 0xb5c0fbcf, 0xe9b5dba5, 0x3956c25b, 0x59f111f1, 0x923f82a4, 0xab1c5ed5,
   0xd807aa98, 0x12835b01, 0x243185be, 0x550c7dc3, 0x72be5d74, 0x80deb1fe, 0x9bdc06a7, 0xc19bf174,
   0xe49b69c1, 0xefbe4786, 0x0fc19dc6, 0x240ca1cc, 0x2de92c6f, 0x4a7484aa, 0x5cb0a9dc, 0x76f988da,
   0x983e5152, 0xa831c66d, 0xb00327c8, 0xbf597fc7, 0xc6e00bf3, 0xd5a79147, 0x06ca6351, 0x14292967,
   0x27b70a85, 0x2e1b2138, 0x4d2c6dfc, 0x53380d13, 0x650a7354, 0x766a0abb, 0x81c2c92e, 0x92722c85,
   0xa2bfe8a1, 0xa81a664b, 0xc24b8b70, 0xc76c51a3, 0xd192e819, 0xd6990624, 0xf40e3585, 0x106aa070,
   0x19a4c116, 0x1e376c08, 0x2748774c, 0x34b0bcb5, 0x391c0cb3, 0x4ed8aa4a, 0x5b9cca4f, 0x682e6ff3,
   0x748f82ee, 0x78a5636f, 0x84c87814, 0x8cc70208, 0x90befffa, 0xa4506ceb, 0xbef9a3f7, 0xc67178f2]

def rotateRight (word bits : UInt32) : UInt32 :=
  word >>> bits ||| word <<< (32 - bits)

def smallSigma0 (word : UInt32) : UInt32 :=
  rotateRight word 7 ^^^ rotateRight word 18 ^^^ word >>> 3

def smallSigma1 (word : UInt32) : UInt32 :=
  rotateRight word 17 ^^^ rotateRight word 19 ^^^ word >>> 10

def bigSigma0 (word : UInt32) : UInt32 :=
  rotateRight word 2 ^^^ rotateRight word 13 ^^^ rotateRight word 22

def bigSigma1 (word : UInt32) : UInt32 :=
  rotateRight word 6 ^^^ rotateRight word 11 ^^^ rotateRight word 25

def choose (x y z : UInt32) : UInt32 :=
  (x &&& y) ^^^ (~~~x &&& z)

def majority (x y z : UInt32) : UInt32 :=
  (x &&& y) ^^^ (x &&& z) ^^^ (y &&& z)

/-- The message with its padding: a one bit, zeros, and the length in bits. -/
def pad (message : Bytes) : Bytes :=
  let bits := 8 * message.length
  message ++ [0x80] ++ List.replicate ((119 - message.length % 64) % 64) 0 ++
    [56, 48, 40, 32, 24, 16, 8, 0].map fun shift => UInt8.ofNat (bits / 2 ^ shift)

def toWords : Bytes → List UInt32
  | b0 :: b1 :: b2 :: b3 :: rest =>
      (b0.toUInt32 <<< 24 ||| b1.toUInt32 <<< 16 ||| b2.toUInt32 <<< 8 ||| b3.toUInt32) ::
        toWords rest
  | _ => []

/-- The message schedule, latest word first. -/
def extendSchedule (schedule : List UInt32) : List UInt32 :=
  let word (distance : Nat) := schedule.getD (distance - 1) 0
  (smallSigma1 (word 2) + word 7 + smallSigma0 (word 15) + word 16) :: schedule

def schedule (block : Bytes) : List UInt32 :=
  ((List.range 48).foldl (fun words _ => extendSchedule words) (toWords block).reverse).reverse

def round (w : Words) (input : UInt32 × UInt32) : Words :=
  let t1 := w.h + bigSigma1 w.e + choose w.e w.f w.g + input.1 + input.2
  let t2 := bigSigma0 w.a + majority w.a w.b w.c
  { a := t1 + t2, b := w.a, c := w.b, d := w.c, e := w.d + t1, f := w.e, g := w.f, h := w.g }

def compress (w : Words) (block : Bytes) : Words :=
  let r := (roundConstants.zip (schedule block)).foldl round w
  { a := w.a + r.a, b := w.b + r.b, c := w.c + r.c, d := w.d + r.d
    e := w.e + r.e, f := w.f + r.f, g := w.g + r.g, h := w.h + r.h }

def wordBytes (word : UInt32) : Bytes :=
  [(word >>> 24).toUInt8, (word >>> 16).toUInt8, (word >>> 8).toUInt8, word.toUInt8]

def Words.bytes (w : Words) : Bytes :=
  wordBytes w.a ++ wordBytes w.b ++ wordBytes w.c ++ wordBytes w.d ++
    wordBytes w.e ++ wordBytes w.f ++ wordBytes w.g ++ wordBytes w.h

def digest (message : Bytes) : Bytes :=
  ((pad message).toChunks 64 |>.foldl compress initial).bytes

theorem length_digest (message : Bytes) : (digest message).length = 32 := rfl

example : digest [0x61, 0x62, 0x63] =
    [0xba, 0x78, 0x16, 0xbf, 0x8f, 0x01, 0xcf, 0xea, 0x41, 0x41, 0x40, 0xde, 0x5d, 0xae, 0x22, 0x23,
     0xb0, 0x03, 0x61, 0xa3, 0x96, 0x17, 0x7a, 0x9c, 0xb4, 0x10, 0xff, 0x61, 0xf2, 0x00, 0x15,
     0xad] := by
  decide +kernel

end Library.Sha256
