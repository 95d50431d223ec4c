import Simulboot.Client.Resume
import Simulboot.Wire.Format

/-!
# Datagrams of the content channel

An encoded frame travels as one datagram: a header in postcard's format, and the
frame behind it without further framing. The format of the header is a parameter.
-/

set_option autoImplicit false

namespace Simulboot

open Library Library.Postcard

/-- Prepended to every encoded frame on the content channel. -/
structure FrameHeader where
  surfaceId : SurfaceId
  pts : UInt64
  len : UInt32
  deriving DecidableEq

/-- One encoded frame ready for the content channel. -/
structure EncodedFrame where
  pts : UInt64
  bytes : Bytes
  deriving DecidableEq

def FrameHeader.format : Format FrameHeader :=
  (SurfaceId.format.pair (Format.u64.pair Format.u32)).via (fun h => (h.surfaceId, h.pts, h.len))
    (fun (surfaceId, pts, len) => .ok { surfaceId, pts, len }) fun _ => rfl

inductive SendDatagramError where
  | unsupportedByPeer
  | disabled
  | tooLarge
  | connectionLost
  deriving DecidableEq, Repr

inductive ContentError where
  | postcard (context : Str) (source : Postcard.Error)
  | sending (context : Str) (source : SendDatagramError)
  deriving DecidableEq, Repr

/-- What a connection answers when a frame is sent: its `max_datagram_size`, and the outcome of
`send_datagram`. -/
structure Outlet where
  maxDatagramSize : Option Nat
  sendDatagram : Except SendDatagramError Unit

section

variable (format : Format FrameHeader)

def EncodedFrame.header (surfaceId : SurfaceId) (frame : EncodedFrame) : FrameHeader :=
  { surfaceId, pts := frame.pts, len := .ofNat frame.bytes.length }

/-- Encode a frame with its header and send it as a single datagram; one that exceeds what the
connection takes is dropped. -/
def sendFrame (outlet : Outlet) (surfaceId : SurfaceId) (frame : EncodedFrame) :
    Except ContentError (Option Bytes) := do
  let header ← (format.write (frame.header surfaceId)).mapError
    (.postcard "serialising frame header".toList)
  let buf := header ++ frame.bytes
  if (outlet.maxDatagramSize.any fun max => decide (max < buf.length)) then return none
  outlet.sendDatagram.mapError (.sending "sending datagram".toList)
  return some buf

/-- Decode a content datagram: the header, with whatever stands behind it as the frame. -/
def decodeDatagram (datagram : Bytes) : Except ContentError FrameEvent := do
  let (header, _) ← (format.read datagram).mapError (.postcard "decoding frame header".toList)
  return { surfaceId := header.surfaceId, pts := header.pts }

def EncodedFrame.event (surfaceId : SurfaceId) (frame : EncodedFrame) : FrameEvent :=
  { surfaceId, pts := frame.pts }

variable {format}

private theorem bytes_of_sendFrame {outlet : Outlet} {surfaceId : SurfaceId} {frame : EncodedFrame}
    {datagram : Bytes} (sent : sendFrame format outlet surfaceId frame = .ok (some datagram)) :
    ∃ header, format.write (frame.header surfaceId) = .ok header ∧
      datagram = header ++ frame.bytes := by
  obtain ⟨header, written, sent⟩ := bind_eq_ok sent
  dsimp only at sent
  split at sent
  · cases sent
  · obtain ⟨_, _, sent⟩ := bind_eq_ok sent
    cases sent
    cases wrote : format.write (frame.header surfaceId) with
    | error e =>
        rw [wrote] at written
        cases written
    | ok data =>
        rw [wrote] at written
        cases written
        exact ⟨_, rfl, rfl⟩

theorem decodeDatagram_of_sendFrame {outlet : Outlet} {surfaceId : SurfaceId} {frame : EncodedFrame}
    {datagram : Bytes} (sent : sendFrame format outlet surfaceId frame = .ok (some datagram)) :
    decodeDatagram format datagram = .ok (frame.event surfaceId) := by
  obtain ⟨header, written, rfl⟩ := bytes_of_sendFrame sent
  unfold decodeDatagram
  rw [format.read_write written]
  rfl

end

end Simulboot
