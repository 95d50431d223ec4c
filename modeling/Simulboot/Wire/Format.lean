import Simulboot.Library.Postcard
import Simulboot.Wire

/-!
# Structure messages in postcard

The format that the derived serialisation gives every message: the fields in
their order, a variant behind its number. It is a concrete instance of the
postcard functions that the wire protocol is parameterised by.
-/

set_option autoImplicit false

namespace Simulboot

open Library Library.Postcard

def SurfaceId.format : Format SurfaceId :=
  (Format.array 32).via (fun id => ⟨id.bytes, id.length_eq⟩)
    (fun data => .ok ⟨data.val, data.property⟩) fun _ => rfl

def Codec.format : Format Codec :=
  .enumeration [.h265, .av1] fun codec => by cases codec <;> decide

def OsKind.format : Format OsKind :=
  .enumeration [.macOS, .windows, .linux] fun os => by cases os <;> decide

def HostProvenance.format : Format HostProvenance :=
  (OsKind.format.pair (Format.string.pair (Format.string.pair Format.string))).via
    (fun p => (p.os, p.machineName, p.tailscaleAddr, p.captureDescription))
    (fun (os, machineName, tailscaleAddr, captureDescription) =>
      .ok { os, machineName, tailscaleAddr, captureDescription })
    fun _ => rfl

def SurfaceAnnounce.format : Format SurfaceAnnounce :=
  (SurfaceId.format.pair (Format.string.pair (Format.u32.pair (Format.u32.pair
    (Codec.format.pair HostProvenance.format))))).via
    (fun a => (a.id, a.name, a.width, a.height, a.codec, a.provenance))
    (fun (id, name, width, height, codec, provenance) =>
      .ok { id, name, width, height, codec, provenance })
    fun _ => rfl

/-! ## Variants -/

inductive InputEventKind where
  | keyDown | keyUp | mouseMove | mouseDown | mouseUp | scroll
  deriving DecidableEq

/-- The fields behind the number of an input event. -/
abbrev InputEventKind.Fields (F : Type) : InputEventKind → Type
  | .keyDown | .keyUp => UInt32
  | .mouseMove | .scroll => F × F
  | .mouseDown | .mouseUp => UInt8

inductive MessageKind where
  | announce | suspendAck | reconnectOk | reconnectFail
  | inputEvent | resize | suspend | reconnect | disconnect
  deriving DecidableEq

/-- The fields behind the number of a message. -/
abbrev MessageKind.Fields (F : Type) : MessageKind → Type
  | .announce | .reconnectOk => SurfaceAnnounce
  | .reconnectFail | .reconnect => Str
  | .inputEvent => SurfaceId × InputEvent F
  | .resize => SurfaceId × UInt32 × UInt32
  | .suspendAck | .suspend | .disconnect => Unit

variable {F : Type} (f32 : Format F)

def InputEventKind.format : Format InputEventKind :=
  .enumeration [.keyDown, .keyUp, .mouseMove, .mouseDown, .mouseUp, .scroll] fun kind => by
    cases kind <;> decide

def InputEventKind.fields : (kind : InputEventKind) → Format (kind.Fields F)
  | .keyDown | .keyUp => Format.u32
  | .mouseMove | .scroll => f32.pair f32
  | .mouseDown | .mouseUp => Format.u8

def InputEvent.split : InputEvent F → (kind : InputEventKind) × kind.Fields F
  | .keyDown keycode => ⟨.keyDown, keycode⟩
  | .keyUp keycode => ⟨.keyUp, keycode⟩
  | .mouseMove x y => ⟨.mouseMove, x, y⟩
  | .mouseDown button => ⟨.mouseDown, button⟩
  | .mouseUp button => ⟨.mouseUp, button⟩
  | .scroll dx dy => ⟨.scroll, dx, dy⟩

def InputEvent.join : (kind : InputEventKind) × kind.Fields F → InputEvent F
  | ⟨.keyDown, keycode⟩ => .keyDown keycode
  | ⟨.keyUp, keycode⟩ => .keyUp keycode
  | ⟨.mouseMove, x, y⟩ => .mouseMove x y
  | ⟨.mouseDown, button⟩ => .mouseDown button
  | ⟨.mouseUp, button⟩ => .mouseUp button
  | ⟨.scroll, dx, dy⟩ => .scroll dx dy

def InputEvent.format : Format (InputEvent F) :=
  (InputEventKind.format.dependent (InputEventKind.fields f32)).via InputEvent.split
    (fun fields => .ok (.join fields)) fun event => by cases event <;> rfl

def MessageKind.format : Format MessageKind :=
  .enumeration
    [.announce, .suspendAck, .reconnectOk, .reconnectFail, .inputEvent, .resize, .suspend,
      .reconnect, .disconnect]
    fun kind => by cases kind <;> decide

def MessageKind.fields : (kind : MessageKind) → Format (kind.Fields F)
  | .announce | .reconnectOk => SurfaceAnnounce.format
  | .reconnectFail | .reconnect => Format.string
  | .inputEvent => SurfaceId.format.pair (InputEvent.format f32)
  | .resize => SurfaceId.format.pair (Format.u32.pair Format.u32)
  | .suspendAck | .suspend | .disconnect => Format.unit

namespace StructureMessage

def split : StructureMessage F → (kind : MessageKind) × kind.Fields F
  | .announce surface => ⟨.announce, surface⟩
  | .suspendAck => ⟨.suspendAck, ()⟩
  | .reconnectOk surface => ⟨.reconnectOk, surface⟩
  | .reconnectFail reason => ⟨.reconnectFail, reason⟩
  | .inputEvent surfaceId event => ⟨.inputEvent, surfaceId, event⟩
  | .resize surfaceId width height => ⟨.resize, surfaceId, width, height⟩
  | .suspend => ⟨.suspend, ()⟩
  | .reconnect sessionId => ⟨.reconnect, sessionId⟩
  | .disconnect => ⟨.disconnect, ()⟩

def join : (kind : MessageKind) × kind.Fields F → StructureMessage F
  | ⟨.announce, surface⟩ => .announce surface
  | ⟨.suspendAck, ()⟩ => .suspendAck
  | ⟨.reconnectOk, surface⟩ => .reconnectOk surface
  | ⟨.reconnectFail, reason⟩ => .reconnectFail reason
  | ⟨.inputEvent, surfaceId, event⟩ => .inputEvent surfaceId event
  | ⟨.resize, surfaceId, width, height⟩ => .resize surfaceId width height
  | ⟨.suspend, ()⟩ => .suspend
  | ⟨.reconnect, sessionId⟩ => .reconnect sessionId
  | ⟨.disconnect, ()⟩ => .disconnect

def format : Format (StructureMessage F) :=
  (MessageKind.format.dependent (MessageKind.fields f32)).via split
    (fun fields => .ok (join fields)) fun msg => by cases msg <;> rfl

def postcard : Postcard (StructureMessage F) Error where
  toStdvec := (format f32).write
  fromBytes data := ((format f32).read data).map Prod.fst

theorem postcard_inverts : (postcard f32).Inverts := by
  intro msg body written
  have read := (format f32).read_write written []
  rw [List.append_nil] at read
  change ((format f32).read body).map Prod.fst = .ok msg
  rw [read]
  rfl

example : (postcard Format.f32).toStdvec (.reconnect "sha256:0".toList) =
    .ok (7 :: 8 :: utf8 "sha256:0".toList) := by rfl

/-! ### Bodies that are cut off -/

theorem selfDelimiting_provenance : HostProvenance.format.SelfDelimiting :=
  ((Format.selfDelimiting_enumeration _ _).pair (Format.selfDelimiting_string.pair
    (Format.selfDelimiting_string.pair Format.selfDelimiting_string))).via

theorem selfDelimiting_id : SurfaceId.format.SelfDelimiting :=
  (Format.selfDelimiting_array 32).via

theorem selfDelimiting_announce : SurfaceAnnounce.format.SelfDelimiting :=
  (selfDelimiting_id.pair (Format.selfDelimiting_string.pair (Format.selfDelimiting_u32.pair
    (Format.selfDelimiting_u32.pair ((Format.selfDelimiting_enumeration _ _).pair
      selfDelimiting_provenance))))).via

variable {f32}

theorem selfDelimiting_inputEvent (delimiting : f32.SelfDelimiting) :
    (InputEvent.format f32).SelfDelimiting := by
  refine ((Format.selfDelimiting_enumeration _ _).dependent fun kind => ?_).via
  cases kind with
  | keyDown | keyUp => exact Format.selfDelimiting_u32
  | mouseMove | scroll => exact delimiting.pair delimiting
  | mouseDown | mouseUp => exact Format.selfDelimiting_u8

theorem selfDelimiting_format (delimiting : f32.SelfDelimiting) :
    (format f32).SelfDelimiting := by
  refine ((Format.selfDelimiting_enumeration _ _).dependent fun kind => ?_).via
  cases kind with
  | announce | reconnectOk => exact selfDelimiting_announce
  | reconnectFail | reconnect => exact Format.selfDelimiting_string
  | inputEvent => exact selfDelimiting_id.pair (selfDelimiting_inputEvent delimiting)
  | resize => exact selfDelimiting_id.pair (Format.selfDelimiting_u32.pair Format.selfDelimiting_u32)
  | suspendAck | suspend | disconnect => exact Format.selfDelimiting_unit

/-- A body that is cut off anywhere is refused. -/
theorem postcard_refuses (delimiting : f32.SelfDelimiting) {msg : StructureMessage F}
    {body : Bytes} (serialised : (postcard f32).toStdvec msg = .ok body) {n : Nat}
    (short : n < body.length) : ∃ error, (postcard f32).fromBytes (body.take n) = .error error := by
  obtain ⟨error, refused⟩ := (selfDelimiting_format delimiting).refuses serialised short
  refine ⟨error, ?_⟩
  change ((format f32).read (body.take n)).map Prod.fst = _
  rw [refused]
  rfl

/-! ### Lengths -/

theorem total_inputEvent (total : f32.Total) : (InputEvent.format f32).Total := by
  have kinds : InputEventKind.format.Total := by
    intro kind
    cases kind <;> exact ⟨_, rfl⟩
  refine (kinds.dependent fun kind => ?_).via
  cases kind with
  | keyDown | keyUp => exact Format.total_u32
  | mouseMove | scroll => exact total.pair total
  | mouseDown | mouseUp => exact Format.total_u8

theorem write_inputEvent (total : f32.Total) (id : SurfaceId) (event : InputEvent F) :
    ∃ body, (postcard f32).toStdvec (.inputEvent id event) = .ok body := by
  have ids : SurfaceId.format.Total := (Format.total_array 32).via
  obtain ⟨fields, wrote⟩ := (ids.pair (total_inputEvent total)) (id, event)
  refine ⟨4 :: fields, ?_⟩
  change (do
    let front ← MessageKind.format.write .inputEvent
    let back ← (SurfaceId.format.pair (InputEvent.format f32)).write (id, event)
    return front ++ back) = _
  rw [wrote]
  rfl

/-- An input event takes few bytes. -/
theorem length_inputEvent {size : Nat} (atMost : f32.AtMost size) {id : SurfaceId}
    {event : InputEvent F} {body : Bytes}
    (serialised : (postcard f32).toStdvec (.inputEvent id event) = .ok body) :
    body.length ≤ 47 + 2 * size := by
  have fields : ∀ kind, (InputEventKind.fields f32 kind).AtMost (5 + 2 * size) := by
    intro kind
    cases kind with
    | keyDown | keyUp => exact Format.atMost_u32.mono (Nat.le_add_right 5 _)
    | mouseMove | scroll => exact (atMost.pair atMost).mono (by omega)
    | mouseDown | mouseUp => exact Format.atMost_u8.mono (by omega)
  have events : (InputEvent.format f32).AtMost (5 + (5 + 2 * size)) :=
    ((Format.atMost_enumeration _ _).dependent fields).via
  obtain ⟨front, wroteFront, serialised⟩ := bind_eq_ok (x := MessageKind.format.write .inputEvent)
    serialised
  obtain ⟨back, wroteBack, serialised⟩ :=
    bind_eq_ok (x := (SurfaceId.format.pair (InputEvent.format f32)).write (id, event)) serialised
  cases serialised
  have kind := Format.atMost_enumeration _ _ wroteFront
  have rest := (Format.AtMost.pair (Format.atMost_array 32).via events) wroteBack
  rw [List.length_append]
  omega

variable (f32)

/-- A reconnect request for a session with a long name is longer still. -/
theorem write_reconnect {sessionId : Str} (fits : (utf8 sessionId).length < 2 ^ 64) :
    ∃ body, (postcard f32).toStdvec (.reconnect sessionId) = .ok body ∧
      (utf8 sessionId).length < body.length := by
  obtain ⟨data, wrote, longer⟩ := Format.write_string fits
  refine ⟨7 :: data, ?_, longer.trans (Nat.lt_succ_self _)⟩
  change (do
    let front ← MessageKind.format.write .reconnect
    let back ← Format.string.write sessionId
    return front ++ back) = _
  rw [wrote]
  rfl

end StructureMessage

end Simulboot
