import Mathlib.Data.List.Forall2
import Mathlib.Tactic.Ring
import Simulboot.Library.Framing

/-!
# Framed messages in flight

One direction of a connection between a task that writes frames and a task that
reads them: the bytes that are still to be written, those on the wire and those
that the reader buffers. However the bytes move, the lane is a queue of messages.
-/

set_option autoImplicit false

namespace Library

open Framing

/-- The bytes of one direction. -/
structure Lane where
  /-- What is left to write of the frame that is being written. -/
  unsent : Bytes
  wire : Bytes
  buf : Bytes
  deriving DecidableEq

namespace Lane

def empty : Lane :=
  ⟨[], [], []⟩

def start (lane : Lane) (frame : Bytes) : Lane :=
  { lane with unsent := frame }

def push (lane : Lane) (n : Nat) : Lane :=
  { lane with unsent := lane.unsent.drop n, wire := lane.wire ++ lane.unsent.take n }

def pull (lane : Lane) (n : Nat) : Lane :=
  { lane with wire := lane.wire.drop n, buf := lane.buf ++ lane.wire.take n }

def consume (lane : Lane) (n : Nat) : Lane :=
  { lane with buf := lane.buf.drop n }

variable {M E E' : Type}

/-- A decoder sees nothing but whole frames: what it finds at the front of a
stream that begins with a frame is that frame's message. -/
def Faithful (encode : M → Except E Bytes) (decoder : Decoder M E') : Prop :=
  ∀ ⦃msg : M⦄ ⦃frame buf rest : Bytes⦄ ⦃value : M⦄ ⦃consumed : Nat⦄,
    encode msg = .ok frame → buf <+: frame ++ rest →
      decoder.decode buf = .message value consumed → value = msg ∧ consumed = frame.length

/-- How far the frame of the current message is written. -/
def Writing (encode : M → Except E Bytes) (written unsent : Bytes) : Option M → Prop
  | none => written = [] ∧ unsent = []
  | some msg => unsent ≠ [] ∧ encode msg = .ok (written ++ unsent)

/-- A lane holds the frames of these messages whole, and a part of the frame of
the message that is being written. -/
def Carries (encode : M → Except E Bytes) (queued : List M) (current : Option M) (lane : Lane) :
    Prop :=
  ∃ frames part, List.Forall₂ (fun msg frame => encode msg = .ok frame) queued frames ∧
    lane.buf ++ lane.wire = frames.flatten ++ part ∧ Writing encode part lane.unsent current

variable {encode : M → Except E Bytes} {decoder : Decoder M E'} {lane : Lane} {queued : List M}

theorem carries_empty : Carries encode [] none empty :=
  ⟨[], [], .nil, rfl, rfl, rfl⟩

theorem Carries.start {msg : M} {frame : Bytes} (carries : Carries encode queued none lane)
    (encoded : encode msg = .ok frame) (nonempty : frame ≠ []) :
    Carries encode queued (some msg) (lane.start frame) := by
  obtain ⟨frames, part, whole, bytes, nothing, _⟩ := carries
  subst nothing
  exact ⟨frames, [], whole, bytes, nonempty, encoded⟩

/-- While bytes are left to write, the message stays the current one. -/
theorem Carries.push_part {msg : M} {n : Nat} (carries : Carries encode queued (some msg) lane)
    (part : n < lane.unsent.length) : Carries encode queued (some msg) (lane.push n) := by
  obtain ⟨frames, written, whole, bytes, _, encoded⟩ := carries
  refine ⟨frames, written ++ lane.unsent.take n, whole, ?_, ?_, ?_⟩
  · change lane.buf ++ (lane.wire ++ lane.unsent.take n) = _
    rw [← List.append_assoc, bytes, List.append_assoc]
  · intro nothing
    have left := congrArg List.length nothing
    change (lane.unsent.drop n).length = 0 at left
    rw [List.length_drop] at left
    omega
  · change encode msg = .ok (written ++ lane.unsent.take n ++ lane.unsent.drop n)
    rw [List.append_assoc, List.take_append_drop]
    exact encoded

/-- With its last byte the message is in flight. -/
theorem Carries.push_rest {msg : M} {n : Nat} (carries : Carries encode queued (some msg) lane)
    (rest : n = lane.unsent.length) : Carries encode (queued ++ [msg]) none (lane.push n) := by
  obtain ⟨frames, written, whole, bytes, _, encoded⟩ := carries
  subst rest
  refine ⟨frames ++ [written ++ lane.unsent], [], ?_, ?_, rfl, ?_⟩
  · exact List.rel_append whole (.cons encoded .nil)
  · change lane.buf ++ (lane.wire ++ lane.unsent.take lane.unsent.length) = _
    rw [← List.append_assoc, bytes, List.take_length, List.flatten_append, List.flatten_cons,
      List.flatten_nil, List.append_nil, List.append_nil, List.append_assoc]
  · exact List.drop_length

theorem Carries.pull {current : Option M} (carries : Carries encode queued current lane)
    (n : Nat) : Carries encode queued current (lane.pull n) := by
  obtain ⟨frames, part, whole, bytes, writing⟩ := carries
  refine ⟨frames, part, whole, ?_, writing⟩
  change lane.buf ++ lane.wire.take n ++ lane.wire.drop n = _
  rw [List.append_assoc, List.take_append_drop, bytes]

/-- What is decoded from the buffer is the first message in flight. -/
theorem Carries.consume (faithful : Faithful encode decoder) {current : Option M} {value : M}
    {consumed : Nat} (carries : Carries encode queued current lane)
    (decoded : decoder.decode lane.buf = .message value consumed) :
    ∃ later, queued = value :: later ∧ Carries encode later current (lane.consume consumed) := by
  obtain ⟨frames, part, whole, bytes, writing⟩ := carries
  have size := decoder.consumes decoded
  have front : lane.buf <+: frames.flatten ++ part := ⟨lane.wire, bytes⟩
  cases whole with
  | nil =>
      rw [List.flatten_nil, List.nil_append] at front
      cases current with
      | none =>
          obtain ⟨rfl, _⟩ := writing
          have none := List.prefix_nil.mp front
          rw [none, List.length_nil] at size
          omega
      | some msg =>
          obtain ⟨unsent, encoded⟩ := writing
          have within : lane.buf <+: part ++ lane.unsent ++ [] := by
            rw [List.append_nil]
            exact front.trans (List.prefix_append part lane.unsent)
          obtain ⟨_, consumes⟩ := faithful encoded within decoded
          have short := front.length_le
          have some := List.length_pos_of_ne_nil unsent
          rw [List.length_append] at consumes
          omega
  | @cons msg frame later frames encoded whole =>
      rw [List.flatten_cons, List.append_assoc] at front bytes
      obtain ⟨rfl, consumes⟩ := faithful encoded front decoded
      refine ⟨later, rfl, frames, part, whole, ?_, writing⟩
      change lane.buf.drop consumed ++ lane.wire = _
      rw [← List.drop_append_of_le_length size.2, bytes, consumes, List.drop_left]

/-! ## What can go on -/

theorem Carries.eq_empty (carries : Carries encode [] none lane) : lane = empty := by
  obtain ⟨frames, part, whole, bytes, rfl, unsent⟩ := carries
  cases whole
  obtain ⟨buf, wire⟩ := List.append_eq_nil_iff.mp bytes
  obtain ⟨_, _, _⟩ := lane
  cases unsent
  cases buf
  cases wire
  rfl

theorem Carries.unsent_ne_nil {msg : M} (carries : Carries encode queued (some msg) lane) :
    lane.unsent ≠ [] := by
  obtain ⟨_, _, _, _, some, _⟩ := carries
  exact some

/-- A message in flight is in the buffer, or bytes of it are still on the wire. -/
theorem Carries.readable (decoder : Decoder M E') {msg : M} {later : List M} {current : Option M}
    (carries : Carries encode (msg :: later) current lane)
    (accepts : ∀ frame rest, encode msg = .ok frame →
      ∃ value consumed, decoder.decode (frame ++ rest) = .message value consumed) :
    (∃ value consumed, decoder.decode lane.buf = .message value consumed) ∨
      decoder.decode lane.buf = .incomplete ∧ lane.wire ≠ [] := by
  obtain ⟨_, part, whole, bytes, _⟩ := carries
  cases whole with
  | @cons _ frame _ frames encoded _ =>
      obtain ⟨value, consumed, accepted⟩ := accepts frame (frames.flatten ++ part) encoded
      rw [List.flatten_cons, List.append_assoc] at bytes
      rw [← bytes] at accepted
      cases front : decoder.decode lane.buf with
      | message value consumed => exact .inl ⟨value, consumed, rfl⟩
      | failed error =>
          rw [decoder.failed_append lane.wire front] at accepted
          cases accepted
      | incomplete =>
          refine .inr ⟨rfl, fun nothing => ?_⟩
          rw [nothing, List.append_nil, front] at accepted
          cases accepted

/-! ## How far the bytes have to go -/

/-- What is left to do for the bytes of a lane, where a buffered one counts as `unit`. -/
def work (unit : Nat) (lane : Lane) : Nat :=
  (unit + 2) * lane.unsent.length + (unit + 1) * lane.wire.length + unit * lane.buf.length

variable {n : Nat}

theorem work_start (lane : Lane) (unit : Nat) (frame : Bytes) :
    (lane.start frame).work unit ≤ lane.work unit + (unit + 2) * frame.length := by
  simp only [work, start]
  omega

theorem work_push (unit : Nat) (available : n ≤ lane.unsent.length) :
    (lane.push n).work unit + n = lane.work unit := by
  obtain ⟨left, size⟩ := Nat.exists_eq_add_of_le available
  simp only [work, push, List.length_drop, List.length_append, List.length_take, size,
    Nat.add_sub_cancel_left, Nat.min_eq_left (Nat.le_add_right n left)]
  ring

theorem work_pull (unit : Nat) (available : n ≤ lane.wire.length) :
    (lane.pull n).work unit + n = lane.work unit := by
  obtain ⟨left, size⟩ := Nat.exists_eq_add_of_le available
  simp only [work, pull, List.length_drop, List.length_append, List.length_take, size,
    Nat.add_sub_cancel_left, Nat.min_eq_left (Nat.le_add_right n left)]
  ring

theorem work_consume (unit : Nat) (some : 0 < n) (available : n ≤ lane.buf.length) :
    (lane.consume n).work unit + unit ≤ lane.work unit := by
  obtain ⟨left, size⟩ := Nat.exists_eq_add_of_le available
  have one : unit ≤ unit * n := Nat.le_mul_of_pos_right unit some
  simp only [work, consume, List.length_drop, size, Nat.add_sub_cancel_left, Nat.mul_add]
  omega

end Lane

end Library
