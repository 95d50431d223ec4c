import Simulboot.Library.Run
import Simulboot.Wire.Format

/-!
# Encoder against decoder

What `decode_frame` makes of the frames that `encode_frame` wrote. The encoder
takes a body of any length, the decoder only one within the limit.
-/

set_option autoImplicit false

namespace Simulboot

open Library

variable {T E : Type}

/-- Decode so many frames one after another from the front of a buffer: each
message with the number of bytes consumed for it. -/
def decodeFrames (postcard : Postcard T E) : Nat → Bytes → Except (WireError E) (List (T × Nat))
  | 0, _ => .ok []
  | count + 1, buf => do
      let (msg, consumed) ← decodeFrame postcard buf
      let later ← decodeFrames postcard count (buf.drop consumed)
      return (msg, consumed) :: later

def Encoded (postcard : Postcard T E) : List T → List Bytes → Prop :=
  List.Forall₂ fun msg frame => encodeFrame postcard msg = .ok frame

variable {postcard : Postcard T E}

theorem encodeFrame_eq_ok {msg : T} {frame : Bytes} (encoded : encodeFrame postcard msg = .ok frame) :
    ∃ body, postcard.toStdvec msg = .ok body ∧ frame = toBeBytes body.length ++ body := by
  unfold encodeFrame at encoded
  split at encoded
  · cases encoded
  · rename_i body serialised
    cases encoded
    exact ⟨body, serialised, rfl⟩

theorem decodeFrame_encodeFrame (inverts : postcard.Inverts) {msg : T} {body : Bytes}
    (serialised : postcard.toStdvec msg = .ok body) (fits : body.length ≤ maxFrameLen)
    (rest : Bytes) :
    decodeFrame postcard (toBeBytes body.length ++ body ++ rest) =
      .ok (msg, (toBeBytes body.length ++ body).length) := by
  have whole : body.length % 2 ^ 32 = body.length :=
    Nat.mod_eq_of_lt (fits.trans_lt (by decide))
  have notLarge : ¬ maxFrameLen < body.length := by omega
  have notShort : ¬ (body ++ rest).length < body.length := by simp
  unfold toBeBytes
  rw [List.append_assoc, List.cons_append, List.cons_append, List.cons_append, List.cons_append,
    List.nil_append, decodeFrame_prefixed]
  simp only [fromBeBytes_toBeBytes, whole, if_neg notLarge, if_neg notShort, List.take_left,
    inverts msg body serialised]
  simp only [List.length_append, List.length_cons, List.length_nil, Nat.zero_add]

theorem consumed_behind_prefix {len consumed : Nat} {rest : Bytes} {msg : T}
    (decoded : decodeFrame postcard (toBeBytes len ++ rest) = .ok (msg, consumed)) :
    len % 2 ^ 32 ≤ maxFrameLen ∧ consumed = 4 + len % 2 ^ 32 := by
  unfold toBeBytes at decoded
  rw [List.cons_append, List.cons_append, List.cons_append, List.cons_append, List.nil_append,
    decodeFrame_prefixed] at decoded
  simp only [fromBeBytes_toBeBytes] at decoded
  split at decoded
  · cases decoded
  · rename_i notLarge
    split at decoded
    · cases decoded
    · split at decoded
      · cases decoded
      · cases decoded
        exact ⟨Nat.le_of_not_lt notLarge, rfl⟩

theorem decodeFrames_cons {count : Nat} {buf : Bytes} {msg : T} {consumed : Nat}
    {later : List (T × Nat)} :
    decodeFrames postcard (count + 1) buf = .ok ((msg, consumed) :: later) ↔
      decodeFrame postcard buf = .ok (msg, consumed) ∧
        decodeFrames postcard count (buf.drop consumed) = .ok later := by
  constructor
  · intro decoded
    obtain ⟨⟨front, taken⟩, first, decoded⟩ := bind_eq_ok decoded
    obtain ⟨behind, second, decoded⟩ := bind_eq_ok decoded
    cases decoded
    exact ⟨first, second⟩
  · rintro ⟨first, second⟩
    simp only [decodeFrames, first, bind, Except.bind, second]
    rfl

def Fits (postcard : Postcard T E) (msgs : List T) : Prop :=
  ∀ msg ∈ msgs, ∀ body, postcard.toStdvec msg = .ok body → body.length ≤ maxFrameLen

/-- Encoder and decoder agree on a list of messages exactly where every body is
within the limit that only the decoder knows. -/
theorem frames_agree_iff (inverts : postcard.Inverts) {msgs : List T} {frames : List Bytes}
    (encoded : Encoded postcard msgs frames) :
    (∀ further, decodeFrames postcard msgs.length (frames.flatten ++ further) =
        .ok (msgs.zip (frames.map List.length))) ↔
      Fits postcard msgs := by
  induction encoded with
  | nil => exact ⟨fun _ _ member => absurd member List.not_mem_nil, fun _ _ => rfl⟩
  | @cons msg frame msgs frames first encoded ih =>
      obtain ⟨body, serialised, rfl⟩ := encodeFrame_eq_ok first
      have split : ∀ further, decodeFrames postcard (msg :: msgs).length
            (((toBeBytes body.length ++ body) :: frames).flatten ++ further) =
          .ok ((msg :: msgs).zip (((toBeBytes body.length ++ body) :: frames).map List.length)) ↔
          decodeFrame postcard (toBeBytes body.length ++ body ++ (frames.flatten ++ further)) =
              .ok (msg, (toBeBytes body.length ++ body).length) ∧
            decodeFrames postcard msgs.length (frames.flatten ++ further) =
              .ok (msgs.zip (frames.map List.length)) := by
        intro further
        rw [List.flatten_cons, List.append_assoc (toBeBytes _ ++ body), List.map_cons,
          List.zip_cons_cons, List.length_cons, decodeFrames_cons, List.drop_left]
      have fits : Fits postcard (msg :: msgs) ↔ body.length ≤ maxFrameLen ∧ Fits postcard msgs := by
        unfold Fits
        rw [List.forall_mem_cons]
        refine and_congr_left fun _ => ⟨fun all => all body serialised, fun short other same => ?_⟩
        rw [serialised] at same
        cases same
        exact short
      rw [fits, ← ih]
      constructor
      · intro agree
        refine ⟨?_, fun further => ((split further).mp (agree further)).2⟩
        have decoded := ((split []).mp (agree [])).1
        rw [List.append_assoc] at decoded
        obtain ⟨short, size⟩ := consumed_behind_prefix decoded
        rw [List.length_append, length_toBeBytes] at size
        omega
      · rintro ⟨short, agree⟩ further
        exact (split further).mpr ⟨decodeFrame_encodeFrame inverts serialised short _, agree further⟩

/-- Two control messages behind one another, as they are sent. -/
theorem suspension_frames_agree :
    Encoded (StructureMessage.postcard Library.Postcard.Format.f32)
        [.reconnect "sha256:0".toList, .suspend]
        [toBeBytes 10 ++ 7 :: 8 :: utf8 "sha256:0".toList, toBeBytes 1 ++ [6]] ∧
      ∀ further, decodeFrames (StructureMessage.postcard Library.Postcard.Format.f32) 2
          ((toBeBytes 10 ++ 7 :: 8 :: utf8 "sha256:0".toList) ++ (toBeBytes 1 ++ [6]) ++ further) =
        .ok [(.reconnect "sha256:0".toList, 14), (.suspend, 5)] := by
  have encoded : Encoded (StructureMessage.postcard Library.Postcard.Format.f32)
      [.reconnect "sha256:0".toList, .suspend]
      [toBeBytes 10 ++ 7 :: 8 :: utf8 "sha256:0".toList, toBeBytes 1 ++ [6]] :=
    .cons rfl (.cons rfl .nil)
  refine ⟨encoded, (frames_agree_iff (StructureMessage.postcard_inverts _) encoded).mpr ?_⟩
  intro msg member body serialised
  rcases List.mem_cons.mp member with rfl | member
  · cases serialised
    decide
  · obtain rfl := List.mem_singleton.mp member
    cases serialised
    decide

/-- A frame whose body is too long for the decoder is not read back. -/
theorem not_decoded_of_long {msg : T} {body : Bytes}
    (serialised : postcard.toStdvec msg = .ok body) (long : maxFrameLen < body.length) :
    ∃ frame, Encoded postcard [msg] [frame] ∧
      ¬ ∀ further, decodeFrames postcard 1 ([frame].flatten ++ further) =
          .ok ([msg].zip ([frame].map List.length)) := by
  refine ⟨toBeBytes body.length ++ body, .cons ?_ .nil, fun agree => ?_⟩
  · unfold encodeFrame
    rw [serialised]
  · have decoded := (decodeFrames_cons.mp (agree [])).1
    rw [List.flatten_cons, List.append_assoc, List.append_assoc] at decoded
    obtain ⟨short, consumed⟩ := consumed_behind_prefix decoded
    rw [List.length_append, length_toBeBytes] at consumed
    omega

/-- A reconnect request for a session whose document declares an id of 16 MiB. -/
def longReconnect : StructureMessage UInt32 :=
  .reconnect (List.replicate maxFrameLen 'a')

theorem longReconnect_not_decoded :
    ∃ frame, Encoded (StructureMessage.postcard Library.Postcard.Format.f32) [longReconnect]
        [frame] ∧
      ¬ ∀ further, decodeFrames (StructureMessage.postcard Library.Postcard.Format.f32) 1
          ([frame].flatten ++ further) = .ok ([longReconnect].zip ([frame].map List.length)) := by
  have size : (utf8 (List.replicate maxFrameLen 'a')).length = maxFrameLen := by
    rw [utf8_ascii (by intro c member; rw [List.eq_of_mem_replicate member]; decide),
      List.length_map, List.length_replicate]
  have countable : (utf8 (List.replicate maxFrameLen 'a')).length < 2 ^ 64 := by
    rw [size]
    decide
  obtain ⟨body, serialised, long⟩ :=
    StructureMessage.write_reconnect Library.Postcard.Format.f32 countable
  rw [size] at long
  exact not_decoded_of_long serialised long

end Simulboot
