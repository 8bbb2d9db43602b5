import MirrorCast.Program.Native.MediaCodec
import MirrorCast.Program.Native.MediaServer

/-! # The TCP stream between the native players -/

namespace MirrorCast.Native

open Java Chunked MediaCodec Native.MediaServer

/-! ## Messages -/

/-- What the sender writes as a whole. -/
inductive Message where
  | frame (r : Room)
  | orientation (isPortrait : Bool)
  deriving DecidableEq, Repr

namespace Message

def bytes : Message → List UInt8
  | frame r => r.frame
  | orientation isPortrait => if isPortrait then ORIENTATION_PORTRAIT else ORIENTATION_LANDSCAPE

/-- The bytes behind the length. -/
def payload : Message → List UInt8
  | frame r => r.room ++ [r.orientation, r.flags.toUInt8]
  | orientation isPortrait => [if isPortrait then 255 else 254]

/-- The calls that a message is meant to cause. -/
def calls : Message → List Received
  | frame r => [.putData (r.room ++ [r.orientation, r.flags.toUInt8])]
  | orientation isPortrait =>
      let which := if isPortrait then 1 else 2
      [.changeWindow which, .setOrientation which]

/-- The payload fits the buffers of the receiver, and a frame does not begin like an orientation
message. -/
structure Fits (m : Message) : Prop where
  pos : 1 ≤ m.payload.length
  le : m.payload.length ≤ DATA_BUFFER
  distinct : ∀ r, m = frame r → m.payload.head? ≠ some 254 ∧ m.payload.head? ≠ some 255

end Message

/-- The messages that a sequence of outputs writes. -/
def written : KeyFrameWrite → List Output → List Message
  | _, [] => []
  | s, .handleOutputBufferImpl r :: outputs =>
      let next := handleOutputBufferImpl s r
      if next.2.isSome then .frame r :: written next.1 outputs else written next.1 outputs
  | s, .fromPortraitToLandscape :: outputs =>
      .orientation false :: written { s with landscape := false } outputs
  | s, .fromLandscapeToPortrait :: outputs =>
      .orientation true :: written { s with portrait := false } outputs

/-! ## Bytes -/

def header (length : ℤ) : List UInt8 :=
  [toByte length, toByte (length / 2 ^ 8), toByte (length / 2 ^ 16), toByte (length / 2 ^ 24)]

theorem uint8tToInt_header {n : ℕ} (h : n < 2 ^ 31) : uint8tToInt (header n) = n := by
  have hsum : ((toByte (n : ℤ)).toNat + (toByte ((n : ℤ) / 2 ^ 8)).toNat * 2 ^ 8 +
      (toByte ((n : ℤ) / 2 ^ 16)).toNat * 2 ^ 16 +
      (toByte ((n : ℤ) / 2 ^ 24)).toNat * 2 ^ 24 : ℤ) = n := by
    simp only [toNat_toByte]
    omega
  simp only [uint8tToInt, header, List.getD_cons_zero, List.getD_cons_succ]
  rw [hsum, int32_natCast h]

theorem int2Bytes_replicate (n : ℕ) (length : ℤ) :
    int2Bytes (List.replicate (n + 4) 0) length = header length ++ List.replicate n 0 := rfl

theorem frame_eq (r : Room) :
    r.frame = header (r.room.length + 2 : ℕ) ++ (r.room ++ [r.orientation, r.flags.toUInt8]) := by
  unfold Room.frame
  have hzeros : List.replicate (r.room.length + 6) (0 : UInt8) =
      List.replicate (r.room.length + 2 + 4) 0 := rfl
  dsimp only
  rw [hzeros, int2Bytes_replicate, blit_append (by rfl), List.drop_replicate,
    Nat.add_sub_cancel_left, List.append_assoc, List.set_append_right _ _ (by simp [header]),
    List.set_append_right _ _ (by simp [header]), List.set_append_right _ _ (by simp [header]),
    List.set_append_right _ _ (by simp [header])]
  simp [header]

theorem bytes_eq (m : Message) : m.bytes = header m.payload.length ++ m.payload := by
  cases m with
  | frame r =>
      rw [Message.bytes, frame_eq, Message.payload, List.length_append]
      rfl
  | orientation isPortrait => cases isPortrait <;> rfl

theorem frame_of_handleOutputBufferImpl {s : KeyFrameWrite} {r : Room} {bytes : List UInt8}
    (h : (handleOutputBufferImpl s r).2 = some bytes) : bytes = r.frame := by
  unfold handleOutputBufferImpl at h
  grind

theorem sent_eq (s : KeyFrameWrite) (outputs : List Output) :
    sent s outputs = (written s outputs).map Message.bytes := by
  induction outputs generalizing s with
  | nil => rfl
  | cons output outputs ih =>
      cases output with
      | handleOutputBufferImpl r =>
          rw [sent, written, ih]
          cases hout : (handleOutputBufferImpl s r).2 with
          | none => rfl
          | some bytes =>
              rw [frame_of_handleOutputBufferImpl hout]
              rfl
      | fromPortraitToLandscape =>
          rw [sent, written, ih]
          rfl
      | fromLandscapeToPortrait =>
          rw [sent, written, ih]
          rfl

/-! ## Receiving -/

/-- What is read does not depend on the pieces in which it arrives. -/
theorem read_data_flows {capacity want : ℕ} (data : List UInt8) {socket : Stream UInt8}
    (hflows : Flows socket) (hwant : want ≤ capacity) (hdata : data.length ≤ want)
    (henough : want ≤ data.length + socket.flatten.length) :
    ∃ socket', read_data capacity want data socket =
        .ok (some (data ++ socket.flatten.take (want - data.length), socket')) ∧
      socket'.flatten = socket.flatten.drop (want - data.length) ∧ Flows socket' := by
  fun_induction read_data capacity want data socket with
  | case1 data socket hlt socket₁ hread =>
      have hne : socket.flatten ≠ [] := by
        intro hnil
        rw [hnil, List.length_nil] at henough
        omega
      have hpiece := hflows.read_ne_nil hne (by omega : 0 < want - data.length)
      rw [hread] at hpiece
      exact absurd rfl hpiece
  | case2 data socket hlt piece socket₁ hread hpiece hoverflow =>
      have hle := length_read_le (want - data.length) socket
      rw [hread] at hle
      dsimp only at hle
      omega
  | case3 data socket hlt piece socket₁ hread hpiece hfits ih =>
      have hle := length_read_le (want - data.length) socket
      have happend := read_append (want - data.length) socket
      have hflows₁ := hflows.read (want - data.length)
      rw [hread] at hle happend hflows₁
      dsimp only at hle happend hflows₁
      have hlength := congrArg List.length happend
      rw [List.length_append] at hlength
      have hsplit : want - data.length = piece.length + (want - (data ++ piece).length) := by
        rw [List.length_append]
        omega
      obtain ⟨socket', hok, hrest, hflows'⟩ := ih hflows₁
        (by rw [List.length_append]; omega) (by rw [List.length_append]; omega)
      refine ⟨socket', ?_, ?_, hflows'⟩
      · rw [hok, ← happend, hsplit, List.take_length_add_append, List.append_assoc]
      · rw [hrest, ← happend, hsplit, List.drop_length_add_append]
  | case4 data socket hge =>
      have hzero : want - data.length = 0 := by omega
      exact ⟨socket, by simp [hzero], by simp [hzero], hflows⟩

theorem read_data_append {capacity : ℕ} (xs : List UInt8) {rest : List UInt8}
    {socket : Stream UInt8} (hflows : Flows socket) (hlength : xs.length ≤ capacity)
    (hsocket : socket.flatten = xs ++ rest) :
    ∃ socket', read_data capacity xs.length [] socket = .ok (some (xs, socket')) ∧
      socket'.flatten = rest ∧ Flows socket' := by
  obtain ⟨socket', hok, hrest, hflows'⟩ := read_data_flows [] hflows hlength
    (Nat.zero_le _) (by rw [hsocket]; simp)
  rw [hsocket] at hok hrest
  exact ⟨socket', by simpa using hok, by simpa using hrest, hflows'⟩

theorem handleData_payload {m : Message} (h : m.Fits) : handleData true m.payload = m.calls := by
  cases m with
  | frame r =>
      obtain ⟨h254, h255⟩ := h.distinct r rfl
      rw [handleData, if_neg h255, if_neg h254]
      rfl
  | orientation isPortrait => cases isPortrait <;> rfl

/-- One round of the loop takes one message off the stream. -/
theorem receive_message {m : Message} (h : m.Fits) {rest : List UInt8} {socket : Stream UInt8}
    (hflows : Flows socket) (hsocket : socket.flatten = m.bytes ++ rest) :
    ∃ socket', receive true socket = .ok (some (m.calls, socket')) ∧ socket'.flatten = rest ∧
      Flows socket' := by
  have hle : m.payload.length ≤ 2073600 := h.le
  have hpos := h.pos
  rw [bytes_eq, List.append_assoc] at hsocket
  obtain ⟨socket₁, hheader, hrest₁, hflows₁⟩ :=
    read_data_append (header m.payload.length) hflows
      (show (header m.payload.length).length ≤ DATA_BUFFER by simp [header, DATA_BUFFER]) hsocket
  obtain ⟨socket₂, hpayload, hrest₂, hflows₂⟩ := read_data_append m.payload hflows₁ h.le hrest₁
  refine ⟨socket₂, ?_, hrest₂, hflows₂⟩
  unfold receive
  rw [show 4 = (header m.payload.length).length from rfl, hheader, ok_bind]
  dsimp only
  rw [uint8tToInt_header (by omega), if_neg (by omega), Int.toNat_natCast, hpayload, ok_bind]
  dsimp only
  rw [handleData_payload h]
  rfl

/-- At the end of the stream the loop ends. -/
theorem receive_nil {goJni : Bool} {socket : Stream UInt8} (h : socket.flatten = []) :
    receive goJni socket = .ok none := by
  have hread : read_data DATA_BUFFER 4 [] socket = .ok none := by
    have happend := read_append (4 - ([] : List UInt8).length) socket
    rw [h] at happend
    have hpiece := (List.append_eq_nil_iff.mp happend).1
    rw [read_data, if_pos (by simp)]
    split
    rename_i hread
    rw [hread] at hpiece
    rw [dif_pos hpiece]
  rw [receive, hread]
  rfl

theorem receive_data_of_none {goJni : Bool} {socket : Stream UInt8}
    (h : receive goJni socket = .ok none) : receive_data goJni socket = .ok [] := by
  rw [receive_data]
  split
  · simp_all
  · rfl
  · simp_all

theorem receive_data_of_some {goJni : Bool} {socket socket' : Stream UInt8} {calls : List Received}
    (h : receive goJni socket = .ok (some (calls, socket'))) :
    receive_data goJni socket = do
      let rest ← receive_data goJni socket'
      return calls ++ rest := by
  rw [receive_data]
  split
  · simp_all
  · simp_all
  · rename_i hsome
    rw [h] at hsome
    cases hsome
    rfl

theorem receive_messages {ms : List Message} (hfits : ∀ m ∈ ms, m.Fits) {socket : Stream UInt8}
    (hflows : Flows socket) (hsocket : socket.flatten = ms.flatMap Message.bytes) :
    receive_data true socket = .ok (ms.flatMap Message.calls) := by
  induction ms generalizing socket with
  | nil => exact receive_data_of_none (receive_nil hsocket)
  | cons m ms ih =>
      rw [List.flatMap_cons] at hsocket
      obtain ⟨socket', hreceive, hrest, hflows'⟩ :=
        receive_message (hfits m (by simp)) hflows hsocket
      rw [receive_data_of_some hreceive, ih (fun m' hm' => hfits m' (by simp [hm'])) hflows' hrest,
        ok_bind, List.flatMap_cons]
      rfl

/-- The stream is lossless: however it is cut, the receiver makes the calls for exactly the
messages written, in order. -/
theorem stream_lossless (isKeyFrameWrite : KeyFrameWrite) (outputs : List Output)
    (socket : Stream UInt8) (hfits : ∀ m ∈ written isKeyFrameWrite outputs, m.Fits)
    (hpieces : ∀ piece ∈ socket, piece ≠ [])
    (hsocket : socket.flatten = (sent isKeyFrameWrite outputs).flatten) :
    receive_data true socket = .ok ((written isKeyFrameWrite outputs).flatMap Message.calls) := by
  rw [sent_eq, ← List.flatMap_def] at hsocket
  exact receive_messages hfits hpieces hsocket

/-- A key frame and a rotation, one byte at a time. -/
def rotated : List Output :=
  [.handleOutputBufferImpl ⟨[7, 8], 1, true⟩, .fromPortraitToLandscape]

theorem stream_lossless_rotated :
    receive_data true ((sent ⟨false, false⟩ rotated).flatten.map fun b => [b]) =
      .ok [.putData [7, 8, 1, 1], .changeWindow 2, .setOrientation 2] := by
  refine stream_lossless ⟨false, false⟩ rotated _ ?_ ?_ ?_
  · intro m hm
    have hcases : m = .frame ⟨[7, 8], 1, true⟩ ∨ m = .orientation false := by
      simpa [rotated, written, handleOutputBufferImpl] using hm
    rcases hcases with rfl | rfl
    · refine ⟨by decide, by decide, ?_⟩
      intro r hr
      cases hr
      decide
    · exact ⟨by decide, by decide, by simp⟩
  · intro piece hpiece
    obtain ⟨b, -, rfl⟩ := List.mem_map.mp hpiece
    simp
  · rfl

end MirrorCast.Native
