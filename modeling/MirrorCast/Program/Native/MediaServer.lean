import MirrorCast.Library.C
import MirrorCast.Library.Chunked

/-! # `MediaServer.cpp`: the receive thread -/

namespace MirrorCast.Native.MediaServer

open C Chunked

def DATA_BUFFER : ℕ := 2073600

def uint8tToInt (src : List UInt8) : ℤ :=
  Java.int32 ((src.getD 0 0).toNat + (src.getD 1 0).toNat * 2 ^ 8 + (src.getD 2 0).toNat * 2 ^ 16 +
    (src.getD 3 0).toNat * 2 ^ 24)

/-- `read_data`: the loop that fills `data_buffer` up to the length wanted, from what is in it.
Both buffers have the given capacity. A read that returns nothing ends it in failure. -/
def read_data (capacity want_to_read_length : ℕ) (data : List UInt8) (socket : Stream UInt8) :
    Except Undefined (Option (List UInt8 × Stream UInt8)) :=
  if data.length < want_to_read_length then
    match _hread : read (want_to_read_length - data.length) socket with
    | (piece, socket) =>
        if _hpiece : piece = [] then .ok none
        else if capacity < data.length + piece.length then .error .outOfBounds
        else read_data capacity want_to_read_length (data ++ piece) socket
  else .ok (some (data, socket))
termination_by want_to_read_length - data.length
decreasing_by
  have := List.length_pos_of_ne_nil _hpiece
  rw [List.length_append]
  omega

/-! ## The client info -/

/-- The start of `receive_data`, up to the string in `client_info` if it gets there. -/
def client_info (socket : Stream UInt8) : Except Undefined (Option (List UInt8)) := do
  match ← read_data DATA_BUFFER 4 [] socket with
  | none => return none
  | some (data_buffer, socket) =>
      let want_to_read_length := uint8tToInt data_buffer
      if want_to_read_length ≤ 0 then return none
      else
        match ← read_data 1024 want_to_read_length.toNat [] socket with
        | none => return none
        | some (data, _) => do
            let client_info := data ++ List.replicate (1024 - data.length) 0
            return some (← cString client_info)

/-- The pieces that `count` numbers from 1 to 5; `"@@@@@"` is for `strsep` a set of one
character. -/
def fields (client_info : List UInt8) : List (List UInt8) :=
  ((strsep 64 client_info).filter (· ≠ [])).take 5

/-! ## Messages -/

/-- What the receive thread passes on. -/
inductive Received where
  | changeWindow (orientation : ℕ)
  | setOrientation (orientation : ℕ)
  | putData (encodedData : List UInt8)
  | putDataToJava (encodedData : List UInt8)
  deriving DecidableEq, Repr

/-- The calls for one message. -/
def handleData (MEDIA_CODEC_GO_JNI : Bool) (data_buffer : List UInt8) : List Received :=
  if data_buffer.head? = some 255 then
    .changeWindow 1 :: if MEDIA_CODEC_GO_JNI then [.setOrientation 1] else []
  else if data_buffer.head? = some 254 then
    .changeWindow 2 :: if MEDIA_CODEC_GO_JNI then [.setOrientation 2] else []
  else if MEDIA_CODEC_GO_JNI then [.putData data_buffer]
  else [.putDataToJava data_buffer]

theorem flatten_of_read_data {capacity want : ℕ} {data out : List UInt8}
    {socket socket' : Stream UInt8}
    (h : read_data capacity want data socket = .ok (some (out, socket'))) :
    data ++ socket.flatten = out ++ socket'.flatten ∧ (data.length ≤ want → out.length = want) := by
  fun_induction read_data capacity want data socket with
  | case1 => cases h
  | case2 => cases h
  | case3 data socket hlt piece socket₁ hread hne hfits ih =>
      have happend := read_append (want - data.length) socket
      have hle := length_read_le (want - data.length) socket
      rw [hread] at happend hle
      dsimp only at happend hle
      obtain ⟨hflatten, hlength⟩ := ih h
      rw [← happend, ← List.append_assoc]
      refine ⟨hflatten, fun hdata => hlength ?_⟩
      rw [List.length_append]
      omega
  | case4 data socket hge =>
      cases h
      exact ⟨rfl, fun hle => by omega⟩

/-- One round of the loop in `receive_data`: the calls it makes, unless a read fails. -/
def receive (MEDIA_CODEC_GO_JNI : Bool) (socket : Stream UInt8) :
    Except Undefined (Option (List Received × Stream UInt8)) := do
  match ← read_data DATA_BUFFER 4 [] socket with
  | none => return none
  | some (data_buffer, socket) =>
      let want_to_read_length := uint8tToInt data_buffer
      if want_to_read_length ≤ 0 then return some ([], socket)
      else
        match ← read_data DATA_BUFFER want_to_read_length.toNat [] socket with
        | none => return none
        | some (data_buffer, socket) =>
            return some (handleData MEDIA_CODEC_GO_JNI data_buffer, socket)

theorem length_of_receive {goJni : Bool} {socket socket' : Stream UInt8} {calls : List Received}
    (h : receive goJni socket = .ok (some (calls, socket'))) :
    socket'.flatten.length < socket.flatten.length := by
  obtain ⟨header, hheader, h⟩ := Java.bind_eq_ok.mp h
  cases header with
  | none => cases h
  | some header =>
      obtain ⟨hflatten, hlength⟩ := flatten_of_read_data hheader
      have hsum := congrArg List.length hflatten
      have hfour := hlength (by simp)
      rw [List.nil_append, List.length_append] at hsum
      dsimp only at h
      split at h
      · cases h
        omega
      · obtain ⟨payload, hpayload, h⟩ := Java.bind_eq_ok.mp h
        cases payload with
        | none => cases h
        | some payload =>
            cases h
            have hsum' := congrArg List.length (flatten_of_read_data hpayload).1
            rw [List.nil_append, List.length_append] at hsum'
            omega

/-- The loop of `receive_data`, up to the read that fails. -/
def receive_data (MEDIA_CODEC_GO_JNI : Bool) (socket : Stream UInt8) :
    Except Undefined (List Received) :=
  match _h : receive MEDIA_CODEC_GO_JNI socket with
  | .error e => .error e
  | .ok none => .ok []
  | .ok (some (calls, socket)) => do
      let rest ← receive_data MEDIA_CODEC_GO_JNI socket
      return calls ++ rest
termination_by socket.flatten.length
decreasing_by exact length_of_receive _h

end MirrorCast.Native.MediaServer
