import MirrorCast.Program.Native.MediaCodec
import MirrorCast.Program.Native.MediaServer

/-! # `MediaServer.cpp`: a receive thread from its first read on, with every access to a buffer

A read may fail and the thread go on, so that a failure too leaves a socket behind. -/

namespace MirrorCast.Native.Receiving

open C Chunked Native.MediaServer

/-- `read_data`, from what is in `data_buffer`; both buffers have the given capacity. -/
def read_data (capacity : ℕ) (want_to_read_length : ℤ) (data : List UInt8)
    (socket : Stream UInt8) : Except Undefined (Option (List UInt8) × Stream UInt8) :=
  if data.length < want_to_read_length then
    match _hread : read (want_to_read_length - data.length).toNat socket with
    | (piece, socket) =>
        if _hpiece : piece = [] then .ok (none, socket)
        -- the kernel fills `read_buffer`, `memcpy` appends to `data_buffer`
        else if capacity < piece.length ∨ capacity < data.length + piece.length then
          .error .outOfBounds
        else read_data capacity want_to_read_length (data ++ piece) socket
  else .ok (some data, socket)
termination_by (want_to_read_length - data.length).toNat
decreasing_by
  have := List.length_pos_of_ne_nil _hpiece
  rw [List.length_append]
  omega

/-! ## The globals of a client -/

/-- `char buffer[n]` and what is in it. -/
abbrev Buffer (n : ℕ) := { bytes : List UInt8 // bytes.length = n }

/-- `memset(buffer, 0, n); memcpy(buffer, src, strlen(src));` -/
def Buffer.store (n : ℕ) (src : List UInt8) : Except Undefined (Buffer n) :=
  match h : memcpy (List.replicate n 0) 0 src 0 src.length with
  | .ok bytes => .ok ⟨bytes, (length_of_memcpy h).trans List.length_replicate⟩
  | .error e => .error e

/-- The globals of the client of a thread, with an empty array where a pointer is null. -/
structure Client where
  mime : Buffer 50
  codecName : Buffer 50
  sps_pps_portrait : List UInt8
  sps_pps_landscape : List UInt8

namespace Client

/-- The one of the arrays that `orientation` selects. -/
def sps_pps (client : Client) (orientation : ℤ) : List UInt8 :=
  if orientation = 1 then client.sps_pps_portrait else client.sps_pps_landscape

/-- A negative size is a huge `size_t`. -/
def setSpsPps (client : Client) (orientation : ℤ) (data_buffer : List UInt8) (size : ℤ) :
    Except Undefined Client := do
  if size < 0 then throw .outOfBounds
  let sps_pps ← memcpy (List.replicate size.toNat 0) 0 data_buffer 0 size.toNat
  if orientation = 1 then return { client with sps_pps_portrait := sps_pps }
  else return { client with sps_pps_landscape := sps_pps }

/-- `createMediaCodec`: the name it looks a codec up by. -/
def createMediaCodec (client : Client) : Except Undefined (List UInt8) :=
  cString client.codecName.val

def HEVC : List UInt8 := [118, 105, 100, 101, 111, 47, 104, 101, 118, 99]

def AVC : List UInt8 := [118, 105, 100, 101, 111, 47, 97, 118, 99]

/-- `createMediaFormat`: the mime and the buffers `csd-0` and `csd-1` of the format. -/
def createMediaFormat (client : Client) (orientation : ℤ) :
    Except Undefined (List UInt8 × List (List UInt8)) := do
  let mime ← cString client.mime.val
  if mime = HEVC then return (mime, [client.sps_pps orientation])
  else if mime = AVC then
    let configured ← MediaCodec.handleSpsPps (client.sps_pps orientation)
    return (mime, configured.csd.elim [] fun csd => [csd.1, csd.2])
  else return (mime, [])

end Client

/-! ## The client info -/

/-- `findDecoderCodecName` of `MyJni.cpp`, where the Java side leaves the name of a codec, if it has
one, in `valueString`: the address of the local copy of the name is returned. -/
def findDecoderCodecName (valueString : List UInt8 → Option (List UInt8)) (data : List UInt8) :
    Except Undefined Pointer := do
  let codecName : Pointer := (valueString data).elim .null fun name => .live (name ++ [0])
  let _tmpStr ← codecName.string
  return .dead

/-- What is done with the piece that makes `count` what it is. -/
def storePiece (valueString : List UInt8 → Option (List UInt8)) (count : ℕ) (p : List UInt8)
    (client : Client) (orientation : ℤ) : Except Undefined (Client × ℤ) :=
  if count = 2 then do
    let name ← findDecoderCodecName valueString p
    -- `strlen(name)` comes before the two copies
    let name ← name.string
    let mime ← Buffer.store 50 p
    let codecName ← Buffer.store 50 name
    return ({ client with mime, codecName }, orientation)
  else if count = 5 then return (client, atoi p)
  else return (client, orientation)

/-- The loop over what `strsep` cuts off. -/
def storePieces (valueString : List UInt8 → Option (List UInt8)) :
    ℕ → List (List UInt8) → Client → ℤ → Except Undefined (Client × ℤ)
  | _, [], client, orientation => return (client, orientation)
  | count, p :: pieces, client, orientation =>
      if p = [] then storePieces valueString count pieces client orientation
      else do
        let (client, orientation) ← storePiece valueString (count + 1) p client orientation
        storePieces valueString (count + 1) pieces client orientation

section

variable (valueString : List UInt8 → Option (List UInt8)) (MEDIA_CODEC_GO_JNI : Bool)

/-- What is done with the client info in `client_info`. -/
def useClientInfo (client : Client) (data : List UInt8) : Except Undefined (Client × ℤ) := do
  let client_info := data ++ List.replicate (1024 - data.length) 0
  let _ ← memcpy (List.replicate 1024 0) 0 client_info 0 data.length
  let buff ← cString client_info
  if MEDIA_CODEC_GO_JNI then
    storePieces valueString 0 (strsep 64 buff) client 1
  else return (client, 1)

def receiveClientInfo (client : Client) (socket : Stream UInt8) :
    Except Undefined ((Client × ℤ) × Stream UInt8) := do
  match ← read_data DATA_BUFFER 4 [] socket with
  | (none, socket) => return ((client, 1), socket)
  | (some data_buffer, socket) =>
      let want_to_read_length := uint8tToInt data_buffer
      if 0 < want_to_read_length then
        match ← read_data 1024 want_to_read_length [] socket with
        | (none, socket) => return ((client, 1), socket)
        | (some data, socket) => do
            let s ← useClientInfo valueString MEDIA_CODEC_GO_JNI client data
            return (s, socket)
      else return ((client, 1), socket)

/-! ## The thread -/

/-- One of the two arrays with parameter sets, for `setSpsPps` with `orientation`. -/
def receiveSpsPps (client : Client) (orientation : ℤ) (socket : Stream UInt8) :
    Except Undefined (Client × Stream UInt8) := do
  match ← read_data DATA_BUFFER 4 [] socket with
  | (none, socket) => return (client, socket)
  | (some data_buffer, socket) =>
      let want_to_read_length := uint8tToInt data_buffer
      match ← read_data DATA_BUFFER want_to_read_length [] socket with
      | (none, socket) => return (client, socket)
      | (some data_buffer, socket) => do
          let client ← client.setSpsPps orientation data_buffer want_to_read_length
          return (client, socket)

/-- The decoder is set up. -/
def configure (client : Client) (orientation : ℤ) (socket : Stream UInt8) :
    Except Undefined (Client × Stream UInt8) := do
  let (client, socket) ← receiveSpsPps client orientation socket
  let (client, socket) ← receiveSpsPps client (if orientation = 1 then 2 else 1) socket
  let _ ← client.createMediaCodec
  let _ ← client.createMediaFormat orientation
  return (client, socket)

def receive_data (client : Client) (socket : Stream UInt8) :
    Except Undefined (Client × List Received) := do
  let ((client, orientation), socket) ←
    receiveClientInfo valueString MEDIA_CODEC_GO_JNI client socket
  let (client, socket) ← (if MEDIA_CODEC_GO_JNI then configure client orientation socket
    else pure (client, socket) : Except Undefined (Client × Stream UInt8))
  let calls ← MediaServer.receive_data MEDIA_CODEC_GO_JNI socket
  return (client, calls)

end

end MirrorCast.Native.Receiving
