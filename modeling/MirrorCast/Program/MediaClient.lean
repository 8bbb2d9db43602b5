import MirrorCast.Library.Java

/-! # `MediaClient`: cutting screen frames into datagrams -/

namespace MirrorCast.MediaClient

open Java

def LIMIT : ℕ := 1280 * 10

def OFFSET : ℕ := 8

def LIMIT_DATA : ℕ := LIMIT - OFFSET

/-- `MediaCodec.BUFFER_FLAG_KEY_FRAME`, as the byte it takes on the wire. -/
def BUFFER_FLAG_KEY_FRAME : UInt8 := 1

/-- `MediaCodec.BUFFER_FLAG_CODEC_CONFIG`. -/
def BUFFER_FLAG_CODEC_CONFIG : ℤ := 2

/-- The four bytes of `length`, low byte first. -/
def int2Bytes (frame : List UInt8) (length : ℤ) : List UInt8 :=
  (((frame.set 0 (toByte length)).set 1 (toByte (length / 2 ^ 8))).set 2
    (toByte (length / 2 ^ 16))).set 3 (toByte (length / 2 ^ 24))

def int2Bytes2 (frame : List UInt8) (length : ℤ) : List UInt8 :=
  (frame.set 6 (toByte length)).set 7 (toByte (length / 2 ^ 8))

def orientation (isPortrait : Bool) : UInt8 := if isPortrait then 1 else 2

/-- The send buffer after `Arrays.fill` and the stores into its header. -/
def header (sizeInBytes : ℤ) (isPortrait : Bool) (flags count : ℤ) : List UInt8 :=
  let frame := int2Bytes (List.replicate LIMIT 0) sizeInBytes
  let frame := (frame.set 4 (orientation isPortrait)).set 5 (toByte flags)
  int2Bytes2 frame count

/-- The datagrams handed to the socket for one frame, on a connected UDP client whose
sends succeed. The socket always sends the whole buffer of `LIMIT` bytes. -/
def sendDataForUDP (data : List UInt8) (sizeInBytes : ℤ) (isPortrait : Bool) (flags : ℤ) :
    Except JavaException (List (List UInt8)) :=
  if sizeInBytes ≤ LIMIT_DATA then do
    let frame ← arraycopy data 0 (header sizeInBytes isPortrait flags 60040) OFFSET sizeInBytes
    return [frame]
  else
    let temp2 := sizeInBytes.tmod LIMIT_DATA
    let temp1 := sizeInBytes.tdiv LIMIT_DATA + if temp2 ≠ 0 then 1 else 0
    (List.range temp1.toNat).mapM fun (i : ℕ) =>
      let count : ℤ := i + 1
      let frame := header sizeInBytes isPortrait flags count
      if count < temp1 then
        arraycopy data (i * LIMIT_DATA) frame OFFSET LIMIT_DATA
      else
        -- the last fragment carries what is left
        arraycopy data (i * LIMIT_DATA) frame OFFSET (sizeInBytes - (count - 1) * LIMIT_DATA)

/-- `sendDataForUDP_Str`: the datagram with the client's information, which is no video frame. -/
def sendDataForUDP_Str (info : List UInt8) (isPortrait : Bool) :
    Except JavaException (List UInt8) :=
  arraycopy info 0 (header info.length isPortrait 10 60010) OFFSET info.length

/-- `sendDataForUDP_Sps_Pps`: the datagram with a configuration array. -/
def sendDataForUDP_Sps_Pps (data : List UInt8) (isPortrait : Bool) :
    Except JavaException (List UInt8) :=
  let count := if isPortrait then 60020 else 60030
  arraycopy data 0 (header data.length isPortrait BUFFER_FLAG_CODEC_CONFIG count) OFFSET data.length

/-- A frame passed to `sendDataForUDP`; the length of a Java array is an `int`. -/
structure Frame where
  data : List UInt8
  isPortrait : Bool
  flags : ℤ
  length_lt : data.length < 2 ^ 31
  deriving DecidableEq

namespace Frame

/-- The flag byte that goes on the wire. -/
def flagByte (f : Frame) : UInt8 := toByte f.flags

/-- A key frame, by the receiver's test on the flag byte. -/
def isKey (f : Frame) : Bool := f.flagByte == BUFFER_FLAG_KEY_FRAME

/-- The payload with its trailer, as a complete frame reaches the play queue. -/
def delivered (f : Frame) : List UInt8 :=
  f.data ++ [orientation f.isPortrait, f.flagByte]

/-- `sendDataForUDP(frame, 0, frame.length, isPortrait, flags)`, the only form of the call. -/
def send (f : Frame) : Except JavaException (List (List UInt8)) :=
  sendDataForUDP f.data f.data.length f.isPortrait f.flags

end Frame

end MirrorCast.MediaClient
