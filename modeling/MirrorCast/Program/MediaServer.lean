import MirrorCast.Library.Machine
import MirrorCast.Program.MediaClient

/-! # `MediaServer`: the receive loop of `receiveDataForUDP` -/

namespace MirrorCast.MediaServer

open Java MediaClient

def bytesToInt (src : List UInt8) : ℤ :=
  int32 ((src.getD 0 0).toNat + (src.getD 1 0).toNat * 2 ^ 8 + (src.getD 2 0).toNat * 2 ^ 16 +
    (src.getD 3 0).toNat * 2 ^ 24)

def bytesToInt2 (src : List UInt8) : ℤ :=
  (src.getD 6 0).toNat + (src.getD 7 0).toNat * 2 ^ 8

/-- What the loop does besides updating its variables. -/
inductive LoopEvent where
  /-- `myJni.putData(1, frame, frame.length)` -/
  | putData (frame : List UInt8)
  /-- `SERVER_SEND_DATA`: tell the sender that a key frame arrived (0) or was damaged (1). -/
  | sendData (dataLength : ℤ) (isSuccessful : ℕ) (isPortrait : UInt8)
  /-- `myJni.drainFrame()` -/
  | drainFrame
  deriving DecidableEq, Repr

/-- The variables the loop carries from one datagram to the next. -/
structure LoopState where
  count : ℤ
  tempLength : ℤ
  temp1 : ℤ
  tempData : List UInt8
  needToAbandon : Bool
  deriving DecidableEq, Repr

def LoopState.initial : LoopState := ⟨0, 0, 0, [], false⟩

/-- The number of datagrams a frame of `length` bytes takes. -/
def datagramCount (length : ℤ) : ℤ :=
  length.tdiv LIMIT_DATA + if length.tmod LIMIT_DATA ≠ 0 then 1 else 0

/-- The flag byte of the datagram says key frame. -/
def isKeyFrame (data : List UInt8) : Bool := data.getD 5 0 == BUFFER_FLAG_KEY_FRAME

/-- A whole frame in one datagram. -/
def wholeFrame (s : LoopState) (data : List UInt8) :
    Except JavaException (LoopState × List LoopEvent) := do
  let length := bytesToInt data
  let tempData ← newArray (int32 (length + 2))
  let tempData ← arraycopy data OFFSET tempData 0 length
  let tempData := (tempData.set length.toNat (data.getD 4 0)).set (length + 1).toNat (data.getD 5 0)
  let report := if isKeyFrame data then [LoopEvent.sendData length 0 (data.getD 4 0)] else []
  return ({ s with tempData, count := 0, tempLength := 0, temp1 := 0 },
    .putData tempData :: report)

/-- The first fragment of a frame opens a new buffer. -/
def firstFragment (s : LoopState) (data : List UInt8) :
    Except JavaException (LoopState × List LoopEvent) := do
  let length := bytesToInt data
  let tempData ← newArray (int32 (length + 2))
  let tempData ← arraycopy data OFFSET tempData 0 LIMIT_DATA
  return ({ s with tempData, temp1 := datagramCount length, tempLength := length, count := 1 }, [])

/-- A further fragment of a frame with the length of the open buffer. -/
def nextFragment (s : LoopState) (data : List UInt8) :
    Except JavaException (LoopState × List LoopEvent) :=
  let length := bytesToInt data
  let count := int32 (s.count + 1)
  let offset := int32 ((count - 1) * LIMIT_DATA)
  -- only key frames compare the number in the datagram with the one counted here
  if count ≠ bytesToInt2 data ∧ isKeyFrame data then
    .ok ({ s with count }, [.sendData s.tempLength 1 (data.getD 4 0)])
  else if count < s.temp1 then do
    let tempData ← arraycopy data OFFSET s.tempData offset LIMIT_DATA
    return ({ s with count, tempData }, [])
  else do
    let tempData ← arraycopy data OFFSET s.tempData offset (int32 (s.tempLength - offset))
    let tempData :=
      (tempData.set length.toNat (data.getD 4 0)).set (length + 1).toNat (data.getD 5 0)
    let report :=
      if isKeyFrame data then [LoopEvent.sendData s.tempLength 0 (data.getD 4 0)] else []
    return ({ s with tempData, count := 0, tempLength := 0, temp1 := 0 },
      .putData tempData :: report)

/-- The body of the loop, for the datagram in the receive buffer. -/
def handleDatagram (s : LoopState) (data : List UInt8) :
    Except JavaException (LoopState × List LoopEvent) :=
  let length := bytesToInt data
  if s.needToAbandon ∧ ¬ isKeyFrame data then
    .ok (s, [])
  else
    let s := { s with needToAbandon := false }
    if length ≤ LIMIT_DATA then
      wholeFrame s data
    else if bytesToInt2 data = 1 then
      firstFragment s data
    else if s.tempLength ≠ 0 ∧ s.tempLength = length then
      nextFragment s data
    else if isKeyFrame data then
      .ok (s, [.sendData s.tempLength 1 (data.getD 4 0)])
    else
      .ok ({ s with needToAbandon := true }, [.drainFrame])

/-- The loop over the datagrams that arrive; an exception closes the server. -/
def receiveLoop (s : LoopState) (datagrams : List (List UInt8)) : List LoopEvent :=
  Machine.outputs handleDatagram s datagrams

/-- The arrays handed to the play queue, in order. -/
def puts (events : List LoopEvent) : List (List UInt8) :=
  events.filterMap fun
    | .putData frame => some frame
    | _ => none

/-! ## From the first datagram on -/

/-- What `receiveDataForUDP` does as a whole. -/
inductive ServerEvent where
  /-- `DO_SOMETHING_CODE_Client_set_info`, with the bytes of the text. -/
  | setInfo (params : List UInt8)
  /-- `myJni.putData(1, sps_pps, length)` -/
  | putConfig (sps_pps : List UInt8)
  | loop (event : LoopEvent)
  deriving DecidableEq, Repr

/-- How far `receiveDataForUDP` has come. -/
inductive Stage where
  | info
  | firstConfig
  | secondConfig
  | loop (s : LoopState)
  deriving DecidableEq, Repr

/-- The bytes `new String(data, OFFSET, length)` decodes. -/
def clientInfo (data : List UInt8) : Except JavaException (List UInt8) :=
  let length := bytesToInt data
  if length < 0 ∨ (data.length : ℤ) - OFFSET < length then .error .stringIndexOutOfBounds
  else .ok ((data.drop OFFSET).take length.toNat)

/-- A configuration array, copied out of its datagram without a trailer. The orientation
byte only chooses the field that keeps the array, which nothing reads. -/
def spsPps (data : List UInt8) : Except JavaException (List UInt8) := do
  let length := bytesToInt data
  let sps_pps ← newArray length
  arraycopy data OFFSET sps_pps 0 length

/-- `receiveDataForUDP`, one datagram at a time; an exception ends the thread. -/
def serve : Machine.Step Stage (List UInt8) ServerEvent JavaException
  | .info, data => do
      let params ← clientInfo data
      return (.firstConfig, [.setInfo params])
  | .firstConfig, data => do
      let sps_pps ← spsPps data
      return (.secondConfig, [.putConfig sps_pps])
  | .secondConfig, data => do
      let sps_pps ← spsPps data
      return (.loop .initial, [.putConfig sps_pps])
  | .loop s, data => do
      let (s', events) ← handleDatagram s data
      return (.loop s', events.map .loop)

def receiveDataForUDP (datagrams : List (List UInt8)) : List ServerEvent :=
  Machine.outputs serve .info datagrams

/-- Every array given to `putData` in a run, in order. -/
def given (events : List ServerEvent) : List (List UInt8) :=
  events.filterMap fun
    | .putConfig sps_pps => some sps_pps
    | .loop (.putData frame) => some frame
    | _ => none

end MirrorCast.MediaServer
