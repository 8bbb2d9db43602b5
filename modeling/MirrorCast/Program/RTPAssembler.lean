import MirrorCast.Program.PlaybackSession

/-! # `RTPAssembler`: its two assemblers -/

namespace MirrorCast.RTPAssembler

open Java
open ANetworkSession (OK)
open Errno (ERROR_MALFORMED ERROR_UNSUPPORTED)

/-- `data()` of a buffer, up to its capacity, its `size()`, and two entries of its metadata. -/
structure ABuffer where
  data : List UInt8
  size : ℤ
  RTP_TIME : Option ℤ
  MARKER : Option ℤ
  deriving DecidableEq, Repr

/-- What is posted with an access unit. -/
structure AccessUnit where
  data : List UInt8
  TIME_US : ℤ
  deriving DecidableEq, Repr

/-- The fields of the assembler, the bytes of `NAL_START_BUFFER` that have not been read yet
(the buffer is shared by all assemblers), and the access units posted so far. -/
structure H264Assembler where
  mState : ℤ
  mIndicator : UInt8
  mNALType : UInt8
  mAccumulator : Option ABuffer
  mNALUnits : List ABuffer
  mAccessUnitRTPTime : ℤ
  NAL_START_BUFFER : List UInt8
  posted : List AccessUnit
  deriving DecidableEq, Repr

def NAL_START_BYTE : List UInt8 := [0, 0, 0, 1]

namespace H264Assembler

/-- The constructor, with an empty list for `mNALUnits`. -/
def new (startBuffer : List UInt8) : H264Assembler where
  mState := 0
  mIndicator := 0
  mNALType := 0
  mAccumulator := none
  mNALUnits := []
  mAccessUnitRTPTime := 0
  NAL_START_BUFFER := startBuffer
  posted := []

abbrev Handler := ExceptT JavaException (StateM H264Assembler)

/-! ## Buffers -/

/-- `new ABuffer(capacity)`. -/
def newABuffer (capacity : ℤ) : Handler ABuffer :=
  if capacity < 0 then throw .illegalArgument
  else return ⟨List.replicate capacity.toNat 0, capacity, none, none⟩

/-- `buffer.get(index)` below the limit. -/
def getByte (data : List UInt8) (index : ℕ) : Handler UInt8 :=
  match data[index]? with
  | some b => return b
  | none => throw .arrayIndexOutOfBounds

/-- `buffer.position(position).slice()`. -/
def slice (data : List UInt8) (position : ℕ) : Handler (List UInt8) :=
  if data.length < position then throw .illegalArgument else return data.drop position

/-- What is left to be read after `buffer.rewind().limit(limit)`. -/
def limited (data : List UInt8) (limit : ℤ) : Handler (List UInt8) :=
  if limit < 0 ∨ data.length < limit then throw .illegalArgument else return data.take limit.toNat

/-- `buffer.put(src)` at a position. -/
def put (data : List UInt8) (position : ℤ) (src : List UInt8) : Handler (List UInt8) :=
  if position < 0 ∨ data.length < position then throw .illegalArgument
  else if data.length < position + src.length then throw .bufferOverflow
  else return blit data position.toNat src

/-- `setRange(0, size)`. -/
def setRange (buffer : ABuffer) (size : ℤ) : Handler ABuffer :=
  if buffer.data.length < size then throw .runtime else return { buffer with size }

/-- `meta().getInt(key)`. -/
def getInt (value : Option ℤ) : Handler ℤ :=
  match value with
  | some v => return v
  | none => throw .noSuchElement

/-! ## The accumulator -/

def clearAccumulator : Handler Unit := modify fun s => { s with mAccumulator := none }

/-- A larger buffer with the bytes of the accumulator. -/
def grow (accumulator : ABuffer) (capacity : ℤ) : Handler ABuffer := do
  let buf ← newABuffer capacity
  let oriData ← limited accumulator.data accumulator.size
  let data ← put buf.data 0 oriData
  let buf ← setRange { buf with data } accumulator.size
  let rtpTime := accumulator.RTP_TIME.getD (-2 ^ 31)
  return if rtpTime ≠ -2 ^ 31 then { buf with RTP_TIME := some rtpTime } else buf

def appendToAccumulator (srcData : List UInt8) (size : ℤ) : Handler Unit := do
  match (← get).mAccumulator with
  | none =>
      let accumulator ← newABuffer size
      modify fun s => { s with mAccumulator := some accumulator }
      let src ← limited srcData size
      let data ← put accumulator.data 0 src
      modify fun s => { s with mAccumulator := some { accumulator with data } }
  | some accumulator =>
      let accumulator ←
        if accumulator.data.length < int32 (accumulator.size + size) then do
          let buf ← grow accumulator (int32 (accumulator.size + size))
          modify fun s => { s with mAccumulator := some buf }
          pure buf
        else pure accumulator
      let src ← limited srcData size
      let data ← put accumulator.data accumulator.size src
      let accumulator ← setRange { accumulator with data } (int32 (accumulator.size + size))
      modify fun s => { s with mAccumulator := some accumulator }

/-! ## NAL units -/

def addSingleNALUnit (packet : ABuffer) : Handler Unit := do
  let s ← get
  if s.mNALUnits = [] then
    match s.mAccumulator with
    | none => throw .nullPointer
    | some accumulator =>
        let rtpTime ← getInt accumulator.RTP_TIME
        modify fun s => { s with mAccessUnitRTPTime := rtpTime }
  modify fun s => { s with mNALUnits := s.mNALUnits ++ [packet] }

/-- The loop over an aggregation packet. Its buffer keeps its first byte, only the limit is set
anew; `n` rounds are enough for a size of `n`, as each takes at least two bytes off it. -/
def aggregationLoop (rtpTime : ℤ) (packetData : List UInt8) : ℕ → ℕ → ℤ → Handler ℤ
  | 0, _, _ => return OK
  | n + 1, limit, size => do
      if 2 ≤ size then
        let data0 ← getByte (packetData.take limit) 0
        let data1 ← getByte (packetData.take limit) 1
        let nalSize : ℕ := data0.toNat * 2 ^ 8 + data1.toNat
        if size < nalSize + 2 then return ERROR_MALFORMED
        else
          let unit ← newABuffer nalSize
          let src ← limited packetData (2 + nalSize)
          let data ← put unit.data 0 (src.drop 2)
          addSingleNALUnit { unit with data, RTP_TIME := some rtpTime }
          aggregationLoop rtpTime packetData n (2 + nalSize) (size - (2 + nalSize))
      else return OK

def addSingleTimeAggregationPacket (packet : ABuffer) : Handler ℤ := do
  if packet.size < 3 then return ERROR_MALFORMED
  else
    let rtpTime ← getInt packet.RTP_TIME
    let packetData ← slice packet.data 1
    aggregationLoop rtpTime packetData (packet.size - 1).toNat packetData.length (packet.size - 1)

/-- The loop over the NAL units, with the capacity and the bytes put so far. The start buffer is
read to its end by the first `put`, and nothing rewinds it. -/
def putUnits (totalSize : ℤ) : List ABuffer → List UInt8 → Handler (List UInt8)
  | [], dstData => return dstData
  | unit :: units, dstData => do
      let startCode := (← get).NAL_START_BUFFER
      if totalSize < dstData.length + startCode.length then throw .bufferOverflow
      else
        modify fun s => { s with NAL_START_BUFFER := [] }
        let srcData ← limited unit.data unit.size
        if totalSize < dstData.length + startCode.length + srcData.length then
          throw .bufferOverflow
        else putUnits totalSize units (dstData ++ startCode ++ srcData)

def flushAccessUnit : Handler Unit := do
  let s ← get
  if s.mNALUnits = [] then return ()
  else
    let totalSize := s.mNALUnits.foldl (fun total unit => int32 (total + (4 + unit.size))) 0
    let accessUnit ← newABuffer totalSize
    let dstData ← putUnits totalSize s.mNALUnits []
    modify fun s => { s with mNALUnits := [] }
    modify fun s =>
      { s with
        posted := s.posted ++
          [{ data := blit accessUnit.data 0 dstData
             TIME_US := (int32 (s.mAccessUnitRTPTime * 100)).tdiv 9 }] }

def reset : Handler Unit :=
  modify fun s => { s with mNALUnits := [], mAccumulator := none, mState := 0 }

/-! ## Packets -/

/-- State 0: the first packet of a NAL unit. -/
def firstPacket (packet : ABuffer) : Handler ℤ := do
  let data0 ← getByte packet.data 0
  if packet.size < 1 ∨ data0 &&& 0x80 ≠ 0 then return ERROR_MALFORMED
  else
    let nalType := data0 &&& 0x1f
    if 1 ≤ nalType ∧ nalType ≤ 23 then
      addSingleNALUnit packet
      return OK
    else if nalType = 28 then
      if packet.size < 2 then return ERROR_MALFORMED
      else
        let data1 ← getByte packet.data 1
        if data1 &&& 0x80 = 0 then return ERROR_MALFORMED
        else
          let mNALType := data1 &&& 0x1f
          modify fun s => { s with mIndicator := data0, mNALType }
          let nri := (data0 >>> 5) &&& 3
          clearAccumulator
          appendToAccumulator [mNALType ||| (nri <<< 5)] 1
          appendToAccumulator (← slice packet.data 2) (packet.size - 2)
          let rtpTime ← getInt packet.RTP_TIME
          modify fun s =>
            { s with mAccumulator := s.mAccumulator.map ({ · with RTP_TIME := some rtpTime }) }
          if data1 &&& 0x40 ≠ 0 then
            match (← get).mAccumulator with
            | none => throw .nullPointer -- it has just been set
            | some accumulator =>
                addSingleNALUnit accumulator
                clearAccumulator
                return OK
          else
            modify fun s => { s with mState := 1 }
            return OK
    else if nalType = 24 then addSingleTimeAggregationPacket packet
    else return ERROR_UNSUPPORTED

/-- State 1: a further fragment. -/
def nextFragment (packet : ABuffer) : Handler ℤ := do
  let data0 ← getByte packet.data 0
  let data1 ← getByte packet.data 1
  let s ← get
  if packet.size < 2 ∨ data0 ≠ s.mIndicator ∨ data1 &&& 0x1f ≠ s.mNALType ∨ data1 &&& 0x80 ≠ 0 then
    return ERROR_MALFORMED
  else
    appendToAccumulator (← slice packet.data 2) (packet.size - 2)
    if data1 &&& 0x40 ≠ 0 then
      match (← get).mAccumulator with
      | none => throw .nullPointer
      | some accumulator =>
          addSingleNALUnit accumulator
          clearAccumulator
          modify fun s => { s with mState := 0 }
          return OK
    else return OK

/-- The `switch` of `internalProcessPacket`. -/
def dispatch (packet : ABuffer) : Handler ℤ := do
  let s ← get
  if s.mState = 0 then firstPacket packet
  else if s.mState = 1 then nextFragment packet
  else throw .runtime

def internalProcessPacket (packet : ABuffer) : Handler ℤ := do
  let err ← dispatch packet
  if err ≠ OK then return err
  else
    let marker ← getInt packet.MARKER
    if marker ≠ 0 then flushAccessUnit
    return OK

def processPacket (packet : ABuffer) : Handler ℤ := do
  let err ← internalProcessPacket packet
  if err ≠ OK then reset
  return err

end H264Assembler

/-- The field of a `TSAssembler`, and the access units posted so far, each with
`FOLLOWS_DISCONTINUITY`. -/
structure TSAssembler where
  mSawDiscontinuity : Bool
  posted : List (AccessUnit × Bool)
  deriving DecidableEq, Repr

namespace TSAssembler

def signalDiscontinuity (s : TSAssembler) : TSAssembler := { s with mSawDiscontinuity := true }

/-- A packet becomes an access unit as it is. -/
def processPacket (s : TSAssembler) (packet : ABuffer) : Except JavaException (ℤ × TSAssembler) :=
  match packet.RTP_TIME with
  | none => .error .noSuchElement
  | some rtpTime =>
      let accessUnit := { data := packet.data, TIME_US := (int32 (rtpTime * 100)).tdiv 9 }
      .ok (OK, {
        mSawDiscontinuity := false
        posted := s.posted ++ [(accessUnit, s.mSawDiscontinuity)] })

end TSAssembler

end MirrorCast.RTPAssembler
