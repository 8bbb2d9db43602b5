import MirrorCast.Program.ANetworkSession
import MirrorCast.Program.RTPReceiver

/-! # `RTPReceiver.onSendRR`: receiver reports -/

namespace MirrorCast.RTPReceiver

open Java

def MAX_UDP_PACKET_SIZE : ℕ := 1472

/-! ## Buffers -/

/-- `new ABuffer(capacity)`. -/
def newABuffer (capacity : ℕ) : ANetworkSession.ABuffer :=
  ⟨List.replicate capacity 0, 0, capacity⟩

/-- `bufData.put(index, b)`. -/
def putIndex (bufData : List UInt8) (index : ℕ) (b : UInt8) : Except JavaException (List UInt8) :=
  if index < bufData.length then .ok (bufData.set index b) else .error .arrayIndexOutOfBounds

/-- `bufData.get(index)`. -/
def getIndex (bufData : List UInt8) (index : ℕ) : Except JavaException UInt8 :=
  match bufData[index]? with
  | some b => .ok b
  | none => .error .arrayIndexOutOfBounds

/-- `put(index, b)` for one byte after the other, from an index on. -/
def putIndices (bufData : List UInt8) (index : ℕ) : List UInt8 → Except JavaException (List UInt8)
  | [] => .ok bufData
  | b :: bytes => do
      let bufData ← putIndex bufData index b
      putIndices bufData (index + 1) bytes

/-- What is done to `buffer.data().position(buffer.size()).slice()` by `f`. -/
def onTail (buffer : ANetworkSession.ABuffer)
    (f : List UInt8 → Except JavaException (List UInt8)) :
    Except JavaException ANetworkSession.ABuffer := do
  let start := buffer.mRangeOffset + buffer.mRangeLength
  if buffer.mData.length < start then throw .illegalArgument
  let bufData ← f (buffer.mData.drop start)
  return { buffer with mData := buffer.mData.take start ++ bufData }

/-! ## Report blocks -/

/-- The four bytes of an `int`, the highest one first. -/
def intBytes (x : ℤ) : List UInt8 :=
  [toByte (x / 2 ^ 24), toByte (x / 2 ^ 16), toByte (x / 2 ^ 8), toByte x]

/-- `a / b` for a `long`; an `ArithmeticException` is a `RuntimeException`. -/
def divide (a b : ℤ) : Except JavaException ℤ :=
  if b = 0 then .error .runtime else .ok (int64 (a.tdiv b))

namespace Source

def extMaxSeq (s : Source) : ℤ := int32Or s.mMaxSeq s.mCycles

def expected (s : Source) : ℤ := int32 (int32 (s.extMaxSeq - s.mBaseSeq) + 1)

/-- The cumulative number of packets lost, kept within 24 bits. -/
def lost (s : Source) : ℤ :=
  let lost := s.expected - s.mReceived
  if 0x7fffff < lost then 0x7fffff else if lost < -0x800000 then -0x800000 else lost

def fractionLost (s : Source) : Except JavaException UInt8 := do
  let expectedInterval := int32 (s.expected - s.mExpectedPrior)
  let receivedInterval := int32 (s.mReceived - s.mReceivedPrior)
  let lostInterval := int32 (expectedInterval - receivedInterval)
  if expectedInterval = 0 ∨ lostInterval ≤ 0 then return 0
  else return toByte (← divide (int64 (lostInterval * 2 ^ 8)) expectedInterval)

/-- The bytes of a report block; jitter, last SR and the delay since are not filled in. -/
def reportBlock (s : Source) (ssrc : ℤ) (fractionLost : UInt8) : List UInt8 :=
  intBytes ssrc ++ [fractionLost] ++
    [toByte (s.lost / 2 ^ 16), toByte (s.lost / 2 ^ 8), toByte s.lost] ++
    intBytes s.extMaxSeq ++ List.replicate 12 0

def addReportBlock (s : Source) (ssrc : ℤ) (buf : ANetworkSession.ABuffer) :
    Except JavaException (Source × ANetworkSession.ABuffer) := do
  let fractionLost ← s.fractionLost
  let buf ← onTail buf fun bufData => putIndices bufData 0 (s.reportBlock ssrc fractionLost)
  let buf ← buf.setRange buf.mRangeOffset (buf.mRangeLength + 24)
  return ({ s with mExpectedPrior := s.expected, mReceivedPrior := s.mReceived }, buf)

end Source

/-! ## The compound packet -/

def RR_BYTES : List UInt8 := [0x80, 201, 0, 1] ++ intBytes SOURCE_ID

/-- The bytes that `encode` makes of an ASCII text. -/
def encode (text : String) : List UInt8 := text.toList.map fun c => UInt8.ofNat c.toNat

/-- An SDES item: its type, its length and its text. -/
def sdesItem (type : UInt8) (text : String) : List UInt8 :=
  [type, UInt8.ofNat (encode text).length] ++ encode text

/-- What is put behind the SSRC, but for the padding: CNAME, TOOL and the end of the list. -/
def sdesItems : List UInt8 :=
  sdesItem 1 "stagefright@somewhere" ++ sdesItem 6 "stagefright/1.0" ++ [0]

/-- The zeros that the `switch` puts. -/
def sdesPadding (position : ℕ) : List UInt8 :=
  let mod := position % 4
  if 0 < mod then List.replicate (4 - mod) 0 else []

/-- What is put behind the SSRC. -/
def sdesChunk : List UInt8 := sdesItems ++ sdesPadding (8 + sdesItems.length)

/-- The position of `bufData` in the end. -/
def sdesSize : ℕ := 8 + sdesChunk.length

/-- What `addSDES` puts into the slice. -/
def putSDES (bufData : List UInt8) : Except JavaException (List UInt8) := do
  let bufData ← putIndices bufData 0 [0x80 ||| 1, 202]
  let bufData ← putIndices bufData 4 (intBytes SOURCE_ID)
  let bufData ← putAt bufData 8 sdesChunk
  let numWords : ℤ := sdesSize / 4 - 1
  putIndices bufData 2 [toByte (numWords / 2 ^ 8), toByte numWords]

def addSDES (buffer : ANetworkSession.ABuffer) :
    Except JavaException ANetworkSession.ABuffer := do
  let buffer ← onTail buffer putSDES
  buffer.setRange buffer.mRangeOffset (buffer.mRangeLength + sdesSize)

/-- The loop over `mSources`, the entries of the map in the order of their keys. -/
def addReportBlocks (numReportBlocks : ℕ) (buf : ANetworkSession.ABuffer) :
    List (ℤ × Source) → Except JavaException (List (ℤ × Source) × ℕ × ANetworkSession.ABuffer)
  | [] => .ok ([], numReportBlocks, buf)
  | (ssrc, source) :: mSources =>
      if 31 < numReportBlocks ∨ buf.mData.length < buf.mRangeLength + 24 then
        .ok ((ssrc, source) :: mSources, numReportBlocks, buf)
      else do
        let (source, buf) ← source.addReportBlock ssrc buf
        let (mSources, numReportBlocks, buf) ← addReportBlocks (numReportBlocks + 1) buf mSources
        return ((ssrc, source) :: mSources, numReportBlocks, buf)

/-- The count and the length field, which the header gets when all blocks are there. -/
def putCount (bufData : List UInt8) (numReportBlocks : ℕ) :
    Except JavaException (List UInt8) := do
  let first ← getIndex bufData 0
  let bufData ← putIndex bufData 0 (first ||| UInt8.ofNat numReportBlocks)
  let sizeInWordsMinus1 : ℤ := 1 + 6 * numReportBlocks
  putIndices bufData 2 [toByte (sizeInWordsMinus1 / 2 ^ 8), toByte sizeInWordsMinus1]

/-- The map afterwards and the buffer whose range `sendRequest` gets. -/
def onSendRR (mSources : List (ℤ × Source)) :
    Except JavaException (List (ℤ × Source) × ANetworkSession.ABuffer) := do
  let buf ← (newABuffer MAX_UDP_PACKET_SIZE).setRange 0 0
  let mData ← putAt buf.mData 0 RR_BYTES
  let buf ← { buf with mData }.setRange 0 8
  let (mSources, numReportBlocks, buf) ← addReportBlocks 0 buf mSources
  let mData ← putCount buf.mData numReportBlocks
  let buf ← { buf with mData }.setRange 0 ((1 + 6 * numReportBlocks + 1) * 4)
  let buf ← addSDES buf
  return (mSources, buf)

end MirrorCast.RTPReceiver
