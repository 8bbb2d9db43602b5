import MirrorCast.Program.AvcUtils

/-! # `RTPSender`: packing an H.264 access unit into RTP packets -/

namespace MirrorCast.RTPSender

open Java

/-- `RTPBase.MAX_UDP_PACKET_SIZE`, the capacity of every buffer `getABuffer(AVC_ABUFS)` hands out. -/
def MAX_UDP_PACKET_SIZE : ℕ := 1472

def SOURCE_ID : ℤ := int32 0xdeadbeef

/-- The buffers that `getABuffer(AVC_ABUFS)` hands out one after the other. They are
recycled, so they come with the bytes of earlier packets. -/
structure Pool where
  buffer : ℕ → List UInt8
  length_buffer : ∀ k, (buffer k).length = MAX_UDP_PACKET_SIZE

/-- The variables of the packing loop. Of a packet put into `packets` only the range set
with `setRange(0, outBytesUsed)` is kept. -/
structure Packing where
  packets : List (List UInt8)
  /-- buffers taken from the pool -/
  taken : ℕ
  out : List UInt8
  outBytesUsed : ℕ

namespace Packing

/-- `packets` empty, a first buffer, and twelve bytes kept for the RTP header. -/
def initial (pool : Pool) : Packing := ⟨[], 1, pool.buffer 0, 12⟩

/-- `out.setRange(0, size); packets.add(out); out = getABuffer(AVC_ABUFS)`. -/
def emit (pool : Pool) (s : Packing) (size : ℕ) : Except JavaException Packing :=
  if MAX_UDP_PACKET_SIZE < size then .error .runtime
  else .ok ⟨s.packets ++ [s.out.take size], s.taken + 1, pool.buffer s.taken, 12⟩

/-- The NAL unit becomes a packet of its own. -/
def singleNAL (pool : Pool) (s : Packing) (nal : List UInt8) : Except JavaException Packing := do
  let out ← putAt s.out s.outBytesUsed nal
  emit pool { s with out } (s.outBytesUsed + nal.length)

/-- The NAL unit goes behind those already in the aggregation packet. -/
def aggregate (s : Packing) (nal : List UInt8) (bytesNeeded : ℕ) :
    Except JavaException Packing := do
  let header := if s.outBytesUsed = 12 then [(24 : UInt8)] else []
  let size := [toByte (nal.length / 2 ^ 8 : ℕ), toByte nal.length]
  let out ← putAt s.out s.outBytesUsed (header ++ size ++ nal)
  return { s with out, outBytesUsed := s.outBytesUsed + bytesNeeded }

/-- The fragments of a NAL unit from `srcOffset` on. -/
def fragment (pool : Pool) (nal : List UInt8) (srcOffset : ℕ) (s : Packing) :
    Except JavaException Packing :=
  if srcOffset < nal.length then do
    let copy := min (MAX_UDP_PACKET_SIZE - 12 - 2) (nal.length - srcOffset)
    let nal0 := nal.getD 0 0
    let nalType := nal0 &&& 0x1f
    let nri := (nal0 >>> 5) &&& 3
    let fuHeader :=
      if srcOffset + copy = nal.length then nalType ||| 0x40
      else if srcOffset = 1 then nalType ||| 0x80
      else nalType
    let out ← putAt s.out 12 ([(nri <<< 5) ||| 28, fuHeader] ++ (nal.drop srcOffset).take copy)
    let s ← emit pool { s with out } (12 + copy + 2)
    fragment pool nal (srcOffset + copy) s
  else .ok s
termination_by nal.length - srcOffset
decreasing_by
  simp only [MAX_UDP_PACKET_SIZE]
  omega

/-- The body of the loop for one NAL unit. -/
def packNAL (pool : Pool) (s : Packing) (nal : List UInt8) : Except JavaException Packing := do
  let bytesNeeded := nal.length + 2 + if s.outBytesUsed = 12 then 1 else 0
  if int32 (s.outBytesUsed + bytesNeeded) ≤ MAX_UDP_PACKET_SIZE then
    aggregate s nal bytesNeeded
  else if s.outBytesUsed = 12 ∧ int32 (s.outBytesUsed + nal.length) ≤ MAX_UDP_PACKET_SIZE then
    singleNAL pool s nal
  else
    let s ← if 12 < s.outBytesUsed then emit pool s s.outBytesUsed else .ok s
    -- `bytesNeeded` is still the number computed for the packet just emitted
    if int32 (s.outBytesUsed + bytesNeeded) ≤ MAX_UDP_PACKET_SIZE then
      aggregate s nal bytesNeeded
    else
      fragment pool nal 1 s

/-- The packet left when all NAL units are packed. -/
def finish (s : Packing) : Except JavaException (List (List UInt8)) :=
  if 12 < s.outBytesUsed then
    if MAX_UDP_PACKET_SIZE < s.outBytesUsed then .error .runtime
    else .ok (s.packets ++ [s.out.take s.outBytesUsed])
  else .ok s.packets

end Packing

/-- The bytes written over the first twelve of a packet. -/
def rtpHeader (packetType : UInt8) (mRTPSeqNo rtpTime : ℤ) : List UInt8 :=
  [0x80, packetType, toByte (mRTPSeqNo / 2 ^ 8), toByte mRTPSeqNo,
    toByte (rtpTime / 2 ^ 24), toByte (rtpTime / 2 ^ 16), toByte (rtpTime / 2 ^ 8), toByte rtpTime,
    toByte (SOURCE_ID / 2 ^ 24), toByte (SOURCE_ID / 2 ^ 16), toByte (SOURCE_ID / 2 ^ 8),
    toByte SOURCE_ID]

/-- The headers are written when the packets go out, the marker bit into the last one. -/
def writeHeaders (packetType : UInt8) (rtpTime : ℤ) : ℤ → List (List UInt8) → List (List UInt8)
  | _, [] => []
  | mRTPSeqNo, packet :: packets =>
      let packetType' := if packets = [] then packetType ||| 0x80 else packetType
      (rtpHeader packetType' mRTPSeqNo rtpTime ++ packet.drop 12) ::
        writeHeaders packetType rtpTime (int32 (mRTPSeqNo + 1)) packets

/-- The packets handed to the network session, when it is connected and its queue takes
every packet. -/
def queueAVCBuffer (pool : Pool) (mRTPSeqNo timeUs : ℤ) (accessUnit : List UInt8)
    (packetType : UInt8) : Except JavaException (List (List UInt8)) := do
  let rtpTime := int32 ((int64 (timeUs * 9)).tdiv 100)
  let s ← (AvcUtils.nalUnits accessUnit).foldlM (Packing.packNAL pool) (Packing.initial pool)
  let packets ← s.finish
  return writeHeaders packetType rtpTime mRTPSeqNo packets

end MirrorCast.RTPSender
