import MirrorCast.Library.ReusePool
import MirrorCast.Program.RtcpFeedback

/-! # `RTPSender`: the queue methods, their pooled buffers and the history

The statistics that `sendRTPPacket` keeps for sender reports are left out. -/

namespace MirrorCast.RTPSender.Queueing

open Java

def MAX_NUM_TS_PACKETS_PER_RTP_PACKET : ℕ := (MAX_UDP_PACKET_SIZE - 12) / 188

def MAX_HISTORY_SIZE : ℕ := 1024

/-- An `ABuffer` that carries a packet; its range starts at 0. -/
structure PacketBuffer where
  mData : List UInt8
  mRangeLength : ℕ
  mInt32Data : ℤ

namespace PacketBuffer

def new (capacity : ℕ) : PacketBuffer := ⟨List.replicate capacity 0, capacity, 0⟩

def reset (b : PacketBuffer) : PacketBuffer :=
  { b with mRangeLength := b.mData.length, mInt32Data := 0 }

/-- The bytes of the range: `size()` of those in `data()`. -/
def bytes (b : PacketBuffer) : List UInt8 := b.mData.take b.mRangeLength

end PacketBuffer

/-- The two static maps from the pooled buffers to whether they are in use. -/
inductive BufferMap where
  | TS_ABUFS
  | AVC_ABUFS
  deriving DecidableEq, Repr

/-- The capacity of the buffers that `getABuffer` makes for the map. -/
def BufferMap.capacity : BufferMap → ℕ
  | .TS_ABUFS => 12 + MAX_NUM_TS_PACKETS_PER_RTP_PACKET * 188
  | .AVC_ABUFS => MAX_UDP_PACKET_SIZE

/-- A packet that the network session took, with the other arguments of `sendRTPPacket`. -/
structure Taken where
  packet : SentPacket
  storeInHistory : Bool
  timeValid : Bool
  timeUs : ℤ
  deriving DecidableEq, Repr

/-- The sender and the static maps. Buffers are named by numbers, in the order they are made. -/
structure State where
  heap : ℕ → PacketBuffer
  allocated : ℕ
  abufs : BufferMap → List (ℕ × Bool)
  mRTPConnected : Bool
  mRTPSeqNo : ℤ
  mHistory : List ℕ
  mHistorySize : ℕ
  /-- the requests made of the network session -/
  requests : ℕ
  taken : List Taken

/-- A new sender, with no buffer pooled yet. -/
def State.initial : State where
  heap _ := .new 0
  allocated := 0
  abufs _ := []
  mRTPConnected := false
  mRTPSeqNo := 0
  mHistory := []
  mHistorySize := 0
  requests := 0
  taken := []

/-- What the sender meets: the hash codes that order the maps, the answers of the network
session to its requests, one after the other, and the clock at each of them. -/
structure World where
  hashCode : ℕ → ℤ
  sendRequest : ℕ → Except JavaException ℤ
  clock : ℕ → ℤ

abbrev Sending := ExceptT JavaException (StateM State)

/-! ## Buffers -/

def State.update (s : State) (buffer : ℕ) (f : PacketBuffer → PacketBuffer) : State :=
  { s with heap := Function.update s.heap buffer (f (s.heap buffer)) }

def State.mark (s : State) (map : BufferMap) (buffer : ℕ) (inUse : Bool) : State :=
  { s with abufs := Function.update s.abufs map (ReusePool.mark (s.abufs map) buffer inUse) }

@[simp] theorem State.heap_update_self (s : State) (b : ℕ) (f : PacketBuffer → PacketBuffer) :
    (s.update b f).heap b = f (s.heap b) := Function.update_self b _ s.heap

theorem State.heap_update_of_ne {b b' : ℕ} (h : b' ≠ b) (s : State)
    (f : PacketBuffer → PacketBuffer) : (s.update b f).heap b' = s.heap b' :=
  Function.update_of_ne h _ s.heap

@[simp] theorem State.abufs_mark_self (s : State) (map : BufferMap) (b : ℕ) (inUse : Bool) :
    (s.mark map b inUse).abufs map = ReusePool.mark (s.abufs map) b inUse :=
  Function.update_self map _ s.abufs

theorem State.abufs_mark_of_ne {map map' : BufferMap} (h : map' ≠ map) (s : State) (b : ℕ)
    (inUse : Bool) : (s.mark map b inUse).abufs map' = s.abufs map' :=
  Function.update_of_ne h _ s.abufs

@[simp] theorem State.objects_mark (s : State) (map map' : BufferMap) (b : ℕ) (inUse : Bool) :
    ReusePool.objects ((s.mark map b inUse).abufs map') = ReusePool.objects (s.abufs map') := by
  by_cases h : map' = map
  · rw [h, State.abufs_mark_self, ReusePool.objects_mark]
  · rw [State.abufs_mark_of_ne h]

/-- `new ABuffer(capacity)`. -/
def newABuffer (capacity : ℕ) : Sending ℕ := do
  let s ← get
  modify fun s => { s with
    heap := Function.update s.heap s.allocated (.new capacity), allocated := s.allocated + 1 }
  return s.allocated

def getABuffer (world : World) (map : BufferMap) : Sending ℕ := do
  let s ← get
  match ReusePool.free? (s.abufs map) with
  | some candidate => do
      modify fun s => s.mark map candidate true
      return candidate
  | none => do
      let candidate ← newABuffer map.capacity
      modify fun s => { s with
        abufs := Function.update s.abufs map
          (ReusePool.insert world.hashCode (s.abufs map) candidate) }
      return candidate

/-- `buffer.reset()`, and the buffer is marked free in the first map that has it. -/
def State.recycle (s : State) (buffer : ℕ) : State :=
  let s := s.update buffer .reset
  if buffer ∈ ReusePool.objects (s.abufs .TS_ABUFS) then s.mark .TS_ABUFS buffer false
  else s.mark .AVC_ABUFS buffer false

def recycleABuffer (buffer : ℕ) : Sending Unit := modify fun s => s.recycle buffer

/-- `data().position(pos)`, then `put(bytes)`. -/
def put (buffer pos : ℕ) (bytes : List UInt8) : Sending Unit := do
  let s ← get
  match putAt (s.heap buffer).mData pos bytes with
  | .error e => throw e
  | .ok mData => modify fun s => s.update buffer fun b => { b with mData }

/-- `setRange(0, size)`. -/
def setRange (buffer size : ℕ) : Sending Unit := do
  let s ← get
  if (s.heap buffer).mData.length < size then throw .runtime
  else modify fun s => s.update buffer fun b => { b with mRangeLength := size }

/-- `setInt32Data(mRTPSeqNo)` and the header with this number, which is then counted up. -/
def putHeader (buffer : ℕ) (packetType : UInt8) (rtpTime : ℤ) : Sending Unit := do
  let s ← get
  modify fun s => s.update buffer fun b => { b with mInt32Data := s.mRTPSeqNo }
  put buffer 0 (rtpHeader packetType s.mRTPSeqNo rtpTime)
  modify fun s => { s with mRTPSeqNo := int32 (s.mRTPSeqNo + 1) }

/-! ## Sending -/

/-- A full history gives up its first packet. -/
def makeRoom : Sending Unit := do
  let s ← get
  if s.mHistorySize = MAX_HISTORY_SIZE then
    match s.mHistory with
    | [] => throw .noSuchElement
    | first :: rest => do
        modify fun s => { s with mHistory := rest }
        recycleABuffer first
  else modify fun s => { s with mHistorySize := s.mHistorySize + 1 }

def storePacket (packet : ℕ) : Sending Unit := do
  makeRoom
  modify fun s => { s with mHistory := s.mHistory ++ [packet] }

/-- The packet a buffer holds. -/
def State.packet (s : State) (buffer : ℕ) : SentPacket :=
  ⟨(s.heap buffer).mInt32Data, (s.heap buffer).bytes⟩

def sendRTPPacket (world : World) (packet : ℕ) (storeInHistory timeValid : Bool) (timeUs : ℤ) :
    Sending ℤ := do
  let s ← get
  if ¬ s.mRTPConnected then throw .runtime
  modify fun s => { s with requests := s.requests + 1 }
  match world.sendRequest s.requests with
  | .error e => throw e
  | .ok err =>
      if err ≠ OK then return err
      else do
        modify fun s => { s with
          taken := s.taken ++ [⟨s.packet packet, storeInHistory, timeValid, timeUs⟩] }
        if storeInHistory then storePacket packet
        return OK

/-! ## The queue methods -/

/-- `(int) (timeUs * 9 / 100)`. -/
def rtpTime (timeUs : ℤ) : ℤ := int32 ((int64 (timeUs * 9)).tdiv 100)

def queueRawPacket (world : World) (tsPackets : List UInt8) (timeUs : ℤ) (packetType : UInt8) :
    Sending ℤ := do
  if MAX_UDP_PACKET_SIZE - 12 < tsPackets.length then throw .runtime
  let udpPacket ← newABuffer (12 + tsPackets.length)
  putHeader udpPacket packetType (rtpTime timeUs)
  put udpPacket 12 tsPackets
  let s ← get
  sendRTPPacket world udpPacket true true (world.clock s.requests)

/-- The loop of `queueTSPackets`. The size is a multiple of 188, so that `srcOffset` is less than
it as long as another TS packet is left. -/
def queueTSPacketsFrom (world : World) (tsPackets : List UInt8) (timeUs : ℤ) (packetType : UInt8)
    (srcOffset : ℕ) : Sending ℤ :=
  if srcOffset + 188 ≤ tsPackets.length then do
    let udpPacket ← getABuffer world .TS_ABUFS
    let s ← get
    putHeader udpPacket packetType (rtpTime (world.clock s.requests))
    let numTSPackets :=
      min ((tsPackets.length - srcOffset) / 188) MAX_NUM_TS_PACKETS_PER_RTP_PACKET
    put udpPacket 12 ((tsPackets.drop srcOffset).take (numTSPackets * 188))
    setRange udpPacket (12 + numTSPackets * 188)
    let isLastPacket := srcOffset + numTSPackets * 188 == tsPackets.length
    let err ← sendRTPPacket world udpPacket true isLastPacket timeUs
    if err ≠ OK then do
      recycleABuffer udpPacket
      return err
    else queueTSPacketsFrom world tsPackets timeUs packetType (srcOffset + numTSPackets * 188)
  else return OK
termination_by tsPackets.length - srcOffset
decreasing_by
  simp only [MAX_NUM_TS_PACKETS_PER_RTP_PACKET, MAX_UDP_PACKET_SIZE]
  omega

def queueTSPackets (world : World) (tsPackets : List UInt8) (timeUs : ℤ) (packetType : UInt8) :
    Sending ℤ := do
  if tsPackets.length % 188 ≠ 0 then throw .runtime
  queueTSPacketsFrom world tsPackets timeUs packetType 0

/-! ## H.264 -/

/-- The packets filled so far, the buffer that is being filled, and how far. -/
structure Filling where
  packets : List ℕ
  out : ℕ
  outBytesUsed : ℕ

namespace Filling

/-- `out.setRange(0, size); packets.add(out); out = getABuffer(AVC_ABUFS)`. -/
def emit (world : World) (f : Filling) (size : ℕ) : Sending Filling := do
  setRange f.out size
  let out ← getABuffer world .AVC_ABUFS
  return ⟨f.packets ++ [f.out], out, 12⟩

/-- The NAL unit becomes a packet of its own. -/
def singleNAL (world : World) (f : Filling) (nal : List UInt8) : Sending Filling := do
  put f.out f.outBytesUsed nal
  emit world f (f.outBytesUsed + nal.length)

/-- The NAL unit goes behind those already in the aggregation packet. -/
def aggregate (f : Filling) (nal : List UInt8) (bytesNeeded : ℕ) : Sending Filling := do
  let header := if f.outBytesUsed = 12 then [(24 : UInt8)] else []
  let size := [toByte (nal.length / 2 ^ 8 : ℕ), toByte nal.length]
  put f.out f.outBytesUsed (header ++ size ++ nal)
  return { f with outBytesUsed := f.outBytesUsed + bytesNeeded }

/-- The fragments of a NAL unit from `srcOffset` on. -/
def fragment (world : World) (nal : List UInt8) (srcOffset : ℕ) (f : Filling) : Sending Filling :=
  if srcOffset < nal.length then do
    let copy := min (MAX_UDP_PACKET_SIZE - 12 - 2) (nal.length - srcOffset)
    let nal0 := nal.getD 0 0
    let nalType := nal0 &&& 0x1f
    let nri := (nal0 >>> 5) &&& 3
    let fuHeader :=
      if srcOffset + copy = nal.length then nalType ||| 0x40
      else if srcOffset = 1 then nalType ||| 0x80
      else nalType
    put f.out 12 ([(nri <<< 5) ||| 28, fuHeader] ++ (nal.drop srcOffset).take copy)
    let f ← emit world f (12 + copy + 2)
    fragment world nal (srcOffset + copy) f
  else return f
termination_by nal.length - srcOffset
decreasing_by
  simp only [MAX_UDP_PACKET_SIZE]
  omega

/-- The NAL unit is aggregated if there is room, and cut into fragments otherwise. -/
@[irreducible] def packRest (world : World) (f : Filling) (nal : List UInt8) (bytesNeeded : ℕ) :
    Sending Filling :=
  if int32 (f.outBytesUsed + bytesNeeded) ≤ MAX_UDP_PACKET_SIZE then
    aggregate f nal bytesNeeded
  else
    fragment world nal 1 f

/-- The body of the loop for one NAL unit. -/
@[irreducible] def packNAL (world : World) (f : Filling) (nal : List UInt8) : Sending Filling :=
  let bytesNeeded := nal.length + 2 + if f.outBytesUsed = 12 then 1 else 0
  if int32 (f.outBytesUsed + bytesNeeded) ≤ MAX_UDP_PACKET_SIZE then
    aggregate f nal bytesNeeded
  else if f.outBytesUsed = 12 ∧ int32 (f.outBytesUsed + nal.length) ≤ MAX_UDP_PACKET_SIZE then
    singleNAL world f nal
  else do
    let f ← if 12 < f.outBytesUsed then emit world f f.outBytesUsed else pure f
    -- `bytesNeeded` is still the number computed for the packet just emitted
    packRest world f nal bytesNeeded

def packNALs (world : World) : List (List UInt8) → Filling → Sending Filling
  | [], f => return f
  | nal :: nals, f => do
      let f ← packNAL world f nal
      packNALs world nals f

/-- The packet left when all NAL units are packed; a buffer with nothing in it is dropped. -/
def finish (f : Filling) : Sending (List ℕ) :=
  if 12 < f.outBytesUsed then do
    setRange f.out f.outBytesUsed
    return f.packets ++ [f.out]
  else return f.packets

end Filling

def recycleAll : List ℕ → Sending Unit
  | [] => return ()
  | buffer :: buffers => do
      recycleABuffer buffer
      recycleAll buffers

/-- The loop that sends the packets; the marker bit goes into the last one. -/
def sendPackets (world : World) (packetType : UInt8) (rtpTime : ℤ) : List ℕ → Sending ℤ
  | [] => return OK
  | outBuf :: packets => do
      putHeader outBuf (if packets = [] then packetType ||| 0x80 else packetType) rtpTime
      let err ← sendRTPPacket world outBuf true false (-1)
      if err ≠ OK then do
        recycleABuffer outBuf
        recycleAll packets
        return err
      else sendPackets world packetType rtpTime packets

def queueAVCBuffer (world : World) (accessUnit : List UInt8) (timeUs : ℤ) (packetType : UInt8) :
    Sending ℤ := do
  let out ← getABuffer world .AVC_ABUFS
  let f ← Filling.packNALs world (AvcUtils.nalUnits accessUnit) ⟨[], out, 12⟩
  let packets ← f.finish
  sendPackets world packetType (rtpTime timeUs) packets

/-! ## Runs -/

inductive PacketizationMode where
  | PACKETIZATION_NONE
  | PACKETIZATION_TRANSPORT_STREAM
  | PACKETIZATION_H264
  | PACKETIZATION_AAC
  deriving DecidableEq, Repr

def queueBuffer (world : World) (buffer : List UInt8) (timeUs : ℤ) (packetType : UInt8) :
    PacketizationMode → Sending ℤ
  | .PACKETIZATION_NONE => queueRawPacket world buffer timeUs packetType
  | .PACKETIZATION_TRANSPORT_STREAM => queueTSPackets world buffer timeUs packetType
  | .PACKETIZATION_H264 => queueAVCBuffer world buffer timeUs packetType
  | .PACKETIZATION_AAC => throw .runtime

end MirrorCast.RTPSender.Queueing
