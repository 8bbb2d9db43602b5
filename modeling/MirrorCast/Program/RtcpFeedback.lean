import MirrorCast.Library.Audit
import MirrorCast.Program.RTPSender
import MirrorCast.Program.RTPUtils

/-! # `RTPSender`: receiver reports and retransmission requests -/

namespace MirrorCast.RTPSender

open Java RTPUtils

def OK : ℤ := 0
def ERROR_MALFORMED : ℤ := -1007
def ERROR_UNSUPPORTED : ℤ := -1010

/-- The buffer of an RTCP datagram: `data()` goes on behind the datagram up to the capacity. -/
structure ABuffer where
  data : List UInt8
  size : ℕ
  size_le : size ≤ data.length

/-- A packet of the history, with the sequence number kept in `mInt32Data`. -/
structure SentPacket where
  mInt32Data : ℤ
  bytes : List UInt8
  deriving DecidableEq, Repr

/-- What the handling of a datagram reads of the sender. `sendRequest` is what the network
session answers to the packets resent, call by call. -/
structure Sender where
  mRTPConnected : Bool
  mHistory : List SentPacket
  sendRequest : ℕ → Except JavaException ℤ

/-- A byte read while one RTCP packet is handled: its offset in the packet, and the length
that the packet declares. -/
structure Access where
  declared : ℕ
  offset : ℕ
  deriving DecidableEq, Repr

/-- What the handling of a datagram causes. The statistics of `sendRTPPacket` are left out. -/
structure Feedback where
  resent : List SentPacket
  /-- `WHAT_INFORM_SENDER`, with average and maximal latency. -/
  informed : List (ℤ × ℤ)
  deriving DecidableEq, Repr

abbrev Handling := Audit Access Feedback JavaException

/-- `headerLength`, as the bytes at the start of `data` declare it. -/
def declaredLength (data : List UInt8) : ℕ :=
  4 * ((data.getD 2 0).toNat * 2 ^ 8 + (data.getD 3 0).toNat) + 4

/-- The absolute reads of the `n` bytes from `i` on, which must lie within the limit. -/
def readBytes (data : List UInt8) (i n : ℕ) : Handling Unit :=
  if data.length < i + n then Audit.fail .arrayIndexOutOfBounds
  else Audit.log ((List.range n).map fun j => ⟨declaredLength data, i + j⟩)

/-- `data.get(i)`. -/
def readByte (data : List UInt8) (i : ℕ) : Handling UInt8 := do
  readBytes data i 1
  return data.getD i 0

/-! ## Retransmission -/

/-- `sendRTPPacket(packet, false)`. -/
def sendRTPPacket (sender : Sender) (packet : SentPacket) : Handling ℤ :=
  if sender.mRTPConnected then do
    let s ← Audit.get
    match sender.sendRequest s.resent.length with
    | .error e => Audit.fail e
    | .ok err =>
        if err = OK then do
          Audit.set { s with resent := s.resent ++ [packet] }
          return OK
        else return err
  else Audit.fail .runtime

/-- `bufferSeqNo`. -/
def SentPacket.seqNo (packet : SentPacket) : ℤ := packet.mInt32Data % 2 ^ 16

/-- The loop over the bits of `blp`: the bits that name `bufferSeqNo` are cleared. -/
def clearBits (seqNo bufferSeqNo : ℤ) (blp : BitVec 16) : BitVec 16 × Bool :=
  (List.range 16).foldl (fun (blp, retransmit) j =>
    if blp.getLsbD j ∧ bufferSeqNo = (seqNo + j + 1) % 2 ^ 16 then
      (blp &&& ~~~ (1#16 <<< j), true)
    else (blp, retransmit)) (blp, false)

/-- `blp` and `retransmit` for one packet of the history. -/
def wanted (seqNo : ℤ) (blp : BitVec 16) (packet : SentPacket) : BitVec 16 × Bool :=
  if packet.seqNo = seqNo then (blp, true)
  else if blp ≠ 0 then clearBits seqNo packet.seqNo blp
  else (blp, false)

/-- The loop over the history, with `foundSeqNo` and `blp`. -/
def resend (sender : Sender) (seqNo : ℤ) :
    List SentPacket → Bool → BitVec 16 → Handling (Bool × BitVec 16)
  | [], foundSeqNo, blp => return (foundSeqNo, blp)
  | packet :: packets, foundSeqNo, blp =>
      let (blp, retransmit) := wanted seqNo blp packet
      if retransmit then do
        let err ← sendRTPPacket sender packet
        if err = OK then
          let foundSeqNo := foundSeqNo || packet.seqNo == seqNo
          if foundSeqNo ∧ blp = 0 then return (foundSeqNo, blp)
          else resend sender seqNo packets foundSeqNo blp
        else Audit.fail .runtime
      else resend sender seqNo packets foundSeqNo blp

/-- One entry of a NACK. The report of missing packets formats `foundSeqNo`, a Boolean,
with `%d`, which `String.format` rejects. -/
def handleEntry (sender : Sender) (data : List UInt8) (i : ℕ) : Handling Unit := do
  readBytes data i 2
  let seqNo := U16_AT data i
  readBytes data (i + 2) 2
  let blp := BitVec.ofNat 16 (unsignedAt data (i + 2) 2)
  let (foundSeqNo, blp) ← resend sender seqNo sender.mHistory false blp
  if foundSeqNo ∧ blp = 0 then return ()
  else Audit.fail .illegalArgument

/-- The positions `for (int i = 12; i < size; i += 4)` runs through. -/
def entries (size : ℕ) : List ℕ := (List.range ((size - 12 + 3) / 4)).map (12 + 4 * ·)

def handleEntries (sender : Sender) (data : List UInt8) : List ℕ → Handling Unit
  | [] => return ()
  | i :: is => do
      handleEntry sender data i
      handleEntries sender data is

/-! ## Packets -/

def parseReceiverReport (data : List UInt8) : Handling ℤ := do
  let _ ← readByte data 12
  return OK

def parseTSFB (sender : Sender) (data : List UInt8) (size : ℕ) : Handling ℤ := do
  let data0 ← readByte data 0
  if data0 &&& 0x1f ≠ 1 then return ERROR_UNSUPPORTED
  else do
    readBytes data 8 4
    if U32_AT data 8 ≠ SOURCE_ID then return ERROR_MALFORMED
    else do
      handleEntries sender data (entries size)
      return OK

/-- The comparison with `late_string`, which stops at the first difference. -/
def matchesFrom (data : List UInt8) : ℕ → List UInt8 → Handling Bool
  | _, [] => return true
  | i, c :: cs => do
      let b ← readByte data i
      if b = c then matchesFrom data (i + 1) cs else return false

def parseAPP (data : List UInt8) (size : ℕ) : Handling ℤ :=
  if 28 ≤ size then do
    let late ← matchesFrom data 8 [108, 97, 116, 101]
    if late then do
      readBytes data 12 8
      readBytes data 20 8
      let s ← Audit.get
      Audit.set { s with informed := s.informed ++ [(U64_AT data 12, U64_AT data 20)] }
      return OK
    else return OK
  else return OK

/-- The `switch` over the packet type; what the parsers return is not used. -/
def handlePacket (sender : Sender) (data : List UInt8) (packetType : UInt8) (size : ℕ) :
    Handling Unit :=
  if packetType = 200 ∨ packetType = 201 then do
    let _ ← parseReceiverReport data
    return ()
  else if packetType = 204 then do
    let _ ← parseAPP data size
    return ()
  else if packetType = 205 then do
    let _ ← parseTSFB sender data size
    return ()
  else return ()

/-- The size without the padding, whose length is the last byte of the datagram. -/
def removePadding (data : List UInt8) (data0 : UInt8) (size : ℕ) :
    Handling (Option { n // n ≤ size }) :=
  if data0 &&& 0x20 ≠ 0 then do
    let paddingLength ← readByte data (size - 1)
    if size < paddingLength.toNat + 12 then return none
    else return some ⟨size - paddingLength.toNat, Nat.sub_le _ _⟩
  else return some ⟨size, Nat.le_refl _⟩

/-- The loop over the packets of a datagram. -/
def handlePackets (sender : Sender) (data : List UInt8) (size : ℕ) : Handling ℤ :=
  if 0 < size then
    if size < 8 then return ERROR_MALFORMED
    else do
      let data0 ← readByte data 0
      if data0 >>> 6 ≠ 2 then return ERROR_UNSUPPORTED
      else do
        match ← removePadding data data0 size with
        | none => return ERROR_MALFORMED
        | some ⟨unpadded, _⟩ =>
            let _ ← readByte data 2
            let _ ← readByte data 3
            let headerLength := declaredLength data
            if unpadded < headerLength then return ERROR_MALFORMED
            else do
              let data1 ← readByte data 1
              handlePacket sender data data1 headerLength
              if data.length < headerLength then Audit.fail .illegalArgument
              else handlePackets sender (data.drop headerLength) (unpadded - headerLength)
  else return OK
termination_by size
decreasing_by
  simp only [declaredLength]
  omega

def onRTCPData (sender : Sender) (buffer : ABuffer) : Handling ℤ :=
  handlePackets sender buffer.data buffer.size

end MirrorCast.RTPSender
