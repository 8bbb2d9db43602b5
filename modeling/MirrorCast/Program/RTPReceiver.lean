import MirrorCast.Program.RTPUtils

/-! # `RTPReceiver.Source`: sequence numbers and the jitter queue -/

namespace MirrorCast.RTPReceiver

open Java

/-- What a packet carries with it: `mInt32Data`, and `PT` and `RTP_TIME` of its metadata. -/
structure Packet where
  mInt32Data : ℤ
  PT : ℤ
  RTP_TIME : ℤ
  deriving DecidableEq, Repr

namespace Source

def MAX_DROPOUT : ℤ := 3000
def MAX_MISORDER : ℤ := 100
def RTP_SEQ_MOD : ℤ := 2 ^ 16
def REPORT_INTERVAL_US : ℤ := 10000000

/-- The messages that the source posts to itself, with their `GENERATION`. -/
inductive Timer where
  | retransmit (generation : ℤ)
  | declareLost (generation : ℤ)
  deriving DecidableEq, Repr

/-- Why a handler stops: a check of `CheckUtils`, or an exception out of something it calls. -/
inductive Stop where
  | check
  | thrown (e : JavaException)
  deriving DecidableEq, Repr

/-- What the source does besides updating its fields. -/
inductive Effect where
  /-- `queuePacket` is called. -/
  | queuePacket (packet : Packet)
  | processPacket (packet : Packet)
  | signalDiscontinuity
  | requestRetransmission (extSeqNo : ℤ)
  | notifyPacketLost
  /-- `mAwaitingExtSeqNo` or `mPackets` has got a new value; these are the two then. -/
  | assigned (mAwaitingExtSeqNo : ℤ) (mPackets : List Packet)
  deriving DecidableEq, Repr

/-- What a handler meets: the clock at its two places, whether the receiver makes an assembler
for a packet type, and what it, the assembler and the network session throw, if they do. -/
structure Env where
  arrivalUs : ℤ
  nowUs : ℤ
  makeAssembler : ℤ → Except JavaException Bool
  processPacket : Packet → Option JavaException
  signalDiscontinuity : Option JavaException
  requestRetransmission : Option JavaException

end Source

open Source

/-- The fields of a source. Of `mActiveAssembler` there is whether it is not null; `outstanding`
are the messages posted and not yet handled, and `effects` what was done so far. -/
structure Source where
  mFirst : Bool
  mMaxSeq : ℤ
  mCycles : ℤ
  mBaseSeq : ℤ
  mReceived : ℤ
  mExpectedPrior : ℤ
  mReceivedPrior : ℤ
  mFirstArrivalTimeUs : ℤ
  mFirstRTPTimeUs : ℤ
  mPackets : List Packet
  mAwaitingExtSeqNo : ℤ
  mRequestedRetransmission : Bool
  mActivePacketType : ℤ
  mActiveAssembler : Bool
  mNextReportTimeUs : ℤ
  mNumDeclaredLost : ℤ
  mNumDeclaredLostPrior : ℤ
  mRetransmitGeneration : ℤ
  mDeclareLostGeneration : ℤ
  mDeclareLostTimerPending : Bool
  outstanding : List Timer
  effects : List Effect
  deriving DecidableEq, Repr

namespace Source

/-- The constructor, with an empty list for `mPackets`. -/
def new : Source where
  mFirst := true
  mMaxSeq := 0
  mCycles := 0
  mBaseSeq := 0
  mReceived := 0
  mExpectedPrior := 0
  mReceivedPrior := 0
  mFirstArrivalTimeUs := -1
  mFirstRTPTimeUs := -1
  mPackets := []
  mAwaitingExtSeqNo := -1
  mRequestedRetransmission := false
  mActivePacketType := -1
  mActiveAssembler := false
  mNextReportTimeUs := -1
  mNumDeclaredLost := 0
  mNumDeclaredLostPrior := 0
  mRetransmitGeneration := 0
  mDeclareLostGeneration := 0
  mDeclareLostTimerPending := false
  outstanding := []
  effects := []

/-- A method of a source; what it has done stays done when it throws. -/
abbrev Handler := ExceptT Stop (StateM Source)

def log (effect : Effect) : Handler Unit :=
  modify fun s => { s with effects := s.effects ++ [effect] }

/-- An assignment to `mAwaitingExtSeqNo` or `mPackets`. -/
def assign (f : Source → Source) : Handler Unit := do
  modify f
  let s ← get
  log (.assigned s.mAwaitingExtSeqNo s.mPackets)

/-- A check of `CheckUtils`. -/
def check (c : Prop) [Decidable c] : Handler Unit := if c then return () else throw .check

/-- A call that may throw. -/
def call (e : Option JavaException) : Handler Unit :=
  match e with
  | some e => throw (.thrown e)
  | none => return ()

/-! ## Timers -/

def post (timer : Timer) : Handler Unit :=
  modify fun s => { s with outstanding := s.outstanding ++ [timer] }

/-- The delay of the message does not matter here: it may be handled at any time. -/
def postDeclareLostTimer : Handler Unit := do
  check ((← get).mDeclareLostTimerPending = false)
  modify fun s => { s with mDeclareLostTimerPending := true }
  post (.declareLost (← get).mDeclareLostGeneration)

def cancelTimers : Handler Unit :=
  modify fun s =>
    { s with
      mRetransmitGeneration := int32 (s.mRetransmitGeneration + 1)
      mDeclareLostGeneration := int32 (s.mDeclareLostGeneration + 1)
      mDeclareLostTimerPending := false }

/-! ## The queue -/

/-- The value of `a | b`. -/
def int32Or (a b : ℤ) : ℤ := (BitVec.ofInt 32 a ||| BitVec.ofInt 32 b).toInt

/-- The report at the start of `dequeueMore`; what it prints is left out. -/
def report (env : Env) : Handler Unit := do
  let s ← get
  if s.mNextReportTimeUs < 0 ∨ s.mNextReportTimeUs ≤ env.nowUs then
    if 0 ≤ s.mNextReportTimeUs then
      let expected := int32 (int32Or s.mMaxSeq s.mCycles - s.mBaseSeq + 1)
      modify fun s =>
        { s with
          mExpectedPrior := expected
          mReceivedPrior := s.mReceived
          mNumDeclaredLostPrior := s.mNumDeclaredLost }
    modify fun s => { s with mNextReportTimeUs := env.nowUs + REPORT_INTERVAL_US }

def getNextPacket : Handler (Option Packet) := do
  let s ← get
  match s.mPackets with
  | [] => return none
  | packet :: packets =>
      let extSeqNo := packet.mInt32Data
      if s.mAwaitingExtSeqNo < 0 then
        assign fun s => { s with mAwaitingExtSeqNo := extSeqNo }
        assign fun s => { s with mPackets := packets }
        return some packet
      else if extSeqNo ≠ s.mAwaitingExtSeqNo then return none
      else
        assign fun s => { s with mPackets := packets }
        return some packet

/-- Packets of another type get an assembler of their own; if making it fails, the old one and
its type stay. -/
def makeAssembler (env : Env) (packetType : ℤ) : Handler Unit :=
  match env.makeAssembler packetType with
  | .error e => throw (.thrown e)
  | .ok mActiveAssembler =>
      modify fun s => { s with mActiveAssembler, mActivePacketType := packetType }

/-- The body of the loop for a packet that has its turn. -/
def release (env : Env) (packet : Packet) : Handler Unit := do
  if (← get).mDeclareLostTimerPending then cancelTimers
  check (0 ≤ (← get).mAwaitingExtSeqNo)
  if packet.PT ≠ (← get).mActivePacketType then makeAssembler env packet.PT
  if (← get).mActiveAssembler then
    log (.processPacket packet)
    call (env.processPacket packet)
  assign fun s => { s with mAwaitingExtSeqNo := int32 (s.mAwaitingExtSeqNo + 1) }

/-- `while ((packet = getNextPacket()) != null)`, which takes at most `n` packets out of the
queue if there are no more in it. -/
def dequeueLoop (env : Env) : ℕ → Handler Unit
  | 0 => return ()
  | n + 1 => do
      match ← getNextPacket with
      | none => return ()
      | some packet =>
          release env packet
          dequeueLoop env n

/-- The end of `dequeueMore`. `REQUEST_RETRANSMISSION_AFTER_US` is negative, so no other timer
is posted. -/
def awaitFirst : Handler Unit := do
  let s ← get
  if s.mDeclareLostTimerPending then return ()
  else
    match s.mPackets with
    | [] => return ()
    | firstPacket :: _ =>
        check (0 ≤ s.mAwaitingExtSeqNo)
        check (s.mAwaitingExtSeqNo < firstPacket.mInt32Data)
        postDeclareLostTimer

def dequeueMore (env : Env) : Handler Unit := do
  report env
  dequeueLoop env (← get).mPackets.length
  awaitFirst

/-- The search from the back for the place of a packet; there is none for a duplicate. -/
def insertFromBack (packet : Packet) : List Packet → Option (List Packet)
  | [] => some [packet]
  | last :: before =>
      if last.mInt32Data = packet.mInt32Data then none
      else if last.mInt32Data < packet.mInt32Data then some (packet :: last :: before)
      else (insertFromBack packet before).map (last :: ·)

def queuePacket (env : Env) (packet : Packet) : Handler Unit := do
  log (.queuePacket packet)
  let newExtendedSeqNo := packet.mInt32Data
  if (← get).mFirstArrivalTimeUs < 0 then
    modify fun s =>
      { s with
        mFirstArrivalTimeUs := env.arrivalUs
        mFirstRTPTimeUs := (packet.RTP_TIME * 100).tdiv 9 }
  let s ← get
  if 0 ≤ s.mAwaitingExtSeqNo ∧ newExtendedSeqNo < s.mAwaitingExtSeqNo then return ()
  else
    match insertFromBack packet s.mPackets.reverse with
    | none => return ()
    | some packets =>
        assign fun s => { s with mPackets := packets.reverse }
        dequeueMore env

def signalDiscontinuity (env : Env) : Handler Unit := do
  log .signalDiscontinuity
  call env.signalDiscontinuity

def onMessageReceived (env : Env) (timer : Timer) : Handler Unit := do
  match timer with
  | .retransmit generation =>
      if generation ≠ (← get).mRetransmitGeneration then return ()
      else
        modify fun s => { s with mRequestedRetransmission := true }
        log (.requestRetransmission (← get).mAwaitingExtSeqNo)
        call env.requestRetransmission
  | .declareLost generation =>
      if generation ≠ (← get).mDeclareLostGeneration then return ()
      else
        cancelTimers
        modify fun s => { s with mRequestedRetransmission := false }
        if (← get).mActiveAssembler then signalDiscontinuity env
        assign fun s => { s with mAwaitingExtSeqNo := int32 (s.mAwaitingExtSeqNo + 1) }
        modify fun s => { s with mNumDeclaredLost := int32 (s.mNumDeclaredLost + 1) }
        log .notifyPacketLost
        dequeueMore env

/-! ## Sequence numbers -/

/-- `onPacketReceived(seq, buffer)`, where `buffer` has yet to get its number. -/
def onPacketReceived (env : Env) (seq : ℤ) (buffer : Packet) : Handler Unit := do
  let s ← get
  if s.mFirst then
    queuePacket env { buffer with mInt32Data := int32Or s.mCycles seq }
    modify fun s =>
      { s with
        mFirst := false
        mBaseSeq := seq
        mMaxSeq := seq
        mReceived := int32 (s.mReceived + 1) }
  else
    let udelta := int32 (seq - s.mMaxSeq)
    if udelta < MAX_DROPOUT then
      -- in order, with permissible gap
      let mCycles := if seq < s.mMaxSeq then int32 (s.mCycles + RTP_SEQ_MOD) else s.mCycles
      modify fun s => { s with mCycles, mMaxSeq := seq, mReceived := int32 (s.mReceived + 1) }
      queuePacket env { buffer with mInt32Data := int32Or mCycles seq }
    else if udelta ≤ RTP_SEQ_MOD - MAX_MISORDER then return ()
    else queuePacket env { buffer with mInt32Data := int32Or s.mCycles seq }

/-- `seqNo` of `onRTPData`, as the datagram with the header says it. -/
def seqNo (data : List UInt8) : ℤ := RTPUtils.U16_AT data 2

/-- `rtpTime` of `onRTPData`, which becomes the `RTP_TIME` of the packet. -/
def rtpTime (data : List UInt8) : ℤ := RTPUtils.U32_AT data 4

end Source

/-! ## Retransmission -/

def SOURCE_ID : ℤ := int32 0xdeadbeef

/-- The packet of `requestRetransmission(senderSSRC, extSeqNo)`, a generic NACK with one entry. -/
def requestRetransmission (senderSSRC extSeqNo : ℤ) : List UInt8 :=
  [0x81, 205, 0, 3,
    toByte (senderSSRC / 2 ^ 24), toByte (senderSSRC / 2 ^ 16), toByte (senderSSRC / 2 ^ 8),
    toByte senderSSRC,
    toByte (SOURCE_ID / 2 ^ 24), toByte (SOURCE_ID / 2 ^ 16), toByte (SOURCE_ID / 2 ^ 8),
    toByte SOURCE_ID,
    toByte (extSeqNo / 2 ^ 8), toByte extSeqNo, 0, 0]

end MirrorCast.RTPReceiver
