import MirrorCast.Program.RTPReceiver
import MirrorCast.Verification.Receiver.Assembly
import MirrorCast.Verification.Sender.Stamps

/-! # What becomes of a time on its way to the receiver -/

namespace MirrorCast

open Java
open RTPSender (rtpHeader)
open RTPSender.Queueing (World State Input Taken Stamped PacketizationMode)
open RTPReceiver (Source)
open RTPAssembler (H264Assembler TSAssembler AccessUnit)

/-! ## The header field -/

/-- A header is read as it was written. -/
theorem RTPReceiver.rtpTime_rtpHeader (packetType : UInt8) (mRTPSeqNo rtpTime : ℤ)
    (payload : List UInt8) :
    Source.rtpTime (rtpHeader packetType mRTPSeqNo rtpTime ++ payload) = int32 rtpTime := by
  have hbytes : RTPUtils.unsignedAt (rtpHeader packetType mRTPSeqNo rtpTime ++ payload) 4 4 =
      (((0 * 256 + (toByte (rtpTime / 2 ^ 24)).toNat) * 256 +
        (toByte (rtpTime / 2 ^ 16)).toNat) * 256 + (toByte (rtpTime / 2 ^ 8)).toNat) * 256 +
          (toByte rtpTime).toNat := rfl
  have hvalue : (RTPUtils.unsignedAt (rtpHeader packetType mRTPSeqNo rtpTime ++ payload) 4 4 : ℤ) =
      rtpTime % 2 ^ 32 := by
    rw [hbytes, toNat_toByte, toNat_toByte, toNat_toByte, toNat_toByte]
    omega
  rw [Source.rtpTime, RTPUtils.U32_AT, hvalue]
  exact Int.emod_bmod _ _

theorem int32_int32 (x : ℤ) : int32 (int32 x) = int32 x := Int.bmod_bmod

theorem RTPReceiver.rtpTime_of_stamped {timeUs : ℤ} {bytes : List UInt8}
    (h : Stamped (RTPSender.Queueing.rtpTime timeUs) bytes) :
    Source.rtpTime bytes = RTPSender.Queueing.rtpTime timeUs := by
  obtain ⟨packetType, mRTPSeqNo, payload, rfl⟩ := h
  rw [RTPReceiver.rtpTime_rtpHeader, RTPSender.Queueing.rtpTime, int32_int32]

/-! ## The two conversions -/

/-- In the range of the field the sender's conversion is exact up to its fraction, and the
receiver's is as long as hundred times the field is an `int`. -/
theorem timeUs_error_iff {timeUs : ℤ} (hlo : 0 ≤ (timeUs * 9).tdiv 100)
    (hhi : (timeUs * 9).tdiv 100 < 2 ^ 31) :
    |(int32 (RTPSender.Queueing.rtpTime timeUs * 100)).tdiv 9 - timeUs| < 13 ↔
      (timeUs * 9).tdiv 100 ≤ 21474836 := by
  have hsend := tdiv_error (timeUs * 9) (d := 100) (by decide)
  have htime : RTPSender.Queueing.rtpTime timeUs = (timeUs * 9).tdiv 100 := by
    rw [RTPSender.Queueing.rtpTime, int64_eq (by omega) (by omega), int32_eq (by omega) hhi]
  rw [htime]
  generalize (timeUs * 9).tdiv 100 = ticks at *
  have hreceive := tdiv_error (int32 (ticks * 100)) (d := 9) (by decide)
  have hbounds := int32_bounds (ticks * 100)
  have hmod := int32_emod (ticks * 100)
  rw [abs_lt]
  constructor
  · intro herror
    by_contra hlarge
    omega
  · intro hsmall
    rw [int32_eq (by omega) (by omega)] at hreceive ⊢
    omega

/-! ## The assemblers -/

namespace RTPAssembler.H264Assembler

variable {s : H264Assembler}

/-- Putting the units touches the start buffer only. -/
theorem putUnits_keeps (totalSize : ℤ) (units : List RTPAssembler.ABuffer) (dstData : List UInt8) :
    Ends (putUnits totalSize units dstData) s
      (fun _ t => ∃ startBuffer, t = { s with NAL_START_BUFFER := startBuffer })
      (fun _ _ => True) := by
  induction units generalizing s dstData with
  | nil => exact .pure ⟨s.NAL_START_BUFFER, rfl⟩
  | cons unit units ih =>
      refine .get_bind (.ite (fun _ => .throw trivial) fun _ => .modify_bind ?_)
      unfold limited
      refine .bind (Q := fun _ t => t = { s with NAL_START_BUFFER := [] })
        (.ite (fun _ => .throw trivial) fun _ => .pure rfl) ?_
      rintro srcData _ rfl
      refine .ite (fun _ => .throw trivial) fun _ => (ih _).mono ?_ fun _ _ => id
      rintro _ _ ⟨startBuffer, rfl⟩
      exact ⟨startBuffer, rfl⟩

/-- An access unit gets its time from the field. -/
theorem flushAccessUnit_times (hunits : s.mNALUnits ≠ []) :
    Ends flushAccessUnit s
      (fun _ t => ∃ data,
        t.posted = s.posted ++ [⟨data, (int32 (s.mAccessUnitRTPTime * 100)).tdiv 9⟩])
      (fun _ _ => True) := by
  refine .get_bind (.ite (fun hnil => absurd hnil hunits) fun _ => ?_)
  unfold newABuffer
  refine .bind (Q := fun _ t => t = s) (.ite (fun _ => .throw trivial) fun _ => .pure rfl) ?_
  rintro accessUnit _ rfl
  refine .bind (putUnits_keeps _ _ _) ?_
  rintro dstData _ ⟨startBuffer, rfl⟩
  exact .modify_bind (.modify ⟨_, rfl⟩)

end RTPAssembler.H264Assembler

/-! ## The whole way -/

/-- A run of the sender, and a call of `queueRawPacket` or of `queueAVCBuffer` with `timeUs` after
it that has the network session take a packet with these bytes. -/
structure Writing (timeUs : ℤ) (bytes : List UInt8) where
  world : World
  inputs : List Input
  s : State
  run : Machine.final (RTPSender.Queueing.step world) .initial inputs = .ok s
  buffer : List UInt8
  packetType : UInt8
  result : Except JavaException ℤ
  t : State
  call : (RTPSender.Queueing.queueRawPacket world buffer timeUs packetType).run s = (result, t) ∨
    (RTPSender.Queueing.queueAVCBuffer world buffer timeUs packetType).run s = (result, t)
  sent : List Taken
  taken : t.taken = s.taken ++ sent
  packet : Taken
  packet_mem : packet ∈ sent
  bytes_eq : packet.packet.bytes = bytes

theorem Writing.rtpTime_eq {timeUs : ℤ} {bytes : List UInt8} (w : Writing timeUs bytes) :
    Source.rtpTime bytes = RTPSender.Queueing.rtpTime timeUs := by
  obtain ⟨connected, hready⟩ := RTPSender.Queueing.ready_of_run w.run
  have htakes : RTPSender.Queueing.Takes (Stamped (RTPSender.Queueing.rtpTime timeUs)) connected
      w.s w.t := by
    rcases w.call with hcall | hcall
    · have hstate := congrArg Prod.snd hcall
      rw [← show _ = w.t from hstate]
      exact (RTPSender.Queueing.queueRawPacket_takes hready).state
    · have hstate := congrArg Prod.snd hcall
      rw [← show _ = w.t from hstate]
      exact (RTPSender.Queueing.queueAVCBuffer_takes hready).state
  obtain ⟨sent, hsent, hstamped⟩ := htakes.taken
  have hsame : w.sent = sent := List.append_cancel_left (w.taken.symm.trans hsent)
  exact RTPReceiver.rtpTime_of_stamped (w.bytes_eq ▸ hstamped w.packet (hsame ▸ w.packet_mem))

/-- `timeUs` is the `TIME_US` that one of the assemblers posts for the time in the header. -/
inductive Reads (bytes : List UInt8) : ℤ → Prop where
  | processPacket (s s' : TSAssembler) (packet : RTPAssembler.ABuffer) (err : ℤ) (accessUnit : AccessUnit)
      (discontinuity : Bool) (htime : packet.RTP_TIME = some (Source.rtpTime bytes))
      (hcall : s.processPacket packet = .ok (err, s'))
      (hposted : s'.posted = s.posted ++ [(accessUnit, discontinuity)]) :
      Reads bytes accessUnit.TIME_US
  | flushAccessUnit (s t : H264Assembler) (accessUnit : AccessUnit) (hunits : s.mNALUnits ≠ [])
      (htime : s.mAccessUnitRTPTime = Source.rtpTime bytes)
      (hcall : H264Assembler.flushAccessUnit.run s = (.ok (), t))
      (hposted : t.posted = s.posted ++ [accessUnit]) : Reads bytes accessUnit.TIME_US

theorem Reads.eq {bytes : List UInt8} {timeUs : ℤ} (h : Reads bytes timeUs) :
    timeUs = (int32 (Source.rtpTime bytes * 100)).tdiv 9 := by
  cases h with
  | processPacket s s' packet err accessUnit discontinuity htime hcall hposted =>
      rw [TSAssembler.processPacket, htime] at hcall
      dsimp only at hcall
      generalize (int32 (Source.rtpTime bytes * 100)).tdiv 9 = time at hcall ⊢
      cases hcall
      have hsame := (List.cons.inj (List.append_cancel_left hposted)).1
      exact (congrArg (fun posted => posted.1.TIME_US) hsame).symm
  | flushAccessUnit s t accessUnit hunits htime hcall hposted =>
      obtain ⟨data, hdata⟩ := (H264Assembler.flushAccessUnit_times hunits).of_ok hcall
      rw [htime] at hdata
      generalize (int32 (Source.rtpTime bytes * 100)).tdiv 9 = time at hdata ⊢
      have hsame := (List.cons.inj (List.append_cancel_left (hposted.symm.trans hdata))).1
      exact congrArg AccessUnit.TIME_US hsame

/-- The receiver computes the sender's time up to less than 13 microseconds exactly if hundred
times the RTP time is an `int`. -/
theorem time_survives_iff {timeUs timeUs' : ℤ} {bytes : List UInt8}
    (hlo : 0 ≤ (timeUs * 9).tdiv 100) (hhi : (timeUs * 9).tdiv 100 < 2 ^ 31)
    (w : Writing timeUs bytes) (hreads : Reads bytes timeUs') :
    |timeUs' - timeUs| < 13 ↔ (timeUs * 9).tdiv 100 ≤ 21474836 := by
  rw [hreads.eq, w.rtpTime_eq]
  exact timeUs_error_iff hlo hhi

/-! ## A packet after four seconds, and one after five minutes -/

/-- The RTP packet with three bytes that is sent with `timeUs` right after the session became
connected. -/
def rawPacket (timeUs : ℤ) : List UInt8 :=
  rtpHeader 33 0 (RTPSender.Queueing.rtpTime timeUs) ++ [1, 2, 3]

def connectedState : State := { State.initial with mRTPConnected := true }

theorem taken_rawPacket (timeUs : ℤ) :
    ((RTPSender.Queueing.queueRawPacket RTPSender.Queueing.answering [1, 2, 3] timeUs 33).run
      connectedState).2.taken = [⟨⟨0, rawPacket timeUs⟩, true, true, 0⟩] := rfl

def writing (timeUs : ℤ) : Writing timeUs (rawPacket timeUs) where
  world := RTPSender.Queueing.answering
  inputs := [.connected]
  s := connectedState
  run := rfl
  buffer := [1, 2, 3]
  packetType := 33
  result := ((RTPSender.Queueing.queueRawPacket RTPSender.Queueing.answering [1, 2, 3] timeUs 33).run
    connectedState).1
  t := ((RTPSender.Queueing.queueRawPacket RTPSender.Queueing.answering [1, 2, 3] timeUs 33).run
    connectedState).2
  call := .inl rfl
  sent := [⟨⟨0, rawPacket timeUs⟩, true, true, 0⟩]
  taken := taken_rawPacket timeUs
  packet := ⟨⟨0, rawPacket timeUs⟩, true, true, 0⟩
  packet_mem := List.mem_singleton_self _
  bytes_eq := rfl

/-- The transport stream assembler reads the packet. -/
theorem reads_rawPacket (timeUs : ℤ) : Reads (rawPacket timeUs)
    ((int32 (Source.rtpTime (rawPacket timeUs) * 100)).tdiv 9) := by
  generalize htime : Source.rtpTime (rawPacket timeUs) = time
  let accessUnit : AccessUnit := ⟨[1, 2, 3], (int32 (time * 100)).tdiv 9⟩
  exact .processPacket ⟨false, []⟩ ⟨false, [(accessUnit, false)]⟩ ⟨[1, 2, 3], 3, some time, some 0⟩
    ANetworkSession.OK accessUnit false (by rw [htime]) rfl rfl

theorem time_survives_fourSeconds :
    |(int32 (Source.rtpTime (rawPacket 4000007) * 100)).tdiv 9 - 4000007| < 13 :=
  (time_survives_iff (by decide) (by decide) (writing 4000007) (reads_rawPacket 4000007)).mpr
    (by decide)

theorem time_survives_fails : ¬ ∀ (timeUs timeUs' : ℤ) (bytes : List UInt8),
    0 ≤ (timeUs * 9).tdiv 100 → (timeUs * 9).tdiv 100 < 2 ^ 31 → Writing timeUs bytes →
      Reads bytes timeUs' → |timeUs' - timeUs| < 13 := by
  intro h
  have herror := h 300000000 _ _ (by decide) (by decide) (writing 300000000)
    (reads_rawPacket 300000000)
  revert herror
  decide

end MirrorCast
