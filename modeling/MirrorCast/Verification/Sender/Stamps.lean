import MirrorCast.Verification.Sender.Packets

/-! # What a call adds to the packets taken

Here the network session may answer as it likes: with success, with an error or with an
exception. -/

namespace MirrorCast.RTPSender.Queueing

open Java ReusePool RTPUtils

variable {s t u : State} {b : ℕ} {world : World} {connected : Bool} {P : List UInt8 → Prop}

/-- The buffers stay in order, and the packets taken in the meantime are as `P` says. -/
structure Takes (P : List UInt8 → Prop) (connected : Bool) (s t : State) : Prop where
  ready : Ready connected t
  pooled : ∀ map, ∀ b ∈ objects (s.abufs map), b ∈ objects (t.abufs map)
  taken : ∃ sent, t.taken = s.taken ++ sent ∧ ∀ r ∈ sent, P r.packet.bytes

theorem Prepares.takes (h : Prepares connected s t) : Takes P connected s t where
  ready := h.ready
  pooled := h.pooled
  taken := ⟨[], by rw [h.taken_eq, List.append_nil], by simp⟩

theorem Takes.refl (h : Ready connected s) : Takes P connected s s := (Prepares.refl h).takes

theorem Takes.trans (h : Takes P connected s t) (h' : Takes P connected t u) :
    Takes P connected s u where
  ready := h'.ready
  pooled map b hb := h'.pooled map b (h.pooled map b hb)
  taken := by
    obtain ⟨sent, hsent, hall⟩ := h.taken
    obtain ⟨sent', hsent', hall'⟩ := h'.taken
    refine ⟨sent ++ sent', by rw [hsent', hsent, List.append_assoc], fun r hr => ?_⟩
    exact (List.mem_append.mp hr).elim (hall r) (hall' r)

/-! ## Sending -/

theorem recycleABuffer_takes (h : Ready connected s) (b : ℕ) :
    Ends (recycleABuffer b) s (fun _ t => Takes P connected s t) (fun _ _ => False) := by
  obtain ⟨abufs, hrecycle⟩ := s.recycle_eq b
  refine .modify ⟨h.recycle b, fun map b' hb' => (s.objects_recycle b map).symm ▸ hb', [], ?_, ?_⟩
  · rw [hrecycle]
    exact (List.append_nil _).symm
  · simp

theorem recycleAll_takes (h : Ready connected s) (buffers : List ℕ) :
    Ends (recycleAll buffers) s (fun _ t => Takes P connected s t) (fun _ _ => False) := by
  induction buffers generalizing s with
  | nil => exact .pure (.refl h)
  | cons b buffers ih =>
      refine .bind (recycleABuffer_takes (P := P) h b) fun _ t ht => ?_
      exact (ih ht.ready).mono (fun _ _ hu => ht.trans hu) fun _ _ => False.elim

theorem sendRTPPacket_takes (h : Ready connected s) (hbytes : P (s.heap b).bytes)
    (storeInHistory timeValid : Bool) (timeUs : ℤ) :
    Ends (sendRTPPacket world b storeInHistory timeValid timeUs) s
      (fun _ t => Takes P connected s t) (fun _ t => Takes P connected s t) := by
  have hrequested : Takes P connected s { s with requests := s.requests + 1 } :=
    Prepares.takes ⟨h.congr rfl rfl rfl rfl h.size_eq, fun _ _ => id, rfl, rfl⟩
  unfold sendRTPPacket
  refine .get_bind
    (.when_bind (Q := fun _ t => s = t) (fun _ => .throw (.refl h)) (fun _ => rfl) ?_)
  rintro _ rfl
  refine .modify_bind ?_
  cases world.sendRequest s.requests with
  | error e => exact .throw hrequested
  | ok err =>
      dsimp only
      refine .ite (fun _ => .pure hrequested) fun _ => .modify_bind ?_
      have hrecorded : Takes P connected s { s with
          requests := s.requests + 1
          taken := s.taken ++ [⟨s.packet b, storeInHistory, timeValid, timeUs⟩] } :=
        ⟨h.congr rfl rfl rfl rfl h.size_eq, fun _ _ => id, _, rfl,
          fun r hr => List.mem_singleton.mp hr ▸ hbytes⟩
      refine .when_bind (Q := fun _ t => Takes P connected s t) (fun _ => ?_) (fun _ => hrecorded)
        fun _ ht => .pure ht
      exact (storePacket_prepares hrecorded.ready b).mono
        (fun _ _ ht => hrecorded.trans ht.takes) fun _ _ => False.elim

/-! ## The queue methods -/

theorem Takes.headed (h : Takes P connected s t) (hroom : 12 ≤ (t.heap b).mData.length)
    (packetType : UInt8) (rtpTime : ℤ) : Takes P connected s (t.headed b packetType rtpTime) :=
  ⟨h.ready.headed hroom packetType rtpTime, h.pooled, h.taken⟩

theorem Takes.filled (h : Takes P connected s t) {payload : List UInt8}
    (hroom : 12 + payload.length ≤ (t.heap b).mData.length) (packetType : UInt8) (rtpTime : ℤ) :
    Takes P connected s (t.filled b packetType rtpTime payload) :=
  ⟨h.ready.filled hroom packetType rtpTime, h.pooled, h.taken⟩

/-- A packet that starts with a header with the time. -/
def Stamped (time : ℤ) (bytes : List UInt8) : Prop :=
  ∃ packetType mRTPSeqNo payload, bytes = rtpHeader packetType mRTPSeqNo time ++ payload

variable {tsPackets accessUnit : List UInt8} {timeUs : ℤ} {packetType : UInt8}

theorem queueRawPacket_takes (h : Ready connected s) :
    Ends (queueRawPacket world tsPackets timeUs packetType) s
      (fun _ t => Takes (Stamped (rtpTime timeUs)) connected s t)
      (fun _ t => Takes (Stamped (rtpTime timeUs)) connected s t) := by
  unfold queueRawPacket
  refine .ite (fun _ => .throw_bind (.refl h)) fun _ => ?_
  refine .seq (newABuffer_prepares h _) (fun _ _ => False.elim) ?_
  rintro b s₁ ⟨h₁, hnew⟩
  have hroom : 12 + tsPackets.length ≤ (s₁.heap b).mData.length := by
    rw [hnew]
    exact (List.length_replicate ..).ge
  refine fill_ends hroom (.get_bind ?_)
  have hfilled : Takes (Stamped (rtpTime timeUs)) connected s
      (s₁.filled b packetType (rtpTime timeUs) tsPackets) :=
    h₁.takes.filled hroom packetType (rtpTime timeUs)
  have hstamped : Stamped (rtpTime timeUs)
      ((s₁.filled b packetType (rtpTime timeUs) tsPackets).heap b).bytes :=
    ⟨_, _, _, bytes_filled hnew packetType (rtpTime timeUs)⟩
  exact (sendRTPPacket_takes hfilled.ready hstamped _ _ _).mono (fun _ _ => hfilled.trans)
    fun _ _ => hfilled.trans

/-- Here it does not matter what the packets carry. -/
theorem queueTSPacketsFrom_ready (h : Ready connected s) (srcOffset : ℕ) :
    Ends (queueTSPacketsFrom world tsPackets timeUs packetType srcOffset) s
      (fun _ t => Ready connected t) (fun _ t => Ready connected t) := by
  induction hn : tsPackets.length - srcOffset using Nat.strong_induction_on
    generalizing srcOffset s with
  | _ n ih =>
      rw [queueTSPacketsFrom]
      refine .ite (fun hmore => ?_) fun _ => .pure h
      refine .seq (getABuffer_prepares h) (fun _ _ => False.elim) ?_
      rintro b s₁ ⟨h₁, hmem⟩
      refine .get_bind (.seq (putHeader_ends (h₁.ready.roomy hmem)) (fun _ _ => False.elim) ?_)
      rintro _ _ rfl
      dsimp only
      have h₂ := h₁.ready.headed (h₁.ready.roomy hmem) packetType
        (rtpTime (world.clock s₁.requests))
      refine .seq (put_prepares h₂ b 12 _) (fun _ _ ht => ht.ready) fun _ s₃ h₃ => ?_
      refine .seq (setRange_prepares h₃.ready b (by omega)) (fun _ _ ht => ht.ready)
        fun _ s₄ h₄ => ?_
      refine .seq (sendRTPPacket_takes (P := fun _ => True) h₄.ready trivial _ _ _)
        (fun _ _ ht => ht.ready) fun err s₅ h₅ => ?_
      refine .ite (fun _ => ?_) fun _ => ih _ ?_ h₅.ready _ rfl
      · refine .seq (recycleABuffer_takes (P := fun _ => True) h₅.ready b)
          (fun _ _ => False.elim) fun _ s₆ h₆ => .pure h₆.ready
      · simp only [MAX_NUM_TS_PACKETS_PER_RTP_PACKET, MAX_UDP_PACKET_SIZE]
        omega

theorem sendPackets_takes (h : Ready connected s) {time : ℤ} {packets : List ℕ}
    (hpooled : ∀ b ∈ packets, b ∈ objects (s.abufs .AVC_ABUFS)) :
    Ends (sendPackets world packetType time packets) s
      (fun _ t => Takes (Stamped time) connected s t)
      (fun _ t => Takes (Stamped time) connected s t) := by
  induction packets generalizing s with
  | nil => exact .pure (.refl h)
  | cons outBuf packets ih =>
      obtain ⟨hout, hrest⟩ := List.forall_mem_cons.mp hpooled
      refine .seq (putHeader_ends (h.roomy hout)) (fun _ _ => False.elim) ?_
      rintro _ _ rfl
      generalize (if packets = [] then packetType ||| 0x80 else packetType) = marked
      have hheaded := (Takes.refl h (P := Stamped time)).headed (h.roomy hout) marked time
      have hstamped : Stamped time ((s.headed outBuf marked time).heap outBuf).bytes :=
        ⟨_, _, _, bytes_headed (h.ranges .AVC_ABUFS outBuf hout) marked time⟩
      refine .seq (sendRTPPacket_takes hheaded.ready hstamped _ _ _) (fun _ _ => hheaded.trans)
        fun err t ht => ?_
      have hsent := hheaded.trans ht
      refine .ite (fun _ => ?_) fun _ => ?_
      · refine .seq (recycleABuffer_takes (P := Stamped time) hsent.ready outBuf)
          (fun _ _ => False.elim) fun _ t₁ h₁ => ?_
        refine .seq (recycleAll_takes (P := Stamped time) h₁.ready packets)
          (fun _ _ => False.elim) fun _ t₂ h₂ => ?_
        exact .pure ((hsent.trans h₁).trans h₂)
      · exact (ih hsent.ready fun b hb => hsent.pooled .AVC_ABUFS b (hrest b hb)).mono
          (fun _ _ => hsent.trans) fun _ _ => hsent.trans

theorem queueAVCBuffer_takes (h : Ready connected s) :
    Ends (queueAVCBuffer world accessUnit timeUs packetType) s
      (fun _ t => Takes (Stamped (rtpTime timeUs)) connected s t)
      (fun _ t => Takes (Stamped (rtpTime timeUs)) connected s t) := by
  unfold queueAVCBuffer
  refine .seq (getABuffer_prepares h) (fun _ _ => False.elim) ?_
  rintro out s₁ ⟨h₁, hout⟩
  have hstart : Fills connected s ⟨[], out, 12⟩ s₁ :=
    ⟨h₁, fun b hb => List.mem_singleton.mp hb ▸ hout, le_rfl⟩
  refine .seq (hstart.packNALs _) (fun _ _ ht => ht.takes) fun f s₂ h₂ => ?_
  refine .seq h₂.finish (fun _ _ ht => ht.takes) fun packets s₃ h₃ => ?_
  exact (sendPackets_takes h₃.1.ready h₃.2).mono (fun _ _ => h₃.1.takes.trans)
    fun _ _ => h₃.1.takes.trans

/-! ## Runs -/

theorem next_ready (world : World) (i : Input) (h : Ready connected s) :
    ∃ connected', Ready connected' (next world s i) := by
  cases i with
  | queueBuffer buffer timeUs packetType mode =>
      refine ⟨connected, ?_⟩
      cases mode with
      | PACKETIZATION_NONE =>
          exact ((queueRawPacket_takes h).mono
            (fun _ _ ht => ht.ready) fun _ _ ht => ht.ready).state
      | PACKETIZATION_TRANSPORT_STREAM =>
          have hcall : Ends (queueTSPackets world buffer timeUs packetType) s
              (fun _ t => Ready connected t) (fun _ t => Ready connected t) := by
            unfold queueTSPackets
            exact .ite (fun _ => .throw_bind h) fun _ => queueTSPacketsFrom_ready h 0
          exact hcall.state
      | PACKETIZATION_H264 =>
          exact ((queueAVCBuffer_takes h).mono
            (fun _ _ ht => ht.ready) fun _ _ ht => ht.ready).state
      | PACKETIZATION_AAC => exact h
  | resend packet =>
      refine ⟨connected, ?_⟩
      unfold next
      dsimp only
      split
      · exact ((sendRTPPacket_takes (P := fun _ => True) h trivial _ _ _).mono
          (fun _ _ ht => ht.ready) fun _ _ ht => ht.ready).state
      · exact h
  | connected =>
      exact ⟨true, rfl, h.pools.congr rfl rfl rfl, h.ranges, h.size_eq⟩

/-- The buffers are in order in every state that is reached. -/
theorem ready_of_run {inputs : List Input}
    (hrun : Machine.final (step world) .initial inputs = .ok s) :
    ∃ connected, Ready connected s :=
  Machine.final_invariant (fun s => ∃ connected, Ready connected s)
    (fun s i s' _ hinv hstep => by
      cases hstep
      obtain ⟨connected, h⟩ := hinv
      exact next_ready world i h) ⟨false, numbered_initial.ready⟩ hrun

end MirrorCast.RTPSender.Queueing
