import MirrorCast.Verification.Sender.Ownership

/-! # What the operations on pooled buffers do -/

namespace MirrorCast.RTPSender.Queueing

open Java ReusePool

variable {s : State} {b : ℕ} {world : World} {map : BufferMap} {start : ℕ} {connected : Bool}
  {owned : List ℕ}

/-! ## Writing -/

theorem put_ends {pos : ℕ} {bytes : List UInt8}
    (hfits : pos + bytes.length ≤ (s.heap b).mData.length) :
    Ends (put b pos bytes) s
      (fun _ t => t = s.update b fun x => { x with mData := blit x.mData pos bytes })
      (fun _ _ => False) := by
  unfold put
  refine .get_bind ?_
  rw [putAt_eq_ok.mpr ⟨hfits, rfl⟩]
  exact .modify rfl

/-- Bytes that do not fit are not written. -/
theorem put_throws {pos : ℕ} {bytes : List UInt8}
    (hover : (s.heap b).mData.length < pos + bytes.length) :
    Ends (put b pos bytes) s (fun _ _ => False) (fun _ t => t = s) := by
  unfold put
  refine .get_bind ?_
  cases hput : putAt (s.heap b).mData pos bytes with
  | error e => exact .throw rfl
  | ok mData =>
      have hfits := (putAt_eq_ok.mp hput).1
      omega

theorem setRange_ends {size : ℕ} (hfits : size ≤ (s.heap b).mData.length) :
    Ends (setRange b size) s
      (fun _ t => t = s.update b fun x => { x with mRangeLength := size })
      (fun _ _ => False) := by
  unfold setRange
  refine .get_bind ?_
  rw [if_neg (by omega)]
  exact .modify rfl

/-- The buffer with the header for the next sequence number. -/
def State.headed (s : State) (b : ℕ) (packetType : UInt8) (rtpTime : ℤ) : State :=
  { s.update b fun x => { x with
      mInt32Data := s.mRTPSeqNo
      mData := blit x.mData 0 (rtpHeader packetType s.mRTPSeqNo rtpTime) } with
    mRTPSeqNo := int32 (s.mRTPSeqNo + 1) }

theorem putHeader_ends {packetType : UInt8} {rtpTime : ℤ}
    (hfits : 12 ≤ (s.heap b).mData.length) :
    Ends (putHeader b packetType rtpTime) s (fun _ t => t = s.headed b packetType rtpTime)
      (fun _ _ => False) := by
  unfold putHeader
  refine .get_bind (.modify_bind (.bind (put_ends ?_) ?_))
  · rw [State.heap_update_self]
    exact hfits
  · rintro _ _ rfl
    refine .modify ?_
    rw [State.headed, State.update, State.update, State.update, Function.update_idem]
    simp

theorem length_rtpHeader (packetType : UInt8) (mRTPSeqNo rtpTime : ℤ) :
    (rtpHeader packetType mRTPSeqNo rtpTime).length = 12 := rfl

/-- The bytes of a buffer that has got its header. -/
theorem State.mData_headed (s : State) (b : ℕ) (packetType : UInt8) (rtpTime : ℤ) :
    ((s.headed b packetType rtpTime).heap b).mData =
      blit (s.heap b).mData 0 (rtpHeader packetType s.mRTPSeqNo rtpTime) := by
  change (Function.update s.heap b _ b).mData = _
  rw [Function.update_self]

theorem Owns.headed (h : Owns start connected owned s) (hb : b ∈ owned)
    (hfits : 12 ≤ (s.heap b).mData.length) (packetType : UInt8) (rtpTime : ℤ) :
    Owns start connected owned (s.headed b packetType rtpTime) :=
  (h.update hb (length_blit (by rw [length_rtpHeader]; exact hfits))).counted _ le_rfl

/-- Writing inside an owned buffer changes neither its length nor who holds it. -/
theorem Owns.written (h : Owns start connected owned s) (hb : b ∈ owned) {pos : ℕ} {bytes : List UInt8}
    (hfits : pos + bytes.length ≤ (s.heap b).mData.length) :
    Owns start connected owned (s.update b fun x => { x with mData := blit x.mData pos bytes }) :=
  h.update hb (length_blit hfits)

theorem Owns.ranged (h : Owns start connected owned s) (hb : b ∈ owned) (size : ℕ) :
    Owns start connected owned (s.update b fun x => { x with mRangeLength := size }) :=
  h.update hb rfl

/-! ## Taking and giving back -/

theorem newABuffer_ends (capacity : ℕ) :
    Ends (newABuffer capacity) s
      (fun b t => b = s.allocated ∧ t = { s with
        heap := Function.update s.heap s.allocated (.new capacity), allocated := s.allocated + 1 })
      (fun _ _ => False) :=
  .get_bind (.modify_bind (.pure ⟨rfl, rfl⟩))

theorem getABuffer_ends (h : Owns start connected owned s) :
    Ends (getABuffer world map) s
      (fun b t => Owns start connected (b :: owned) t ∧ b ∈ objects (t.abufs map))
      (fun _ _ => False) := by
  unfold getABuffer
  refine .get_bind ?_
  cases hfree : free? (s.abufs map) with
  | some b =>
      refine .modify_bind (.pure ⟨h.take hfree, ?_⟩)
      rw [State.objects_mark]
      exact (not_inUse_of_free? (h.holds.pools.nodup map) hfree).1
  | none =>
      refine .bind (newABuffer_ends map.capacity) ?_
      rintro _ _ ⟨rfl, rfl⟩
      refine .modify_bind (.pure ⟨h.pooled world map, ?_⟩)
      exact mem_objects_pooled.mpr (Or.inl ⟨rfl, rfl⟩)

theorem recycleABuffer_ends (h : Owns start connected (b :: owned) s) :
    Ends (recycleABuffer b) s (fun _ t => Owns start connected owned t) (fun _ _ => False) :=
  .modify h.recycle

theorem recycleAll_ends {buffers : List ℕ} (h : Owns start connected (buffers ++ owned) s) :
    Ends (recycleAll buffers) s (fun _ t => Owns start connected owned t) (fun _ _ => False) := by
  induction buffers generalizing s with
  | nil => exact .pure h
  | cons b buffers ih => exact .bind (recycleABuffer_ends h) fun _ _ ht => ih ht

/-! ## Sending -/

/-- The network session answers the requests from `start` up to `stop`, if only with an error. -/
def Answers (world : World) (start stop : ℕ) : Prop :=
  ∀ k, start ≤ k → k < stop → Returns (world.sendRequest k)

/-- A packet that has been sent, and is recorded as stored, moves from its owner to the history. -/
theorem storePacket_ends (older : List SentPacket)
    (hholds : Holds connected (b :: owned ++ s.mHistory) s)
    (hsize : s.mHistorySize = s.mHistory.length) (hmax : s.mHistory.length ≤ MAX_HISTORY_SIZE)
    (hstored : s.stored = older ++ s.mHistory.map s.packet ++ [s.packet b])
    (holder : s.mHistory.length < MAX_HISTORY_SIZE → older = []) (hsince : start ≤ s.requests) :
    Ends (storePacket b) s (fun _ t => Owns start connected owned t) (fun _ _ => False) := by
  unfold storePacket makeRoom
  by_cases hfull : s.mHistorySize = MAX_HISTORY_SIZE
  · obtain ⟨first, rest, hhistory⟩ : ∃ first rest, s.mHistory = first :: rest := by
      cases hhistory : s.mHistory with
      | nil =>
          rw [hsize, hhistory] at hfull
          cases hfull
      | cons first rest => exact ⟨first, rest, rfl⟩
    rw [hhistory] at hholds hsize hmax hstored
    have hfirst : Holds connected (first :: (b :: owned ++ rest)) { s with mHistory := rest } :=
      (hholds.perm List.perm_middle).congr rfl rfl rfl rfl
    have hrecycled := hfirst.recycle
    obtain ⟨abufs, hrecycle⟩ := State.recycle_eq { s with mHistory := rest } first
    obtain ⟨hnot, -⟩ := List.nodup_cons.mp hfirst.nodup
    refine .bind (Q := fun _ t => t = State.recycle { s with mHistory := rest } first) ?_ ?_
    · refine .get_bind ?_
      rw [if_pos hfull, hhistory]
      exact .modify_bind (.modify rfl)
    rintro _ _ rfl
    refine .modify ?_
    rw [hrecycle] at hrecycled ⊢
    refine ⟨?_, ?_, hsince⟩
    · have hperm : (b :: owned ++ rest).Perm (owned ++ (rest ++ [b])) := by
        rw [← List.append_assoc]
        exact (List.perm_append_singleton b (owned ++ rest)).symm
      exact (hrecycled.perm hperm).congr rfl rfl rfl rfl
    · refine ⟨?_, ?_, older ++ [s.packet first], ?_, ?_⟩
      · change s.mHistorySize = (rest ++ [b]).length
        simpa using hsize
      · change (rest ++ [b]).length ≤ MAX_HISTORY_SIZE
        simpa using hmax
      · change s.stored =
          older ++ [s.packet first] ++ (rest ++ [b]).map (s.update first .reset).packet
        have hsame :
            (rest ++ [b]).map (s.update first .reset).packet = (rest ++ [b]).map s.packet := by
          apply List.map_congr_left
          intro b' hb'
          refine Owns.packet_update (s := s) fun heq => hnot ?_
          rw [← heq]
          simp only [List.mem_append, List.mem_cons, List.not_mem_nil, or_false] at hb' ⊢
          tauto
        rw [hsame, hstored]
        simp
      · change (rest ++ [b]).length < MAX_HISTORY_SIZE → _
        intro hlt
        rw [List.length_append, List.length_singleton] at hlt
        rw [hsize, List.length_cons] at hfull
        omega
  · refine .bind (Q := fun _ t => t = { s with mHistorySize := s.mHistorySize + 1 }) ?_ ?_
    · refine .get_bind ?_
      rw [if_neg hfull]
      exact .modify rfl
    rintro _ _ rfl
    refine .modify ⟨?_, ?_, hsince⟩
    · have hperm : (b :: owned ++ s.mHistory).Perm (owned ++ (s.mHistory ++ [b])) := by
        rw [← List.append_assoc]
        exact (List.perm_append_singleton b (owned ++ s.mHistory)).symm
      exact (hholds.perm hperm).congr rfl rfl rfl rfl
    · have hlt : s.mHistory.length < MAX_HISTORY_SIZE := by omega
      refine ⟨?_, ?_, [], ?_, fun _ => rfl⟩
      · change s.mHistorySize + 1 = (s.mHistory ++ [b]).length
        simp [hsize]
      · change (s.mHistory ++ [b]).length ≤ MAX_HISTORY_SIZE
        rw [List.length_append]
        exact hlt
      · change s.stored = [] ++ (s.mHistory ++ [b]).map s.packet
        rw [hstored, holder hlt]
        simp

/-- A buffer that was sent and stored goes to the history; otherwise it stays with its owner. -/
theorem sendRTPPacket_ends {timeValid : Bool} {timeUs : ℤ} (h : Owns start connected (b :: owned) s) :
    Ends (sendRTPPacket world b true timeValid timeUs) s
      (fun err t => err = OK ∧ Owns start connected owned t ∨ err ≠ OK ∧ Owns start connected (b :: owned) t)
      (fun _ t => Owns start connected (b :: owned) t ∧ ¬ (connected = true ∧ Answers world start t.requests)) := by
  unfold sendRTPPacket
  refine .get_bind (.when_bind (Q := fun _ t => s = t) ?_ (fun _ => rfl) ?_)
  · intro hclosed
    refine .throw ⟨h, fun hopen => hclosed ?_⟩
    rw [h.holds.connected_eq]
    exact hopen.1
  · rintro _ rfl
    refine .modify_bind ?_
    cases hanswer : world.sendRequest s.requests with
    | error e =>
        refine .throw ⟨h.counted s.mRTPSeqNo (Nat.le_succ _), fun hopen => ?_⟩
        obtain ⟨err, herr⟩ := hopen.2 s.requests h.since (Nat.lt_succ_self _)
        rw [hanswer] at herr
        cases herr
    | ok err =>
        dsimp only
        refine .ite (fun herr => .pure (Or.inr ⟨herr, h.counted s.mRTPSeqNo (Nat.le_succ _)⟩))
          fun _ => .modify_bind ?_
        obtain ⟨older, hstored, holder⟩ := h.remembers.kept
        refine .when_bind (Q := fun _ t => Owns start connected owned t) (fun _ => ?_) (absurd rfl)
          fun t ht => .pure (Or.inl ⟨rfl, ht⟩)
        refine .mono (storePacket_ends older (h.holds.congr rfl rfl rfl rfl) h.remembers.size_eq
          h.remembers.size_le ?_ holder (Nat.le_succ_of_le h.since)) (fun _ _ ht => ht) (fun _ _ => False.elim)
        change _ = older ++ s.mHistory.map s.packet ++ [s.packet b]
        rw [← hstored, State.stored, State.stored, List.filter_append, List.map_append]
        rfl

/-- What is sent once more is not stored again. -/
theorem resend_ends (h : Owns start connected owned s) :
    Ends (sendRTPPacket world b false false (-1)) s (fun _ t => Owns start connected owned t)
      (fun _ t => Owns start connected owned t) := by
  unfold sendRTPPacket
  refine .get_bind (.when_bind (Q := fun _ t => s = t) (fun _ => .throw h) (fun _ => rfl) ?_)
  rintro _ rfl
  have hcounted := h.counted s.mRTPSeqNo (Nat.le_succ s.requests)
  refine .modify_bind ?_
  cases world.sendRequest s.requests with
  | error e => exact .throw hcounted
  | ok err =>
      dsimp only
      refine .ite (fun _ => .pure hcounted) fun _ => .modify_bind ?_
      refine .when_bind (Q := fun _ t => Owns start connected owned t) (fun h => nomatch h) (fun _ => ?_)
        fun _ ht => .pure ht
      refine ⟨h.holds.congr rfl rfl rfl rfl, h.remembers.congr rfl rfl ?_ fun _ _ => rfl,
        Nat.le_succ_of_le h.since⟩
      rw [State.stored, State.stored, List.filter_append, List.map_append]
      exact List.append_nil _

end MirrorCast.RTPSender.Queueing
