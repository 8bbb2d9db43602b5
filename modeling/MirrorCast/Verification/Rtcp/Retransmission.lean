import MirrorCast.Program.RtcpFeedback

/-! # What a NACK entry asks for and what the history answers -/

namespace MirrorCast.Rtcp

open Java RTPUtils RTPSender

/-! ## The bits of `blp` -/

/-- Bit `j` of `blp` asks for the packet of this number. -/
def asked (seqNo : ℤ) (j : ℕ) : ℤ := (seqNo + j + 1) % 2 ^ 16

theorem getLsbD_clear (blp : BitVec 16) (j k : ℕ) (hk : k < 16) :
    (blp &&& ~~~ (1#16 <<< j)).getLsbD k = (blp.getLsbD k && decide (j ≠ k)) := by
  by_cases hjk : j = k
  · subst hjk
    simp [hk]
  · have hbit : k < j ∨ k - j ≠ 0 := by omega
    simp [hk, hjk, hbit]

/-- The loop over the first `n` bits. -/
theorem clearBits_loop (seqNo bufferSeqNo : ℤ) (blp : BitVec 16) (n : ℕ) :
    let r := (List.range n).foldl (fun (r : BitVec 16 × Bool) j =>
      if r.1.getLsbD j ∧ bufferSeqNo = (seqNo + j + 1) % 2 ^ 16 then
        (r.1 &&& ~~~ (1#16 <<< j), true)
      else r) (blp, false)
    (∀ k < 16, r.1.getLsbD k =
      (blp.getLsbD k && ! decide (k < n ∧ bufferSeqNo = asked seqNo k))) ∧
    (r.2 = true ↔ ∃ k < n, k < 16 ∧ blp.getLsbD k = true ∧ bufferSeqNo = asked seqNo k) := by
  induction n with
  | zero => simp
  | succ n ih =>
      obtain ⟨hbits, hflag⟩ := ih
      dsimp only at hbits hflag ⊢
      rw [List.range_succ, List.foldl_append, List.foldl_cons, List.foldl_nil]
      generalize (List.range n).foldl _ _ = r at hbits hflag ⊢
      split
      · rename_i hcond
        obtain ⟨hbit, hseq⟩ := hcond
        have hn : n < 16 := by
          by_contra hge
          rw [BitVec.getLsbD_of_ge _ _ (by omega)] at hbit
          cases hbit
        have hset : blp.getLsbD n = true := by
          have hspec := hbits n hn
          rw [hbit] at hspec
          simpa using hspec.symm
        refine ⟨fun k hk => ?_, ?_⟩
        · rw [getLsbD_clear _ _ _ hk, hbits k hk]
          by_cases hkn : k = n
          · subst hkn
            simp [asked, hseq]
          · have hlt : (k < n + 1) ↔ k < n := by omega
            simp [hlt, Ne.symm hkn]
        · exact iff_of_true rfl ⟨n, Nat.lt_succ_self n, hn, hset, hseq⟩
      · rename_i hcond
        have hno : ∀ hn : n < 16, ¬ (blp.getLsbD n = true ∧ bufferSeqNo = asked seqNo n) := by
          rintro hn ⟨hbit, hseq⟩
          refine hcond ⟨?_, hseq⟩
          rw [hbits n hn, hbit]
          simp
        refine ⟨fun k hk => ?_, ?_⟩
        · rw [hbits k hk]
          by_cases hkn : k = n
          · subst hkn
            have hthis := hno hk
            cases hb : blp.getLsbD k with
            | false => simp
            | true =>
                have hne : ¬ bufferSeqNo = asked seqNo k := fun h => hthis ⟨hb, h⟩
                simp [hne]
          · have hlt : (k < n + 1) ↔ k < n := by omega
            simp [hlt]
        · rw [hflag]
          constructor
          · rintro ⟨k, hk, hrest⟩
            exact ⟨k, Nat.lt_succ_of_lt hk, hrest⟩
          · rintro ⟨k, hk, hk16, hbit, hseq⟩
            rcases Nat.lt_succ_iff_lt_or_eq.mp hk with hlt | rfl
            · exact ⟨k, hlt, hk16, hbit, hseq⟩
            · exact absurd ⟨hbit, hseq⟩ (hno hk16)

theorem seqNo_bounds (packet : SentPacket) : 0 ≤ packet.seqNo ∧ packet.seqNo < 2 ^ 16 := by
  unfold SentPacket.seqNo
  omega

/-- No bit asks for the number of the entry itself. -/
theorem asked_ne {packet : SentPacket} {seqNo : ℤ} (h : packet.seqNo = seqNo) {j : ℕ}
    (hj : j < 16) : packet.seqNo ≠ asked seqNo j := by
  have hbounds := seqNo_bounds packet
  unfold asked
  omega

/-- One packet of the history clears exactly the bits that ask for it. -/
theorem wanted_bits (seqNo : ℤ) (blp : BitVec 16) (packet : SentPacket) {j : ℕ} (hj : j < 16) :
    (wanted seqNo blp packet).1.getLsbD j =
      (blp.getLsbD j && ! decide (packet.seqNo = asked seqNo j)) := by
  unfold wanted
  split
  · rename_i hseq
    simp [asked_ne hseq hj]
  · split
    · have hbits := (clearBits_loop seqNo packet.seqNo blp 16).1 j hj
      rw [show (clearBits seqNo packet.seqNo blp).1.getLsbD j = _ from hbits]
      simp [hj]
    · rename_i hzero
      have hblp : blp = 0 := by simpa using hzero
      simp [hblp]

/-- A packet is sent again if the entry asks for it, by its own number or by a bit. -/
theorem wanted_retransmit (seqNo : ℤ) (blp : BitVec 16) (packet : SentPacket) :
    (wanted seqNo blp packet).2 = true ↔ packet.seqNo = seqNo ∨
      ∃ j < 16, blp.getLsbD j = true ∧ packet.seqNo = asked seqNo j := by
  unfold wanted
  split
  · rename_i hseq
    simp [hseq]
  · rename_i hseq
    split
    · have hflag := (clearBits_loop seqNo packet.seqNo blp 16).2
      rw [show (clearBits seqNo packet.seqNo blp).2 = true ↔ _ from hflag]
      simp only [hseq, false_or]
      constructor
      · rintro ⟨j, hj, -, hrest⟩
        exact ⟨j, hj, hrest⟩
      · rintro ⟨j, hj, hrest⟩
        exact ⟨j, hj, hj, hrest⟩
    · rename_i hzero
      have hblp : blp = 0 := by simpa using hzero
      simp [hblp, hseq]

theorem blp_eq_zero {blp : BitVec 16} : blp = 0 ↔ ∀ j < 16, blp.getLsbD j = false := by
  constructor
  · rintro rfl j _
    simp
  · intro h
    apply BitVec.eq_of_getLsbD_eq
    intro j hj
    rw [h j hj]
    simp

/-! ## The answer of the history -/

/-- The packets that `resend` sends and the `foundSeqNo` and `blp` it ends with, when every
packet is taken. -/
def answer (seqNo : ℤ) : List SentPacket → Bool → BitVec 16 → List SentPacket × Bool × BitVec 16
  | [], foundSeqNo, blp => ([], foundSeqNo, blp)
  | packet :: packets, foundSeqNo, blp =>
      let (blp, retransmit) := wanted seqNo blp packet
      if retransmit then
        let foundSeqNo := foundSeqNo || packet.seqNo == seqNo
        let rest :=
          if foundSeqNo ∧ blp = 0 then ([], foundSeqNo, blp)
          else answer seqNo packets foundSeqNo blp
        (packet :: rest.1, rest.2)
      else answer seqNo packets foundSeqNo blp

/-- The history holds every packet an entry asks for. -/
def Available (history : List SentPacket) (seqNo : ℤ) (blp : BitVec 16) : Prop :=
  (∃ packet ∈ history, packet.seqNo = seqNo) ∧
    ∀ j < 16, blp.getLsbD j = true → ∃ packet ∈ history, packet.seqNo = asked seqNo j

/-- What is left to find in `packets` after an earlier part of the history. -/
def Completes (packets : List SentPacket) (seqNo : ℤ) (foundSeqNo : Bool) (blp : BitVec 16) : Prop :=
  (foundSeqNo = true ∨ ∃ packet ∈ packets, packet.seqNo = seqNo) ∧
    ∀ j < 16, blp.getLsbD j = true → ∃ packet ∈ packets, packet.seqNo = asked seqNo j

theorem completes_cons (packet : SentPacket) (packets : List SentPacket) (seqNo : ℤ)
    (foundSeqNo : Bool) (blp : BitVec 16) :
    Completes (packet :: packets) seqNo foundSeqNo blp ↔
      Completes packets seqNo (foundSeqNo || packet.seqNo == seqNo) (wanted seqNo blp packet).1 := by
  have hbits := fun j (hj : j < 16) => wanted_bits seqNo blp packet hj
  unfold Completes
  constructor
  · rintro ⟨hfound, hall⟩
    refine ⟨?_, fun j hj hbit => ?_⟩
    · rcases hfound with hfound | ⟨p, hp, hseq⟩
      · exact Or.inl (by simp [hfound])
      · rcases List.mem_cons.mp hp with rfl | hp
        · exact Or.inl (by simp [hseq])
        · exact Or.inr ⟨p, hp, hseq⟩
    · rw [hbits j hj, Bool.and_eq_true] at hbit
      obtain ⟨p, hp, hseq⟩ := hall j hj hbit.1
      rcases List.mem_cons.mp hp with rfl | hp
      · simp [hseq] at hbit
      · exact ⟨p, hp, hseq⟩
  · rintro ⟨hfound, hall⟩
    refine ⟨?_, fun j hj hbit => ?_⟩
    · rcases hfound with hfound | ⟨p, hp, hseq⟩
      · rcases (Bool.or_eq_true _ _).mp hfound with hfound | hseq
        · exact Or.inl hfound
        · exact Or.inr ⟨packet, by simp, by simpa using hseq⟩
      · exact Or.inr ⟨p, by simp [hp], hseq⟩
    · by_cases hseq : packet.seqNo = asked seqNo j
      · exact ⟨packet, by simp, hseq⟩
      · obtain ⟨p, hp, hp'⟩ := hall j hj (by rw [hbits j hj, hbit]; simp [hseq])
        exact ⟨p, by simp [hp], hp'⟩

theorem completes_of_done (packets : List SentPacket) {seqNo : ℤ} {foundSeqNo : Bool}
    {blp : BitVec 16} (h : foundSeqNo = true ∧ blp = 0) :
    Completes packets seqNo foundSeqNo blp := by
  refine ⟨Or.inl h.1, fun j hj hbit => ?_⟩
  rw [blp_eq_zero.mp h.2 j hj] at hbit
  cases hbit

/-- The loop ends with everything found exactly if the packets hold what is left to find. -/
theorem answer_complete (seqNo : ℤ) (packets : List SentPacket) (foundSeqNo : Bool)
    (blp : BitVec 16) :
    ((answer seqNo packets foundSeqNo blp).2.1 = true ∧
      (answer seqNo packets foundSeqNo blp).2.2 = 0) ↔ Completes packets seqNo foundSeqNo blp := by
  induction packets generalizing foundSeqNo blp with
  | nil =>
      rw [answer]
      constructor
      · exact completes_of_done []
      · rintro ⟨hfound, hall⟩
        refine ⟨by simpa using hfound, blp_eq_zero.mpr fun j hj => ?_⟩
        by_contra hbit
        obtain ⟨p, hp, -⟩ := hall j hj (by simpa using hbit)
        cases hp
  | cons packet packets ih =>
      rw [completes_cons, answer]
      dsimp only
      split
      · split
        · rename_i hdone
          exact iff_of_true hdone (completes_of_done packets hdone)
        · exact ih _ _
      · rename_i hnot
        have hseq : (packet.seqNo == seqNo) = false := by
          by_contra hyes
          exact hnot ((wanted_retransmit seqNo blp packet).mpr (Or.inl (by simpa using hyes)))
        rw [hseq, Bool.or_false]
        exact ih _ _

theorem answer_available (history : List SentPacket) (seqNo : ℤ) (blp : BitVec 16) :
    ((answer seqNo history false blp).2.1 = true ∧ (answer seqNo history false blp).2.2 = 0) ↔
      Available history seqNo blp := by
  rw [answer_complete, Completes, Available]
  simp

end MirrorCast.Rtcp
