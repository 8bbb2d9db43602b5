import MirrorCast.Program.RTPReceiver
import MirrorCast.Verification.Rtcp.Safety

/-! # What a NACK makes the sender send again -/

namespace MirrorCast.Rtcp

open Java RTPUtils RTPSender Audit

/-! ## One entry -/

/-- The entry asks for the packet, by its own number or by a bit. -/
def Asks (seqNo : ℤ) (blp : BitVec 16) (packet : SentPacket) : Prop :=
  packet.seqNo = seqNo ∨ ∃ j < 16, blp.getLsbD j = true ∧ packet.seqNo = asked seqNo j

instance (seqNo : ℤ) (blp : BitVec 16) : DecidablePred (Asks seqNo blp) := fun _ =>
  inferInstanceAs (Decidable (_ ∨ _))

/-- What one packet clears of `blp` is not asked of another one. -/
theorem asks_wanted {seqNo : ℤ} {blp : BitVec 16} {packet other : SentPacket}
    (hne : other.seqNo ≠ packet.seqNo) :
    Asks seqNo (wanted seqNo blp packet).1 other ↔ Asks seqNo blp other := by
  refine or_congr Iff.rfl (exists_congr fun j => and_congr_right fun hj => ?_)
  rw [wanted_bits seqNo blp packet hj]
  constructor
  · rintro ⟨hbit, hasked⟩
    exact ⟨((Bool.and_eq_true _ _).mp hbit).1, hasked⟩
  · rintro ⟨hbit, hasked⟩
    have hother : packet.seqNo ≠ asked seqNo j := fun h => hne (hasked.trans h.symm)
    exact ⟨by simp [hbit, hother], hasked⟩

theorem not_asks_of_done {seqNo : ℤ} {packet : SentPacket} (hne : packet.seqNo ≠ seqNo) :
    ¬ Asks seqNo 0 packet := by
  rintro (h | ⟨j, hj, hbit, -⟩)
  · exact hne h
  · rw [blp_eq_zero.mp rfl j hj] at hbit
    cases hbit

/-- With different numbers in the history the early exit skips nothing, and clearing bits loses
nothing. -/
theorem answer_eq_filter {seqNo : ℤ} {packets : List SentPacket} {found : Bool} {blp : BitVec 16}
    (hdistinct : (packets.map SentPacket.seqNo).Nodup)
    (hfound : found = true → ∀ packet ∈ packets, packet.seqNo ≠ seqNo) :
    (answer seqNo packets found blp).1 = packets.filter (Asks seqNo blp ·) := by
  induction packets generalizing found blp with
  | nil => rfl
  | cons packet packets ih =>
      rw [List.map_cons, List.nodup_cons] at hdistinct
      obtain ⟨hnew, hdistinct⟩ := hdistinct
      have hother : ∀ other ∈ packets, other.seqNo ≠ packet.seqNo := fun other hmem heq =>
        hnew (heq ▸ List.mem_map_of_mem hmem)
      have hrest : packets.filter (Asks seqNo (wanted seqNo blp packet).1 ·) =
          packets.filter (Asks seqNo blp ·) :=
        List.filter_congr fun other hmem =>
          decide_eq_decide.mpr (asks_wanted (hother other hmem))
      have hfound' : (found || packet.seqNo == seqNo) = true →
          ∀ other ∈ packets, other.seqNo ≠ seqNo := by
        intro h other hmem
        rcases (Bool.or_eq_true _ _).mp h with h | h
        · exact hfound h other (List.mem_cons_of_mem _ hmem)
        · exact (beq_iff_eq.mp h) ▸ hother other hmem
      have hasks : Asks seqNo blp packet ↔ (wanted seqNo blp packet).2 = true :=
        (wanted_retransmit seqNo blp packet).symm
      rw [answer]
      dsimp only
      by_cases hretransmit : (wanted seqNo blp packet).2 = true
      · rw [if_pos hretransmit, List.filter_cons,
          if_pos (decide_eq_true (hasks.mpr hretransmit)), ← hrest]
        refine congrArg (List.cons packet) ?_
        split
        · rename_i hdone
          rw [hdone.2]
          exact (List.filter_eq_nil_iff.mpr fun other hmem h =>
            not_asks_of_done (hfound' hdone.1 other hmem) (of_decide_eq_true h)).symm
        · exact ih hdistinct hfound'
      · rw [if_neg hretransmit, List.filter_cons,
          if_neg (by simpa using hasks.not.mpr hretransmit), ← hrest]
        exact ih hdistinct fun h => hfound' (by rw [h, Bool.true_or])

/-! ## Outcomes -/

section

variable {sender : Sender} {s : Feedback}

theorem outcome_sendRTPPacket (packet : SentPacket) (h : Takes sender s.resent.length) :
    outcome (sendRTPPacket sender packet) s =
      (.ok OK, { s with resent := s.resent ++ [packet] }) :=
  (clean_sendRTPPacket.mpr ⟨h, rfl, rfl⟩).1.2

theorem outcome_sendRTPPacket_of_not (packet : SentPacket) (h : ¬ Takes sender s.resent.length) :
    ∃ r, r ≠ .ok OK ∧ outcome (sendRTPPacket sender packet) s = (r, s) := by
  unfold sendRTPPacket
  by_cases hconnected : sender.mRTPConnected = true
  · rw [if_pos hconnected, outcome_bind_of_ok outcome_get]
    split
    · exact ⟨.error _, nofun, outcome_fail _⟩
    · rename_i err hanswer
      by_cases herr : err = OK
      · exact absurd ⟨hconnected, herr ▸ hanswer⟩ h
      · rw [if_neg herr]
        exact ⟨_, fun heq => herr (Except.ok.inj heq), outcome_pure _⟩
  · rw [if_neg hconnected]
    exact ⟨.error _, nofun, outcome_fail _⟩

/-- A packet that the session does not take ends the loop. -/
theorem outcome_resend_of_not {seqNo : ℤ} {packets : List SentPacket} {found : Bool}
    {blp : BitVec 16}
    (h : ¬ TakesNext sender s.resent.length (answer seqNo packets found blp).1.length) :
    ∃ e t, outcome (resend sender seqNo packets found blp) s = (.error e, t) ∧
      t.resent.length < s.resent.length + (answer seqNo packets found blp).1.length := by
  induction packets generalizing found blp s with
  | nil => exact absurd (takesNext_zero _ _) h
  | cons packet packets ih =>
      rw [answer] at h ⊢
      rw [resend]
      dsimp only at h ⊢
      by_cases hretransmit : (wanted seqNo blp packet).2 = true
      · rw [if_pos hretransmit] at h ⊢
        rw [if_pos hretransmit]
        by_cases htakes : Takes sender s.resent.length
        · rw [outcome_bind_of_ok (outcome_sendRTPPacket packet htakes), if_pos rfl]
          rw [List.length_cons, Nat.add_comm, takesNext_add, takesNext_one] at h
          split
          · rename_i hdone
            rw [if_pos hdone] at h
            exact absurd ⟨htakes, takesNext_zero _ _⟩ h
          · rename_i hdone
            rw [if_neg hdone] at h
            have hrest := ih (s := { s with resent := s.resent ++ [packet] })
              (by rw [List.length_append]; exact fun hnext => h ⟨htakes, hnext⟩)
            obtain ⟨e, t, houtcome, hlength⟩ := hrest
            refine ⟨e, t, houtcome, ?_⟩
            rw [List.length_append, List.length_singleton] at hlength
            rw [List.length_cons]
            omega
        · obtain ⟨r, hr, hsend⟩ := outcome_sendRTPPacket_of_not packet htakes
          rw [List.length_cons]
          cases r with
          | error e => exact ⟨e, s, outcome_bind_of_error hsend _, by omega⟩
          | ok err =>
              refine ⟨.runtime, s, ?_, by omega⟩
              rw [outcome_bind_of_ok hsend, if_neg fun heq => hr (congrArg _ heq)]
              rfl
      · rw [if_neg hretransmit] at h ⊢
        rw [if_neg hretransmit]
        exact ih h

theorem outcome_readBytes {data : List UInt8} {i n : ℕ} (h : i + n ≤ data.length) :
    outcome (readBytes data i n) s = (.ok (), s) := by
  unfold readBytes
  rw [if_neg (by omega), outcome_log]

variable {data : List UInt8} {i : ℕ}

/-- The entry without its local variables. -/
theorem handleEntry_eq : handleEntry sender data i = (do
    readBytes data i 2
    readBytes data (i + 2) 2
    let r ← resend sender (U16_AT data i) sender.mHistory false (blpAt data i)
    if r.1 = true ∧ r.2 = 0 then return ()
    else Audit.fail .illegalArgument) := rfl

theorem outcome_handleEntry (hi : i + 4 ≤ data.length)
    (h : TakesNext sender s.resent.length (answerAt sender.mHistory data i).length) :
    ∃ r, outcome (handleEntry sender data i) s =
        (r, { s with resent := s.resent ++ answerAt sender.mHistory data i }) ∧
      (r = .ok () ↔ AvailableAt sender.mHistory data i) := by
  have hresend := (clean_resend (s := s).mpr ⟨h, rfl, rfl⟩).2
  rw [handleEntry_eq, outcome_bind_of_ok (outcome_readBytes (by omega)),
    outcome_bind_of_ok (outcome_readBytes (by omega)), outcome_bind_of_ok hresend, AvailableAt,
    ← answer_available]
  split
  · rename_i hdone
    exact ⟨.ok (), outcome_pure _, iff_of_true rfl hdone⟩
  · rename_i hdone
    exact ⟨.error _, outcome_fail _, iff_of_false (by simp) hdone⟩

theorem outcome_handleEntry_of_not (hi : i + 4 ≤ data.length)
    (h : ¬ TakesNext sender s.resent.length (answerAt sender.mHistory data i).length) :
    ∃ e t, outcome (handleEntry sender data i) s = (.error e, t) ∧
      t.resent.length < s.resent.length + (answerAt sender.mHistory data i).length := by
  obtain ⟨e, t, hresend, hlength⟩ := outcome_resend_of_not h
  refine ⟨e, t, ?_, hlength⟩
  rw [handleEntry_eq, outcome_bind_of_ok (outcome_readBytes (by omega)),
    outcome_bind_of_ok (outcome_readBytes (by omega))]
  exact outcome_bind_of_error hresend _

end

/-! ## Entries -/

/-- The packets that the entry at position `i` asks for, its number taken as it is meant. -/
def requestedAt (history : List SentPacket) (data : List UInt8) (i : ℕ) : List SentPacket :=
  history.filter (Asks (unsignedAt data i 2) (blpAt data i) ·)

/-- The packet has the entry's own number, but that is negative as a `short`. -/
def Overlooks (data : List UInt8) (i : ℕ) (packet : SentPacket) : Prop :=
  2 ^ 15 ≤ unsignedAt data i 2 ∧ packet.seqNo = unsignedAt data i 2

instance (data : List UInt8) (i : ℕ) : DecidablePred (Overlooks data i) := fun _ =>
  inferInstanceAs (Decidable (_ ∧ _))

section

variable {history : List SentPacket} {data : List UInt8} {i : ℕ}

theorem not_overlooks_of_availableAt (h : AvailableAt history data i) {packet : SentPacket} :
    ¬ Overlooks data i packet := by
  rintro ⟨hlarge, -⟩
  obtain ⟨found, -, hseq⟩ := h.1
  have hbounds := seqNo_bounds found
  have hlt := unsignedAt_lt data i 2
  rcases U16_AT_cases data i with ⟨hsmall, -⟩ | ⟨-, hneg⟩ <;> omega

/-- The bits ask for the same packets, whether the number is taken as signed or not. -/
theorem asks_iff {packet : SentPacket} : Asks (U16_AT data i) (blpAt data i) packet ↔
    Asks (unsignedAt data i 2) (blpAt data i) packet ∧ ¬ Overlooks data i packet := by
  have hbounds := seqNo_bounds packet
  have hlt := unsignedAt_lt data i 2
  rcases U16_AT_cases data i with ⟨hsmall, heq⟩ | ⟨hlarge, heq⟩
  · rw [heq]
    exact ⟨fun h => ⟨h, fun hlarge => absurd hlarge.1 (by omega)⟩, And.left⟩
  · have hasked : ∀ j, asked (U16_AT data i) j = asked (unsignedAt data i 2) j := by
      intro j
      unfold asked
      omega
    unfold Asks
    simp only [hasked]
    constructor
    · rintro (hseq | hbit)
      · omega
      · refine ⟨Or.inr hbit, fun hown => ?_⟩
        obtain ⟨j, hj, -, hseq⟩ := hbit
        exact asked_ne hown.2 hj hseq
    · rintro ⟨hseq | hbit, hown⟩
      · exact absurd ⟨hlarge, hseq⟩ hown
      · exact Or.inr hbit

theorem answerAt_eq_filter (hdistinct : (history.map SentPacket.seqNo).Nodup) :
    answerAt history data i =
      (requestedAt history data i).filter fun packet => ! decide (Overlooks data i packet) := by
  unfold answerAt requestedAt
  rw [answer_eq_filter hdistinct fun h => absurd h Bool.false_ne_true, List.filter_filter]
  refine List.filter_congr fun packet _ => ?_
  rw [Bool.eq_iff_iff, decide_eq_true_iff, asks_iff]
  simp [and_comm]

theorem answerAt_eq (hdistinct : (history.map SentPacket.seqNo).Nodup)
    (h : ∀ packet ∈ history, ¬ Overlooks data i packet) :
    answerAt history data i = requestedAt history data i := by
  rw [answerAt_eq_filter hdistinct]
  refine List.filter_eq_self.mpr fun packet hmem => ?_
  simpa using h packet (List.mem_of_mem_filter hmem)

theorem length_answerAt_lt (hdistinct : (history.map SentPacket.seqNo).Nodup)
    {packet : SentPacket} (hmem : packet ∈ history) (h : Overlooks data i packet) :
    (answerAt history data i).length < (requestedAt history data i).length := by
  rw [answerAt_eq_filter hdistinct, List.length_filter_lt_length_iff_exists]
  exact ⟨packet, List.mem_filter.mpr ⟨hmem, decide_eq_true (Or.inl h.2)⟩, by simpa using h⟩

end

/-- Each entry that the loop comes to, since the history had all that the ones before ask for, has
no number that is negative and in the history; and after one that asks for something that
the history does not have, nothing in the history is asked for. -/
def Settled (history : List SentPacket) (data : List UInt8) (is : List ℕ) : Prop :=
  ∀ before i after, is = before ++ i :: after → (∀ j ∈ before, AvailableAt history data j) →
    (∀ packet ∈ history, ¬ Overlooks data i packet) ∧
      (AvailableAt history data i ∨ ∀ j ∈ after, requestedAt history data j = [])

theorem settled_nil (history : List SentPacket) (data : List UInt8) : Settled history data [] := by
  intro before i after h
  simp at h

theorem settled_cons {history : List SentPacket} {data : List UInt8} {i : ℕ} {is : List ℕ} :
    Settled history data (i :: is) ↔ (∀ packet ∈ history, ¬ Overlooks data i packet) ∧
      (AvailableAt history data i ∨ ∀ j ∈ is, requestedAt history data j = []) ∧
      (AvailableAt history data i → Settled history data is) := by
  constructor
  · intro h
    obtain ⟨hown, hrest⟩ := h [] i is rfl nofun
    refine ⟨hown, hrest, fun havailable before j after heq hbefore => ?_⟩
    refine h (i :: before) j after (by rw [heq, List.cons_append]) ?_
    exact List.forall_mem_cons.mpr ⟨havailable, hbefore⟩
  · rintro ⟨hown, hrest, hsettled⟩ before j after heq hbefore
    cases before with
    | nil =>
        cases heq
        exact ⟨hown, hrest⟩
    | cons _ before =>
        cases heq
        obtain ⟨havailable, hbefore⟩ := List.forall_mem_cons.mp hbefore
        exact hsettled havailable before j after rfl hbefore

section

variable {sender : Sender} {s : Feedback} {data : List UInt8} {i : ℕ}

/-- An entry that fails ends the loop, with what is sent again up to there. -/
theorem outcome_handleEntries_of_error {is : List ℕ} {e : JavaException} {t : Feedback}
    (h : outcome (handleEntry sender data i) s = (.error e, t)) :
    outcome (handleEntries sender data (i :: is)) s = (.error e, t) :=
  outcome_bind_of_error h _

theorem handleEntries_exact_iff {is : List ℕ} (hin : ∀ i ∈ is, i + 4 ≤ data.length)
    (hdistinct : (sender.mHistory.map SentPacket.seqNo).Nodup) :
    (outcome (handleEntries sender data is) s).2.resent =
        s.resent ++ is.flatMap (requestedAt sender.mHistory data) ↔
      TakesNext sender s.resent.length (is.flatMap (requestedAt sender.mHistory data)).length ∧
        Settled sender.mHistory data is := by
  induction is generalizing s with
  | nil =>
      rw [List.flatMap_nil, List.append_nil]
      exact iff_of_true rfl ⟨takesNext_zero _ _, settled_nil _ _⟩
  | cons i is ih =>
      have hi := hin i List.mem_cons_self
      rw [List.flatMap_cons, List.length_append, takesNext_add, settled_cons]
      -- whatever ends the loop early leaves fewer packets than were asked for
      have hshort : ∀ {e t}, outcome (handleEntry sender data i) s = (.error e, t) →
          t.resent.length < s.resent.length + (requestedAt sender.mHistory data i).length →
          (outcome (handleEntries sender data (i :: is)) s).2.resent ≠
            s.resent ++ (requestedAt sender.mHistory data i ++
              is.flatMap (requestedAt sender.mHistory data)) := by
        intro e t herror hlength heq
        rw [outcome_handleEntries_of_error herror] at heq
        have hlengths := congrArg List.length heq
        simp only [List.length_append] at hlengths
        omega
      by_cases hown : ∀ packet ∈ sender.mHistory, ¬ Overlooks data i packet
      swap
      · refine iff_of_false ?_ fun h => hown h.2.1
        push Not at hown
        obtain ⟨packet, hmem, hoverlooks⟩ := hown
        have hlt := length_answerAt_lt hdistinct hmem hoverlooks
        by_cases htakes :
            TakesNext sender s.resent.length (answerAt sender.mHistory data i).length
        · obtain ⟨r, hentry, hreturns⟩ := outcome_handleEntry hi htakes
          cases r with
          | error e =>
              refine hshort hentry ?_
              rw [List.length_append]
              omega
          | ok _ =>
              exact absurd hoverlooks (not_overlooks_of_availableAt (hreturns.mp rfl))
        · obtain ⟨e, t, hentry, hlength⟩ := outcome_handleEntry_of_not hi htakes
          exact hshort hentry (by omega)
      rw [← answerAt_eq hdistinct hown] at hshort ⊢
      by_cases htakes : TakesNext sender s.resent.length (answerAt sender.mHistory data i).length
      swap
      · obtain ⟨e, t, hentry, hlength⟩ := outcome_handleEntry_of_not hi htakes
        exact iff_of_false (hshort hentry hlength) fun h => htakes h.1.1
      obtain ⟨r, hentry, hreturns⟩ := outcome_handleEntry hi htakes
      cases r with
      | error e =>
          have hnot : ¬ AvailableAt sender.mHistory data i := fun h => nomatch hreturns.mpr h
          rw [outcome_handleEntries_of_error hentry, ← List.append_assoc, List.self_eq_append_right,
            List.flatMap_eq_nil_iff]
          constructor
          · intro hnil
            rw [List.flatMap_eq_nil_iff.mpr hnil]
            exact ⟨⟨htakes, takesNext_zero _ _⟩, hown, Or.inr hnil, fun h => absurd h hnot⟩
          · exact fun h => h.2.2.1.resolve_left hnot
      | ok _ =>
          have havailable := hreturns.mp rfl
          have hrest := ih (s := { s with
            resent := s.resent ++ answerAt sender.mHistory data i })
            fun j hj => hin j (List.mem_cons_of_mem _ hj)
          rw [handleEntries, outcome_bind_of_ok hentry, ← List.append_assoc, hrest,
            List.length_append]
          constructor
          · rintro ⟨hnext, hsettled⟩
            exact ⟨⟨htakes, hnext⟩, hown, Or.inl havailable, fun _ => hsettled⟩
          · rintro ⟨⟨-, hnext⟩, -, -, hsettled⟩
            exact ⟨hnext, hsettled havailable⟩

/-- A NACK for this source makes the sender send again exactly what its entries ask for, if and
only if the session takes all of that, no entry that the loop comes to has a number from
0x8000 on that is in the history, and the first entry that asks for something that is not in the
history is the last one that asks for something that is. -/
theorem parseTSFB_exact_iff {n : ℕ} (hlength : 12 + 4 * n ≤ data.length)
    (hnack : data.getD 0 0 &&& 0x1f = 1) (hsource : U32_AT data 8 = SOURCE_ID)
    (hdistinct : (sender.mHistory.map SentPacket.seqNo).Nodup) :
    (outcome (parseTSFB sender data (12 + 4 * n)) s).2.resent =
        s.resent ++ (entries (12 + 4 * n)).flatMap (requestedAt sender.mHistory data) ↔
      TakesNext sender s.resent.length
          ((entries (12 + 4 * n)).flatMap (requestedAt sender.mHistory data)).length ∧
        Settled sender.mHistory data (entries (12 + 4 * n)) := by
  have hin : ∀ i ∈ entries (12 + 4 * n), i + 4 ≤ data.length := by
    intro i hi
    obtain ⟨j, hj, rfl⟩ := List.mem_map.mp hi
    rw [List.mem_range] at hj
    omega
  have hread : outcome (readByte data 0) s = (.ok (data.getD 0 0), s) :=
    outcome_bind_of_ok (outcome_readBytes (by omega)) _
  rw [← handleEntries_exact_iff hin hdistinct, parseTSFB, outcome_bind_of_ok hread,
    if_neg (not_not.mpr hnack), outcome_bind_of_ok (outcome_readBytes (by omega)),
    if_neg (not_not.mpr hsource)]
  rcases hentries : outcome (handleEntries sender data (entries (12 + 4 * n))) s with ⟨e | _, t⟩
  · rw [outcome_bind_of_error hentries]
  · rw [outcome_bind_of_ok hentries, outcome_pure]

end

/-! ## The requests of the receiver -/

theorem unsignedAt_requestRetransmission (senderSSRC extSeqNo : ℤ) :
    (unsignedAt (RTPReceiver.requestRetransmission senderSSRC extSeqNo) 12 2 : ℤ) =
      extSeqNo % 2 ^ 16 := by
  have hbytes : unsignedAt (RTPReceiver.requestRetransmission senderSSRC extSeqNo) 12 2 =
      (0 * 256 + (toByte (extSeqNo / 2 ^ 8)).toNat) * 256 + (toByte extSeqNo).toNat := rfl
  rw [hbytes, toNat_toByte, toNat_toByte]
  omega

theorem blpAt_requestRetransmission (senderSSRC extSeqNo : ℤ) :
    blpAt (RTPReceiver.requestRetransmission senderSSRC extSeqNo) 12 = 0 := rfl

theorem asks_zero {seqNo : ℤ} {packet : SentPacket} :
    Asks seqNo 0 packet ↔ packet.seqNo = seqNo := by
  constructor
  · intro h
    by_contra hne
    exact not_asks_of_done hne h
  · exact Or.inl

/-- The receiver gets what it asks for unless the number is one from 0x8000 on. -/
theorem requestRetransmission_exact_iff {sender : Sender} {s : Feedback} (senderSSRC extSeqNo : ℤ)
    (hdistinct : (sender.mHistory.map SentPacket.seqNo).Nodup) :
    (outcome (parseTSFB sender (RTPReceiver.requestRetransmission senderSSRC extSeqNo) 16)
        s).2.resent =
        s.resent ++ sender.mHistory.filter (fun packet => packet.seqNo = extSeqNo % 2 ^ 16) ↔
      TakesNext sender s.resent.length
          (sender.mHistory.filter fun packet => packet.seqNo = extSeqNo % 2 ^ 16).length ∧
        ∀ packet ∈ sender.mHistory, packet.seqNo = extSeqNo % 2 ^ 16 →
          extSeqNo % 2 ^ 16 < 2 ^ 15 := by
  have hrequested : requestedAt sender.mHistory
      (RTPReceiver.requestRetransmission senderSSRC extSeqNo) 12 =
        sender.mHistory.filter fun packet => packet.seqNo = extSeqNo % 2 ^ 16 := by
    unfold requestedAt
    rw [blpAt_requestRetransmission, unsignedAt_requestRetransmission]
    exact List.filter_congr fun packet _ => decide_eq_decide.mpr asks_zero
  have hoverlooks : ∀ packet : SentPacket,
      Overlooks (RTPReceiver.requestRetransmission senderSSRC extSeqNo) 12 packet ↔
        ¬ (packet.seqNo = extSeqNo % 2 ^ 16 → extSeqNo % 2 ^ 16 < 2 ^ 15) := by
    intro packet
    have hnumber := unsignedAt_requestRetransmission senderSSRC extSeqNo
    unfold Overlooks
    omega
  have hnack : (0x81 : UInt8) &&& 0x1f = 1 := by decide
  have hexact := @parseTSFB_exact_iff sender s
    (RTPReceiver.requestRetransmission senderSSRC extSeqNo) 1 (le_refl 16) hnack rfl hdistinct
  have hentries : entries (12 + 4 * 1) = [12] := rfl
  rw [hentries, List.flatMap_singleton, hrequested, settled_cons] at hexact
  refine hexact.trans (and_congr_right fun _ => ?_)
  simp only [hoverlooks, not_not]
  exact ⟨And.left, fun h => ⟨h, Or.inr nofun, fun _ => settled_nil _ _⟩⟩

/-! ## Runs -/

/-- A sender that has sent the packets with these numbers, with a session that takes everything. -/
def senderOf (mHistory : List SentPacket) : Sender := ⟨true, mHistory, fun _ => .ok OK⟩

theorem parseTSFB_exact_small :
    (outcome (parseTSFB (senderOf [⟨5, []⟩, ⟨6, []⟩, ⟨7, []⟩])
      (RTPReceiver.requestRetransmission 0 6) (12 + 4 * 1)) ⟨[], []⟩).2.resent = [⟨6, []⟩] := by
  refine (parseTSFB_exact_iff (n := 1) (by decide) (by decide) (by decide) (by decide)).mpr ?_
  refine ⟨fun _ _ => ⟨rfl, rfl⟩, settled_cons.mpr ⟨?_, Or.inr nofun, fun _ => settled_nil _ _⟩⟩
  decide

/-- The packet with number 0x8000 is in the history, but not sent again. -/
theorem parseTSFB_not_exact : ¬ ∀ (mHistory : List SentPacket) (data : List UInt8) (n : ℕ)
    (s : Feedback), mHistory.length ≤ 1024 → (mHistory.map SentPacket.seqNo).Nodup →
      data.length = 12 + 4 * n → data.getD 0 0 &&& 0x1f = 1 → U32_AT data 8 = SOURCE_ID →
        (outcome (parseTSFB (senderOf mHistory) data (12 + 4 * n)) s).2.resent =
          s.resent ++ (entries (12 + 4 * n)).flatMap (requestedAt mHistory data) := by
  intro h
  have hexact := h [⟨0x8000, []⟩] (RTPReceiver.requestRetransmission 0 0x8000) 1 ⟨[], []⟩
    (by decide) (by decide) rfl (by decide) (by decide)
  revert hexact
  decide

end MirrorCast.Rtcp
