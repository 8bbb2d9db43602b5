import MirrorCast.Verification.Rtcp.Retransmission

/-! # Safety of `onRTCPData` on any datagram -/

namespace MirrorCast.Rtcp

open Java RTPUtils RTPSender Audit

/-- The byte lies within the declared length of the packet that is handled. -/
def InPacket (a : Access) : Prop := a.offset < a.declared

/-! ## Reads -/

theorem clean_readBytes {data : List UInt8} {i n : ℕ} {s s' : Feedback} {u : Unit} (hn : 0 < n) :
    Clean InPacket (readBytes data i n) s u s' ↔
      i + n ≤ data.length ∧ i + n ≤ declaredLength data ∧ s = s' := by
  unfold readBytes
  split
  · rename_i hout
    constructor
    · exact fun h => absurd h clean_fail
    · exact fun h => absurd h.1 (by omega)
  · rename_i hin
    rw [clean_log]
    constructor
    · rintro ⟨hall, hs⟩
      have hlast : InPacket ⟨declaredLength data, i + (n - 1)⟩ :=
        hall _ (List.mem_map.mpr ⟨n - 1, List.mem_range.mpr (by omega), rfl⟩)
      have hlt : i + (n - 1) < declaredLength data := hlast
      exact ⟨by omega, by omega, hs⟩
    · rintro ⟨-, hle, hs⟩
      refine ⟨fun w hw => ?_, hs⟩
      obtain ⟨j, hj, rfl⟩ := List.mem_map.mp hw
      rw [List.mem_range] at hj
      change i + j < declaredLength data
      omega

theorem clean_readByte {data : List UInt8} {i : ℕ} {s s' : Feedback} {b : UInt8} :
    Clean InPacket (readByte data i) s b s' ↔
      i < data.length ∧ i < declaredLength data ∧ b = data.getD i 0 ∧ s = s' := by
  rw [readByte, clean_bind]
  constructor
  · rintro ⟨u, t, hread, hret⟩
    obtain ⟨hlen, hdecl, rfl⟩ := (clean_readBytes Nat.one_pos).mp hread
    obtain ⟨rfl, rfl⟩ := clean_pure.mp hret
    exact ⟨by omega, by omega, rfl, rfl⟩
  · rintro ⟨hlen, hdecl, rfl, rfl⟩
    exact ⟨(), s, (clean_readBytes Nat.one_pos).mpr ⟨by omega, by omega, rfl⟩, clean_pure.mpr ⟨rfl, rfl⟩⟩

theorem declaredLength_ge (data : List UInt8) : 4 ≤ declaredLength data := by
  unfold declaredLength
  omega

/-! ## Retransmission -/

/-- The sender is connected, and the network session takes packet `k`. -/
def Takes (sender : Sender) (k : ℕ) : Prop :=
  sender.mRTPConnected = true ∧ sender.sendRequest k = .ok OK

/-- The next `n` packets from number `k` on are taken. -/
def TakesNext (sender : Sender) (k n : ℕ) : Prop := ∀ j < n, Takes sender (k + j)

theorem takesNext_zero (sender : Sender) (k : ℕ) : TakesNext sender k 0 := by
  intro j hj
  cases hj

theorem takesNext_add (sender : Sender) (k m n : ℕ) :
    TakesNext sender k (m + n) ↔ TakesNext sender k m ∧ TakesNext sender (k + m) n := by
  constructor
  · intro h
    refine ⟨fun j hj => h j (by omega), fun j hj => ?_⟩
    rw [Nat.add_assoc]
    exact h (m + j) (by omega)
  · rintro ⟨hm, hn⟩ j hj
    by_cases hlt : j < m
    · exact hm j hlt
    · have hrest := hn (j - m) (by omega)
      rwa [Nat.add_assoc, Nat.add_sub_cancel' (by omega)] at hrest

theorem takesNext_one (sender : Sender) (k : ℕ) : TakesNext sender k 1 ↔ Takes sender k := by
  constructor
  · exact fun h => h 0 Nat.one_pos
  · intro h j hj
    obtain rfl : j = 0 := by omega
    exact h

theorem clean_sendRTPPacket {sender : Sender} {packet : SentPacket} {s s' : Feedback} {err : ℤ} :
    Clean InPacket (sendRTPPacket sender packet) s err s' ∧ err = OK ↔
      Takes sender s.resent.length ∧ err = OK ∧ s' = { s with resent := s.resent ++ [packet] } := by
  unfold sendRTPPacket Takes
  cases sender.mRTPConnected with
  | false => simp
  | true =>
      simp only [if_true, clean_bind, true_and]
      constructor
      · rintro ⟨⟨t, t', hget, hrest⟩, rfl⟩
        obtain ⟨rfl, rfl⟩ := clean_get.mp hget
        split at hrest
        · exact absurd hrest clean_fail
        · rename_i err' herr
          split at hrest
          · rename_i hok
            obtain ⟨u, t, hset, hret⟩ := clean_bind.mp hrest
            obtain rfl := clean_set.mp hset
            obtain ⟨-, rfl⟩ := clean_pure.mp hret
            exact ⟨by rw [herr, hok], rfl, rfl⟩
          · rename_i hne
            obtain ⟨hok, -⟩ := clean_pure.mp hrest
            exact absurd hok hne
      · rintro ⟨herr, rfl, rfl⟩
        refine ⟨⟨s, s, clean_get.mpr ⟨rfl, rfl⟩, ?_⟩, rfl⟩
        rw [herr]
        simp only [if_true]
        exact clean_bind.mpr ⟨(), _, clean_set.mpr rfl, clean_pure.mpr ⟨rfl, rfl⟩⟩

/-- The session takes the packets of an answer one by one, and nothing else happens. -/
def Sends (sender : Sender) (s : Feedback) (a : List SentPacket × Bool × BitVec 16)
    (r : Bool × BitVec 16) (s' : Feedback) : Prop :=
  TakesNext sender s.resent.length a.1.length ∧ r = a.2 ∧
    s' = { s with resent := s.resent ++ a.1 }

theorem sends_nil {sender : Sender} {s s' : Feedback} {a r : Bool × BitVec 16} :
    Sends sender s ([], a) r s' ↔ a = r ∧ s = s' := by
  simp only [Sends, List.length_nil, List.append_nil]
  constructor
  · rintro ⟨-, rfl, rfl⟩
    exact ⟨rfl, rfl⟩
  · rintro ⟨rfl, rfl⟩
    exact ⟨takesNext_zero _ _, rfl, rfl⟩

theorem sends_cons {sender : Sender} {packet : SentPacket} {s s' : Feedback}
    {a : List SentPacket × Bool × BitVec 16} {r : Bool × BitVec 16} :
    Sends sender s (packet :: a.1, a.2) r s' ↔ Takes sender s.resent.length ∧
      Sends sender { s with resent := s.resent ++ [packet] } a r s' := by
  have hsplit := takesNext_add sender s.resent.length 1 a.1.length
  rw [takesNext_one, Nat.add_comm 1] at hsplit
  simp only [Sends, List.length_cons, List.length_append, List.length_nil, List.append_assoc,
    List.singleton_append, Nat.zero_add, hsplit, and_assoc]

/-- The loop over the history is clean exactly if the session takes what is sent again. -/
theorem clean_resend {sender : Sender} {seqNo : ℤ} {packets : List SentPacket} {found : Bool}
    {blp : BitVec 16} {s s' : Feedback} {r : Bool × BitVec 16} :
    Clean InPacket (resend sender seqNo packets found blp) s r s' ↔
      Sends sender s (answer seqNo packets found blp) r s' := by
  induction packets generalizing found blp s with
  | nil => rw [resend, answer, clean_pure, sends_nil]
  | cons packet packets ih =>
      rw [resend, answer]
      dsimp only
      split
      · rw [sends_cons, clean_bind]
        constructor
        · rintro ⟨err, t, hsend, hrest⟩
          split at hrest
          · rename_i hok
            obtain ⟨htakes, -, rfl⟩ := clean_sendRTPPacket.mp ⟨hsend, hok⟩
            refine ⟨htakes, ?_⟩
            split at hrest
            · rename_i hdone
              rw [if_pos hdone]
              exact sends_nil.mpr (clean_pure.mp hrest)
            · rename_i hdone
              rw [if_neg hdone]
              exact ih.mp hrest
          · exact absurd hrest clean_fail
        · rintro ⟨htakes, hrest⟩
          refine ⟨OK, _, (clean_sendRTPPacket.mpr ⟨htakes, rfl, rfl⟩).1, ?_⟩
          rw [if_pos rfl]
          split at hrest
          · rename_i hdone
            rw [if_pos hdone]
            exact clean_pure.mpr (sends_nil.mp hrest)
          · rename_i hdone
            rw [if_neg hdone]
            exact ih.mpr hrest
      · exact ih

/-! ## NACK entries -/

/-- `blp` of the entry at position `i`. -/
def blpAt (data : List UInt8) (i : ℕ) : BitVec 16 := BitVec.ofNat 16 (unsignedAt data (i + 2) 2)

/-- The packets the history answers the entry at position `i` with. -/
def answerAt (history : List SentPacket) (data : List UInt8) (i : ℕ) : List SentPacket :=
  (answer (U16_AT data i) history false (blpAt data i)).1

/-- The history holds what the entry at position `i` asks for. -/
def AvailableAt (history : List SentPacket) (data : List UInt8) (i : ℕ) : Prop :=
  Available history (U16_AT data i) (blpAt data i)

/-- What the entries of a NACK ask for is there and taken. -/
def Resends (sender : Sender) (s : Feedback) (packets : List SentPacket) (s' : Feedback) : Prop :=
  TakesNext sender s.resent.length packets.length ∧ s' = { s with resent := s.resent ++ packets }

theorem resends_nil {sender : Sender} {s s' : Feedback} : Resends sender s [] s' ↔ s' = s := by
  simp only [Resends, List.append_nil]
  exact ⟨And.right, fun h => ⟨takesNext_zero _ _, h⟩⟩

theorem resends_append {sender : Sender} {s s'' : Feedback} {xs ys : List SentPacket} :
    Resends sender s (xs ++ ys) s'' ↔
      Resends sender s xs { s with resent := s.resent ++ xs } ∧
        Resends sender { s with resent := s.resent ++ xs } ys s'' := by
  have hsplit := takesNext_add sender s.resent.length xs.length ys.length
  simp only [Resends, List.length_append, hsplit, List.append_assoc, and_assoc, and_true]

theorem clean_handleEntry {sender : Sender} {data : List UInt8} {i : ℕ} {s s' : Feedback} {u : Unit}
    (hfits : declaredLength data ≤ data.length) (hi : i + 4 ≤ declaredLength data) :
    Clean InPacket (handleEntry sender data i) s u s' ↔
      AvailableAt sender.mHistory data i ∧
        Resends sender s (answerAt sender.mHistory data i) s' := by
  have hread : ∀ (j : ℕ) (t t' : Feedback) (v : Unit), j + 2 ≤ declaredLength data →
      (Clean InPacket (readBytes data j 2) t v t' ↔ t = t') := by
    intro j t t' v hj
    rw [clean_readBytes (by omega)]
    exact ⟨fun h => h.2.2, fun h => ⟨by omega, hj, h⟩⟩
  rw [handleEntry, AvailableAt, ← answer_available]
  simp only [clean_bind, hread i _ _ _ (by omega), hread (i + 2) _ _ _ (by omega), clean_resend]
  constructor
  · rintro ⟨-, t, rfl, -, t', rfl, r, t'', ⟨htakes, rfl, rfl⟩, hrest⟩
    split at hrest
    · rename_i hdone
      obtain ⟨-, rfl⟩ := clean_pure.mp hrest
      exact ⟨hdone, htakes, rfl⟩
    · exact absurd hrest clean_fail
  · rintro ⟨hdone, htakes, rfl⟩
    refine ⟨(), s, rfl, (), s, rfl, _, _, ⟨htakes, rfl, rfl⟩, ?_⟩
    dsimp only [blpAt] at hdone ⊢
    rw [if_pos hdone]
    exact clean_pure.mpr ⟨rfl, rfl⟩

theorem clean_handleEntries {sender : Sender} {data : List UInt8} {is : List ℕ} {s s' : Feedback}
    {u : Unit} (hfits : declaredLength data ≤ data.length)
    (hin : ∀ i ∈ is, i + 4 ≤ declaredLength data) :
    Clean InPacket (handleEntries sender data is) s u s' ↔
      (∀ i ∈ is, AvailableAt sender.mHistory data i) ∧
        Resends sender s (is.flatMap (answerAt sender.mHistory data)) s' := by
  induction is generalizing s with
  | nil =>
      simp only [handleEntries, clean_pure, List.flatMap_nil, Resends, List.append_nil]
      constructor
      · rintro ⟨-, rfl⟩
        exact ⟨by simp, takesNext_zero _ _, rfl⟩
      · rintro ⟨-, -, rfl⟩
        exact ⟨trivial, rfl⟩
  | cons i is ih =>
      have hi := hin i (by simp)
      have hrest := ih (s := { s with resent := s.resent ++ answerAt sender.mHistory data i })
        (fun j hj => hin j (by simp [hj]))
      rw [handleEntries, clean_bind, List.flatMap_cons, resends_append, List.forall_mem_cons]
      constructor
      · rintro ⟨v, t, hentry, hentries⟩
        obtain ⟨havailable, htakes, rfl⟩ := (clean_handleEntry hfits hi).mp hentry
        obtain ⟨hall, hsends⟩ := hrest.mp hentries
        exact ⟨⟨havailable, hall⟩, ⟨htakes, rfl⟩, hsends⟩
      · rintro ⟨⟨havailable, hall⟩, hfirst, hsends⟩
        exact ⟨(), _, (clean_handleEntry hfits hi).mpr ⟨havailable, hfirst⟩, hrest.mpr ⟨hall, hsends⟩⟩

/-- The length of a packet is a multiple of four, so its entries are whole. -/
theorem entry_in_packet {data : List UInt8} {i : ℕ} (hi : i ∈ entries (declaredLength data)) :
    i + 4 ≤ declaredLength data := by
  obtain ⟨j, hj, rfl⟩ := List.mem_map.mp hi
  rw [List.mem_range] at hj
  unfold declaredLength at hj ⊢
  omega

/-! ## Packets -/

/-- A NACK, the only transport layer feedback that is handled. -/
def IsNack (data : List UInt8) : Prop := data.getD 1 0 = 205 ∧ data.getD 0 0 &&& 0x1f = 1

instance (data : List UInt8) : Decidable (IsNack data) := inferInstanceAs (Decidable (_ ∧ _))

/-- The packets sent again for one RTCP packet. -/
def demanded (history : List SentPacket) (data : List UInt8) : List SentPacket :=
  if IsNack data ∧ U32_AT data 8 = SOURCE_ID then
    (entries (declaredLength data)).flatMap (answerAt history data)
  else []

/-- A report is long enough for the byte that is read of it; a NACK is long enough for its
header, and the history holds everything that a NACK for this source asks for. -/
def BodyFits (history : List SentPacket) (data : List UInt8) : Prop :=
  (data.getD 1 0 = 200 ∨ data.getD 1 0 = 201 → 12 < declaredLength data) ∧
    (IsNack data → 12 ≤ declaredLength data ∧ (U32_AT data 8 = SOURCE_ID →
      ∀ i ∈ entries (declaredLength data), AvailableAt history data i))

theorem clean_parseTSFB {sender : Sender} {data : List UInt8} {s s' : Feedback}
    (hfits : declaredLength data ≤ data.length) (htype : data.getD 1 0 = 205) :
    (∃ err, Clean InPacket (parseTSFB sender data (declaredLength data)) s err s') ↔
      (IsNack data → 12 ≤ declaredLength data ∧ (U32_AT data 8 = SOURCE_ID →
        ∀ i ∈ entries (declaredLength data), AvailableAt sender.mHistory data i)) ∧
      Resends sender s (demanded sender.mHistory data) s' := by
  have hdecl := declaredLength_ge data
  have hread : ∀ (b : UInt8) (t : Feedback),
      Clean InPacket (readByte data 0) s b t ↔ b = data.getD 0 0 ∧ s = t := by
    intro b t
    rw [clean_readByte]
    exact ⟨fun h => h.2.2, fun h => ⟨by omega, by omega, h⟩⟩
  simp only [parseTSFB, clean_bind, hread]
  by_cases hnack : data.getD 0 0 &&& 0x1f = 1
  swap
  · have hother : ¬ IsNack data := fun h => hnack h.2
    have hdemand : demanded sender.mHistory data = [] := if_neg fun h => hother h.1
    rw [hdemand, resends_nil]
    constructor
    · rintro ⟨err, b, t, ⟨rfl, rfl⟩, hrest⟩
      rw [if_pos hnack] at hrest
      obtain ⟨-, rfl⟩ := clean_pure.mp hrest
      exact ⟨fun h => absurd h hother, rfl⟩
    · rintro ⟨-, rfl⟩
      refine ⟨ERROR_UNSUPPORTED, _, _, ⟨rfl, rfl⟩, ?_⟩
      rw [if_pos hnack]
      exact clean_pure.mpr ⟨rfl, rfl⟩
  have hisNack : IsNack data := ⟨htype, hnack⟩
  have hentries := fun (t : Feedback) (v : Unit) =>
    @clean_handleEntries sender data _ s t v hfits fun i hi => entry_in_packet hi
  by_cases hsource : U32_AT data 8 = SOURCE_ID
  · have hdemand : demanded sender.mHistory data =
        (entries (declaredLength data)).flatMap (answerAt sender.mHistory data) :=
      if_pos ⟨hisNack, hsource⟩
    rw [hdemand]
    constructor
    · rintro ⟨err, b, t, ⟨rfl, rfl⟩, hrest⟩
      rw [if_neg (not_not.mpr hnack)] at hrest
      obtain ⟨v, t, hssrc, hrest⟩ := clean_bind.mp hrest
      obtain ⟨-, hlong, rfl⟩ := (clean_readBytes (by decide)).mp hssrc
      rw [if_neg (not_not.mpr hsource)] at hrest
      obtain ⟨v', t, hall, hret⟩ := clean_bind.mp hrest
      obtain ⟨-, rfl⟩ := clean_pure.mp hret
      obtain ⟨havailable, hsends⟩ := (hentries t v').mp hall
      exact ⟨fun _ => ⟨hlong, fun _ => havailable⟩, hsends⟩
    · rintro ⟨hbody, hsends⟩
      obtain ⟨hlong, havailable⟩ := hbody hisNack
      refine ⟨OK, _, _, ⟨rfl, rfl⟩, ?_⟩
      rw [if_neg (not_not.mpr hnack)]
      refine clean_bind.mpr ⟨(), s, (clean_readBytes (by decide)).mpr ⟨by omega, hlong, rfl⟩, ?_⟩
      rw [if_neg (not_not.mpr hsource)]
      exact clean_bind.mpr ⟨(), s', (hentries s' ()).mpr ⟨havailable hsource, hsends⟩,
        clean_pure.mpr ⟨rfl, rfl⟩⟩
  · have hdemand : demanded sender.mHistory data = [] := if_neg fun h => hsource h.2
    rw [hdemand, resends_nil]
    constructor
    · rintro ⟨err, b, t, ⟨rfl, rfl⟩, hrest⟩
      rw [if_neg (not_not.mpr hnack)] at hrest
      obtain ⟨v, t, hssrc, hrest⟩ := clean_bind.mp hrest
      obtain ⟨-, hlong, rfl⟩ := (clean_readBytes (by decide)).mp hssrc
      rw [if_pos hsource] at hrest
      obtain ⟨-, rfl⟩ := clean_pure.mp hrest
      exact ⟨fun _ => ⟨hlong, fun h => absurd h hsource⟩, rfl⟩
    · rintro ⟨hbody, rfl⟩
      obtain ⟨hlong, -⟩ := hbody hisNack
      refine ⟨ERROR_MALFORMED, _, _, ⟨rfl, rfl⟩, ?_⟩
      rw [if_neg (not_not.mpr hnack)]
      refine clean_bind.mpr ⟨(), s', (clean_readBytes (by decide)).mpr ⟨by omega, hlong, rfl⟩, ?_⟩
      rw [if_pos hsource]
      exact clean_pure.mpr ⟨rfl, rfl⟩

theorem clean_matchesFrom {data : List UInt8} {i : ℕ} {cs : List UInt8} {s : Feedback}
    (hfits : declaredLength data ≤ data.length) (hin : i + cs.length ≤ declaredLength data) :
    ∃ b, Clean InPacket (matchesFrom data i cs) s b s := by
  induction cs generalizing i with
  | nil => exact ⟨true, clean_pure.mpr ⟨rfl, rfl⟩⟩
  | cons c cs ih =>
      rw [List.length_cons] at hin
      have hread : Clean InPacket (readByte data i) s (data.getD i 0) s :=
        clean_readByte.mpr ⟨by omega, by omega, rfl, rfl⟩
      by_cases hc : data.getD i 0 = c
      · obtain ⟨b, hb⟩ := ih (i := i + 1) (by omega)
        refine ⟨b, clean_bind.mpr ⟨_, _, hread, ?_⟩⟩
        rw [if_pos hc]
        exact hb
      · refine ⟨false, clean_bind.mpr ⟨_, _, hread, ?_⟩⟩
        rw [if_neg hc]
        exact clean_pure.mpr ⟨rfl, rfl⟩

theorem clean_discard {α : Type} {m : Handling α} {s s' : Feedback} {u : Unit} :
    Clean InPacket (do let _ ← m; return ()) s u s' ↔ ∃ a, Clean InPacket m s a s' := by
  rw [clean_bind]
  constructor
  · rintro ⟨a, t, hm, hret⟩
    obtain ⟨-, rfl⟩ := clean_pure.mp hret
    exact ⟨a, hm⟩
  · rintro ⟨a, hm⟩
    exact ⟨a, s', hm, clean_pure.mpr ⟨rfl, rfl⟩⟩

theorem resent_parseAPP {data : List UInt8} {size : ℕ} {s s' : Feedback} {err : ℤ}
    (h : Clean InPacket (parseAPP data size) s err s') : s'.resent = s.resent := by
  have hmatches : ∀ (cs : List UInt8) (i : ℕ) (t t' : Feedback) (b : Bool),
      Clean InPacket (matchesFrom data i cs) t b t' → t = t' := by
    intro cs
    induction cs with
    | nil => exact fun i t t' b h => (clean_pure.mp h).2
    | cons c cs ih =>
        intro i t t' b h
        obtain ⟨x, t'', hread, hrest⟩ := clean_bind.mp h
        obtain ⟨-, -, -, rfl⟩ := clean_readByte.mp hread
        split at hrest
        · exact ih (i + 1) t t' b hrest
        · exact (clean_pure.mp hrest).2
  unfold parseAPP at h
  split at h
  · obtain ⟨late, t₁, hlate, hafter⟩ := clean_bind.mp h
    have hsame := hmatches _ _ _ _ _ hlate
    split at hafter
    · obtain ⟨v, t₂, hfirst, hafter⟩ := clean_bind.mp hafter
      obtain ⟨v', t₃, hsecond, hafter⟩ := clean_bind.mp hafter
      obtain ⟨x, t₄, hget, hafter⟩ := clean_bind.mp hafter
      obtain ⟨w, t₅, hset, hret⟩ := clean_bind.mp hafter
      rw [← (clean_pure.mp hret).2, ← clean_set.mp hset, (clean_get.mp hget).1,
        ← ((clean_readBytes (by decide)).mp hsecond).2.2,
        ← ((clean_readBytes (by decide)).mp hfirst).2.2, ← hsame]
    · rw [hsame, (clean_pure.mp hafter).2]
  · rw [(clean_pure.mp h).2]

/-- `parseAPP` checks the length before it reads. -/
theorem safe_parseAPP {data : List UInt8} (s : Feedback)
    (hfits : declaredLength data ≤ data.length) :
    Safe InPacket (parseAPP data (declaredLength data)) s := by
  unfold parseAPP
  split
  · rename_i hlong
    obtain ⟨late, hlate⟩ := @clean_matchesFrom data 8 [108, 97, 116, 101] s hfits
      (by simp; omega)
    refine safe_bind.mpr ⟨late, s, hlate, ?_⟩
    have hread : ∀ i, i + 8 ≤ declaredLength data → Clean InPacket (readBytes data i 8) s () s :=
      fun i hi => (clean_readBytes (by decide)).mpr ⟨by omega, hi, rfl⟩
    cases late with
    | false => exact safe_pure OK
    | true =>
        refine safe_bind.mpr ⟨(), s, hread 12 (by omega), ?_⟩
        refine safe_bind.mpr ⟨(), s, hread 20 (by omega), ?_⟩
        refine safe_bind.mpr ⟨s, s, clean_get.mpr ⟨rfl, rfl⟩, ?_⟩
        exact safe_bind.mpr ⟨(), _, clean_set.mpr rfl, safe_pure OK⟩
  · exact safe_pure OK

theorem clean_parseReceiverReport {data : List UInt8} {s s' : Feedback}
    (hfits : declaredLength data ≤ data.length) :
    (∃ err, Clean InPacket (parseReceiverReport data) s err s') ↔
      12 < declaredLength data ∧ s' = s := by
  simp only [parseReceiverReport, clean_bind, clean_readByte, clean_pure]
  constructor
  · rintro ⟨err, b, t, ⟨-, hlt, -, rfl⟩, -, rfl⟩
    exact ⟨hlt, rfl⟩
  · rintro ⟨hlt, rfl⟩
    exact ⟨OK, _, _, ⟨by omega, hlt, rfl, rfl⟩, rfl, rfl⟩

/-- A packet that is not a NACK asks for nothing. -/
theorem demanded_of_type {history : List SentPacket} {data : List UInt8}
    (h : data.getD 1 0 ≠ 205) : ¬ IsNack data ∧ demanded history data = [] := by
  have hnot : ¬ IsNack data := fun hnack => h hnack.1
  exact ⟨hnot, if_neg fun hboth => hnot hboth.1⟩

/-- A packet is handled cleanly exactly if its body fits and what it demands is taken; then
the packets demanded are all that is sent. -/
theorem clean_handlePacket {sender : Sender} {data : List UInt8} {s : Feedback}
    (hfits : declaredLength data ≤ data.length) :
    (Safe InPacket (handlePacket sender data (data.getD 1 0) (declaredLength data)) s ↔
      BodyFits sender.mHistory data ∧
        TakesNext sender s.resent.length (demanded sender.mHistory data).length) ∧
    ∀ u s', Clean InPacket (handlePacket sender data (data.getD 1 0) (declaredLength data)) s u s' →
      s'.resent = s.resent ++ demanded sender.mHistory data := by
  unfold handlePacket Safe BodyFits
  split
  · rename_i htype
    obtain ⟨hnot, hdemand⟩ := @demanded_of_type sender.mHistory data
      (by rcases htype with h | h <;> rw [h] <;> decide)
    simp only [clean_discard, clean_parseReceiverReport hfits, hdemand, hnot]
    constructor
    · constructor
      · rintro ⟨-, s', hlong, -⟩
        exact ⟨⟨fun _ => hlong, by simp⟩, takesNext_zero _ _⟩
      · rintro ⟨⟨hlong, -⟩, -⟩
        exact ⟨(), s, hlong htype, rfl⟩
    · rintro - s' ⟨-, rfl⟩
      simp
  · rename_i hreport
    split
    · rename_i htype
      obtain ⟨hnot, hdemand⟩ := @demanded_of_type sender.mHistory data
        (by rw [htype]; decide)
      simp only [clean_discard, hdemand, hnot, List.append_nil]
      constructor
      · refine iff_of_true ?_ ⟨⟨fun h => absurd h hreport, by simp⟩, takesNext_zero _ _⟩
        obtain ⟨err, s', hclean⟩ := safe_parseAPP s hfits
        exact ⟨(), s', err, hclean⟩
      · rintro - s' ⟨err, hclean⟩
        exact resent_parseAPP hclean
    · split
      · rename_i htype
        simp only [clean_discard, clean_parseTSFB hfits htype]
        constructor
        · constructor
          · rintro ⟨-, s', hbody, htakes, -⟩
            exact ⟨⟨fun h => absurd h hreport, hbody⟩, htakes⟩
          · rintro ⟨⟨-, hbody⟩, htakes⟩
            exact ⟨(), _, hbody, htakes, rfl⟩
        · rintro - s' ⟨-, -, rfl⟩
          rfl
      · rename_i htype
        obtain ⟨hnot, hdemand⟩ := @demanded_of_type sender.mHistory data htype
        simp only [hdemand, hnot, List.append_nil]
        constructor
        · exact iff_of_true (safe_pure ()) ⟨⟨fun h => absurd h hreport, by simp⟩, takesNext_zero _ _⟩
        · intro u s' h
          rw [(clean_pure.mp h).2]

end MirrorCast.Rtcp
