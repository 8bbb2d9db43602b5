import MirrorCast.Verification.Rtcp.Safety

/-! # The packets of an RTCP datagram -/

namespace MirrorCast.Rtcp

open Java RTPUtils RTPSender Audit

/-- What is left of a datagram from the start of one of its packets on. -/
structure Packet where
  data : List UInt8
  size : ℕ

namespace Packet

def Version2 (p : Packet) : Prop := p.data.getD 0 0 >>> 6 = 2

def Padded (p : Packet) : Prop := p.data.getD 0 0 &&& 0x20 ≠ 0

instance (p : Packet) : Decidable p.Version2 := inferInstanceAs (Decidable (_ = _))

instance (p : Packet) : Decidable p.Padded := inferInstanceAs (Decidable (¬ _))

/-- The last byte of the datagram. -/
def paddingLength (p : Packet) : ℕ := (p.data.getD (p.size - 1) 0).toNat

/-- The size that counts for the packet and all behind it. -/
def unpadded (p : Packet) : ℕ := if p.Padded then p.size - p.paddingLength else p.size

/-- The checks on the header that a packet passes before it is handled. -/
def Accepted (p : Packet) : Prop :=
  p.Version2 ∧ (p.Padded → p.paddingLength + 12 ≤ p.size) ∧ declaredLength p.data ≤ p.unpadded

instance (p : Packet) : Decidable p.Accepted := inferInstanceAs (Decidable (_ ∧ _ ∧ _))

/-- The padding bit is set only in a packet that reaches to the end of the datagram. -/
def PaddingFits (p : Packet) : Prop :=
  p.Version2 → p.Padded → p.size ≤ declaredLength p.data

end Packet

/-- The packets of a datagram, up to the first one that fails a check on its header. -/
def packets (data : List UInt8) (size : ℕ) : List Packet :=
  if 8 ≤ size then
    let p : Packet := ⟨data, size⟩
    if p.Accepted then
      p :: packets (data.drop (declaredLength data)) (p.unpadded - declaredLength data)
    else [p]
  else []
termination_by size
decreasing_by
  have hdecl := declaredLength_ge data
  have hle : Packet.unpadded ⟨data, size⟩ ≤ size := by
    unfold Packet.unpadded
    split <;> simp
  omega

/-- All that one packet must meet: a fitting padding bit, and a fitting body when it is handled. -/
def Fits (history : List SentPacket) (p : Packet) : Prop :=
  p.PaddingFits ∧ (p.Accepted → BodyFits history p.data)

/-- The packets sent again for a list of RTCP packets. -/
def demandedBy (history : List SentPacket) (ps : List Packet) : List SentPacket :=
  (ps.filter fun p => p.Accepted).flatMap fun p => demanded history p.data

theorem packets_short {data : List UInt8} {size : ℕ} (h : size < 8) : packets data size = [] := by
  rw [packets, if_neg (by omega)]

theorem packets_refused {data : List UInt8} {size : ℕ} (h : 8 ≤ size)
    (hno : ¬ Packet.Accepted ⟨data, size⟩) : packets data size = [⟨data, size⟩] := by
  rw [packets, if_pos h]
  exact if_neg hno

theorem packets_accepted {data : List UInt8} {size : ℕ} (h : 8 ≤ size)
    (hyes : Packet.Accepted ⟨data, size⟩) : packets data size = ⟨data, size⟩ ::
      packets (data.drop (declaredLength data))
        (Packet.unpadded ⟨data, size⟩ - declaredLength data) := by
  rw [packets, if_pos h]
  exact if_pos hyes

/-! ## The header of one packet -/

section Header

variable {data : List UInt8} {size : ℕ} {s : Feedback}

theorem clean_header_byte {i : ℕ} (hi : i < 4) (h : 8 ≤ size) (hfits : size ≤ data.length)
    {b : UInt8} {t : Feedback} :
    Clean InPacket (readByte data i) s b t ↔ b = data.getD i 0 ∧ s = t := by
  have hdecl := declaredLength_ge data
  rw [clean_readByte]
  exact ⟨fun hread => hread.2.2, fun hread => ⟨by omega, by omega, hread⟩⟩

/-- Removing the padding reads the last byte of the datagram. -/
theorem clean_removePadding (h : 8 ≤ size) (hfits : size ≤ data.length)
    {r : Option { n // n ≤ size }} {t : Feedback} :
    Clean InPacket (removePadding data (data.getD 0 0) size) s r t ↔
      (Packet.Padded ⟨data, size⟩ → size ≤ declaredLength data) ∧ s = t ∧
        r.map Subtype.val =
          if Packet.Padded ⟨data, size⟩ → Packet.paddingLength ⟨data, size⟩ + 12 ≤ size then
            some (Packet.unpadded ⟨data, size⟩)
          else none := by
  have hmap : ∀ (o : Option { n // n ≤ size }) (r : Option { n // n ≤ size }),
      o = r ↔ r.map Subtype.val = o.map Subtype.val := by
    intro o r
    constructor
    · rintro rfl
      rfl
    · intro heq
      exact (Option.map_injective Subtype.val_injective heq).symm
  unfold removePadding
  by_cases hpad : data.getD 0 0 &&& 0x20 ≠ 0
  · have hpadded : Packet.Padded ⟨data, size⟩ := hpad
    have hunpadded : Packet.unpadded ⟨data, size⟩ =
        size - (data.getD (size - 1) 0).toNat := if_pos hpad
    rw [if_pos hpad, clean_bind]
    simp only [clean_readByte, hpadded, true_implies, Packet.paddingLength, hunpadded]
    constructor
    · rintro ⟨b, t', ⟨-, hdecl, rfl, rfl⟩, hrest⟩
      split at hrest
      · rename_i hlong
        obtain ⟨rfl, rfl⟩ := clean_pure.mp hrest
        exact ⟨by omega, rfl, by rw [if_neg (by omega)]; rfl⟩
      · rename_i hlong
        obtain ⟨rfl, rfl⟩ := clean_pure.mp hrest
        exact ⟨by omega, rfl, by rw [if_pos (by omega)]; rfl⟩
    · rintro ⟨hdecl, rfl, hr⟩
      refine ⟨_, s, ⟨by omega, by omega, rfl, rfl⟩, ?_⟩
      split
      · rename_i hlong
        rw [if_neg (by omega)] at hr
        exact clean_pure.mpr ⟨(hmap _ _).mpr hr, rfl⟩
      · rename_i hlong
        rw [if_pos (by omega)] at hr
        exact clean_pure.mpr ⟨(hmap _ _).mpr hr, rfl⟩
  · have hpadded : ¬ Packet.Padded ⟨data, size⟩ := hpad
    have hunpadded : Packet.unpadded ⟨data, size⟩ = size := if_neg hpad
    rw [if_neg hpad, clean_pure]
    simp only [hpadded, false_implies, if_true, true_and, hunpadded]
    constructor
    · rintro ⟨rfl, rfl⟩
      exact ⟨rfl, rfl⟩
    · rintro ⟨rfl, hr⟩
      exact ⟨(hmap _ _).mpr hr, rfl⟩

end Header

/-! ## Whole datagrams -/

section Step

variable {sender : Sender} {data : List UInt8} {size : ℕ} {s : Feedback}

theorem safe_header_byte {i : ℕ} (hi : i < 4) (h : 8 ≤ size) (hfits : size ≤ data.length)
    {α : Type} {f : UInt8 → Handling α} :
    Safe InPacket (readByte data i >>= f) s ↔ Safe InPacket (f (data.getD i 0)) s := by
  rw [safe_bind]
  constructor
  · rintro ⟨b, t, hread, hrest⟩
    obtain ⟨rfl, rfl⟩ := (clean_header_byte hi h hfits).mp hread
    exact hrest
  · exact fun hrest => ⟨_, s, (clean_header_byte hi h hfits).mpr ⟨rfl, rfl⟩, hrest⟩

/-- A packet that fails a check on its header asks for nothing. -/
theorem condition_refused (h : 8 ≤ size) (hno : ¬ Packet.Accepted ⟨data, size⟩) :
    ((∀ p ∈ packets data size, Fits sender.mHistory p) ∧
      TakesNext sender s.resent.length (demandedBy sender.mHistory (packets data size)).length) ↔
    Packet.PaddingFits ⟨data, size⟩ := by
  rw [packets_refused h hno]
  have hdemand : demandedBy sender.mHistory [⟨data, size⟩] = [] := by simp [demandedBy, hno]
  rw [hdemand]
  simp only [List.mem_singleton, forall_eq, Fits, hno, false_implies, and_true]
  exact ⟨And.left, fun hpad => ⟨hpad, takesNext_zero _ _⟩⟩

/-- An accepted packet is handled, and then the rest of the datagram. -/
theorem condition_accepted (h : 8 ≤ size) (hyes : Packet.Accepted ⟨data, size⟩)
    {rest : List Packet} (hrest : packets (data.drop (declaredLength data))
      (Packet.unpadded ⟨data, size⟩ - declaredLength data) = rest) :
    ((∀ p ∈ packets data size, Fits sender.mHistory p) ∧
      TakesNext sender s.resent.length (demandedBy sender.mHistory (packets data size)).length) ↔
    Packet.PaddingFits ⟨data, size⟩ ∧
      (BodyFits sender.mHistory data ∧
        TakesNext sender s.resent.length (demanded sender.mHistory data).length) ∧
      (∀ p ∈ rest, Fits sender.mHistory p) ∧
        TakesNext sender (s.resent.length + (demanded sender.mHistory data).length)
          (demandedBy sender.mHistory rest).length := by
  have hdemand : demandedBy sender.mHistory (⟨data, size⟩ :: rest) =
      demanded sender.mHistory data ++ demandedBy sender.mHistory rest := by
    simp [demandedBy, hyes]
  rw [packets_accepted h hyes, hrest, hdemand, List.length_append, takesNext_add, List.forall_mem_cons]
  simp only [Fits, hyes, true_implies]
  tauto

theorem unpadded_le : Packet.unpadded ⟨data, size⟩ ≤ size := by
  unfold Packet.unpadded
  split
  · exact Nat.sub_le _ _
  · exact Nat.le_refl _

/-- The part of the loop behind the padding check, for a packet whose header is accepted. -/
theorem safe_accepted (hsize : declaredLength data ≤ data.length) {rest : Handling ℤ}
    {fits : Prop} {demand : ℕ}
    (hrest : ∀ t : Feedback, Safe InPacket rest t ↔ fits ∧ TakesNext sender t.resent.length demand) :
    Safe InPacket (do
      handlePacket sender data (data.getD 1 0) (declaredLength data)
      if data.length < declaredLength data then Audit.fail .illegalArgument else rest) s ↔
    (BodyFits sender.mHistory data ∧
        TakesNext sender s.resent.length (demanded sender.mHistory data).length) ∧
      fits ∧ TakesNext sender (s.resent.length + (demanded sender.mHistory data).length) demand := by
  obtain ⟨hsafe, hresent⟩ := @clean_handlePacket sender data s hsize
  rw [safe_bind, ← hsafe, if_neg (by omega)]
  constructor
  · rintro ⟨u, t, hclean, hafter⟩
    have hnext := (hrest t).mp hafter
    rw [hresent u t hclean, List.length_append] at hnext
    exact ⟨⟨u, t, hclean⟩, hnext⟩
  · rintro ⟨⟨u, t, hclean⟩, hnext⟩
    rw [← List.length_append, ← hresent u t hclean] at hnext
    exact ⟨u, t, hclean, (hrest t).mpr hnext⟩

end Step

/-- The loop is clean exactly if every packet it comes to fits and the network session takes
every packet that is sent again. -/
theorem handlePackets_safe (sender : Sender) (size : ℕ) :
    ∀ (data : List UInt8) (s : Feedback), size ≤ data.length →
      (Safe InPacket (handlePackets sender data size) s ↔
        (∀ p ∈ packets data size, Fits sender.mHistory p) ∧
          TakesNext sender s.resent.length
            (demandedBy sender.mHistory (packets data size)).length) := by
  induction size using Nat.strongRecOn with
  | ind size ih =>
      intro data s hfits
      rw [handlePackets]
      by_cases hpos : 0 < size
      swap
      · rw [if_neg hpos, packets_short (by omega)]
        exact iff_of_true (safe_pure _) ⟨by simp, takesNext_zero _ _⟩
      rw [if_pos hpos]
      by_cases hshort : size < 8
      · rw [if_pos hshort, packets_short hshort]
        exact iff_of_true (safe_pure _) ⟨by simp, takesNext_zero _ _⟩
      have hlong : 8 ≤ size := by omega
      have hdecl := declaredLength_ge data
      have hle : Packet.unpadded ⟨data, size⟩ ≤ size := unpadded_le
      rw [if_neg hshort, safe_header_byte (by decide) hlong hfits]
      by_cases hversion : data.getD 0 0 >>> 6 = 2
      swap
      · rw [if_pos hversion, condition_refused hlong fun h => hversion h.1]
        exact iff_of_true (safe_pure _) fun h => absurd h hversion
      rw [if_neg (not_not.mpr hversion), safe_bind]
      simp only [clean_removePadding hlong hfits]
      by_cases haccepted : Packet.Accepted ⟨data, size⟩
      · have hpadding := haccepted.2.1
        have hsize : declaredLength data ≤ Packet.unpadded ⟨data, size⟩ := haccepted.2.2
        have hih := fun t => ih (Packet.unpadded ⟨data, size⟩ - declaredLength data) (by omega)
          (data.drop (declaredLength data)) t (by rw [List.length_drop]; omega)
        rw [condition_accepted hlong haccepted rfl]
        simp only [if_pos hpadding]
        constructor
        · rintro ⟨r, t, ⟨hpad, rfl, hr⟩, hrest⟩
          obtain ⟨⟨unpadded, hunpadded⟩, rfl, rfl⟩ := Option.map_eq_some_iff.mp hr
          dsimp only at hrest hsize hih
          rw [safe_header_byte (by decide) hlong hfits, safe_header_byte (by decide) hlong hfits,
            if_neg (by omega), safe_header_byte (by decide) hlong hfits,
            safe_accepted (by omega) hih] at hrest
          exact ⟨fun _ => hpad, hrest⟩
        · rintro ⟨hpad, hrest⟩
          refine ⟨some ⟨Packet.unpadded ⟨data, size⟩, hle⟩, s, ⟨hpad hversion, rfl, rfl⟩, ?_⟩
          dsimp only
          rw [safe_header_byte (by decide) hlong hfits, safe_header_byte (by decide) hlong hfits,
            if_neg (by omega), safe_header_byte (by decide) hlong hfits,
            safe_accepted (by omega) hih]
          exact hrest
      · rw [condition_refused hlong haccepted]
        constructor
        · rintro ⟨r, t, ⟨hpad, -, -⟩, -⟩
          exact fun _ => hpad
        · intro hpad
          by_cases hpadding :
              Packet.Padded ⟨data, size⟩ → Packet.paddingLength ⟨data, size⟩ + 12 ≤ size
          · refine ⟨some ⟨Packet.unpadded ⟨data, size⟩, hle⟩, s, ⟨hpad hversion, rfl, ?_⟩, ?_⟩
            · rw [if_pos hpadding]
              rfl
            · have hpartial : Packet.unpadded ⟨data, size⟩ < declaredLength data := by
                by_contra hsize
                exact haccepted ⟨hversion, hpadding, by simpa using hsize⟩
              dsimp only
              rw [safe_header_byte (by decide) hlong hfits,
                safe_header_byte (by decide) hlong hfits, if_pos hpartial]
              exact safe_pure _
          · refine ⟨none, s, ⟨hpad hversion, rfl, ?_⟩, safe_pure _⟩
            rw [if_neg hpadding]
            rfl

/-- For every datagram and history, handling the datagram ends without an exception and reads
nothing outside the packet it handles exactly if each packet fits and the network session
takes what is sent again. -/
theorem onRTCPData_safe_iff (sender : Sender) (buffer : RTPSender.ABuffer) :
    Safe InPacket (onRTCPData sender buffer) ⟨[], []⟩ ↔
      (∀ p ∈ packets buffer.data buffer.size, Fits sender.mHistory p) ∧
        ∀ k < (demandedBy sender.mHistory (packets buffer.data buffer.size)).length,
          Takes sender k := by
  rw [onRTCPData, handlePackets_safe sender buffer.size buffer.data _ buffer.size_le]
  simp only [TakesNext, List.length_nil, Nat.zero_add]

/-- A receiver report without a report block. -/
def emptyReport : RTPSender.ABuffer where
  data := [0x80, 201, 0, 1, 0, 0, 0, 7]
  size := 8
  size_le := Nat.le_refl _

theorem unsafe_on_emptyReport : ¬ ∀ (sender : Sender) (buffer : RTPSender.ABuffer),
    Safe InPacket (onRTCPData sender buffer) ⟨[], []⟩ := by
  intro h
  have hsafe := h ⟨true, [], fun _ => .ok OK⟩ emptyReport
  rw [onRTCPData, handlePackets_safe _ _ _ _ emptyReport.size_le,
    packets_accepted (by decide) (by decide)] at hsafe
  have hbody := (hsafe.1 _ List.mem_cons_self).2 (by decide)
  exact absurd (hbody.1 (Or.inr rfl)) (by decide)

end MirrorCast.Rtcp
