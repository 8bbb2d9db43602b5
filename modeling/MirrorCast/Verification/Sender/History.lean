import MirrorCast.Library.Machine
import MirrorCast.Verification.Sender.Operations

/-! # The history and the pools over runs of the sender -/

namespace MirrorCast.RTPSender.Queueing

open Java ReusePool

variable {s : State} {world : World} {start : ℕ} {connected : Bool} {base : List ℕ}

/-- The buffers of `base` are still owned, and some more have no owner any longer. -/
def Leaks (start : ℕ) (connected : Bool) (base : List ℕ) (s : State) : Prop :=
  ∃ lost, Owns start connected (lost ++ base) s

/-! ## Transport streams -/

theorem queueTSPacketsFrom_ends {tsPackets : List UInt8} {timeUs : ℤ} {packetType : UInt8}
    {srcOffset : ℕ} (h : Owns start connected base s) :
    Ends (queueTSPacketsFrom world tsPackets timeUs packetType srcOffset) s
      (fun _ t => Owns start connected base t)
      (fun _ t => Leaks start connected base t ∧ ¬ (connected = true ∧ Answers world start t.requests)) := by
  induction hn : tsPackets.length - srcOffset using Nat.strong_induction_on
    generalizing srcOffset s with
  | _ n ih =>
      rw [queueTSPacketsFrom]
      refine .ite (fun hmore => ?_) fun _ => .pure h
      refine .seq (getABuffer_ends h) (fun _ _ => False.elim) ?_
      rintro b s₁ ⟨h₁, hmem⟩
      have hcapacity : (s₁.heap b).mData.length = 12 + MAX_NUM_TS_PACKETS_PER_RTP_PACKET * 188 :=
        h₁.holds.pools.capacity .TS_ABUFS b hmem
      refine .get_bind (.seq (putHeader_ends (by omega)) (fun _ _ => False.elim) ?_)
      rintro _ _ rfl
      have h₂ := h₁.headed List.mem_cons_self (by omega) packetType
        (rtpTime (world.clock s₁.requests))
      have hchunk : ((tsPackets.drop srcOffset).take
          (min ((tsPackets.length - srcOffset) / 188) MAX_NUM_TS_PACKETS_PER_RTP_PACKET *
            188)).length ≤ MAX_NUM_TS_PACKETS_PER_RTP_PACKET * 188 := by
        rw [List.length_take]
        exact (Nat.min_le_left _ _).trans (Nat.mul_le_mul_right 188 (Nat.min_le_right _ _))
      have hput := (Nat.add_le_add_left hchunk 12).trans
        (h₂.holds.pools.capacity .TS_ABUFS b hmem).ge
      refine .seq (put_ends hput) (fun _ _ => False.elim) ?_
      rintro _ _ rfl
      have h₃ := h₂.written List.mem_cons_self hput
      have hrange : 12 + min ((tsPackets.length - srcOffset) / 188)
          MAX_NUM_TS_PACKETS_PER_RTP_PACKET * 188 ≤ _ :=
        (Nat.add_le_add_left (Nat.mul_le_mul_right 188 (Nat.min_le_right _ _)) 12).trans
          (h₃.holds.pools.capacity .TS_ABUFS b hmem).ge
      refine .seq (setRange_ends hrange) (fun _ _ => False.elim) ?_
      rintro _ _ rfl
      refine .seq (sendRTPPacket_ends (h₃.ranged List.mem_cons_self _))
        (fun _ _ h => ⟨⟨[b], h.1⟩, h.2⟩) ?_
      rintro err t (⟨rfl, ht⟩ | ⟨hne, ht⟩)
      · rw [if_neg (not_not.mpr rfl)]
        refine ih _ ?_ ht rfl
        simp only [MAX_NUM_TS_PACKETS_PER_RTP_PACKET, MAX_UDP_PACKET_SIZE]
        omega
      · rw [if_pos hne]
        exact .seq (recycleABuffer_ends ht) (fun _ _ => False.elim) fun _ _ ht => .pure ht

theorem queueTSPackets_ends {tsPackets : List UInt8} {timeUs : ℤ} {packetType : UInt8}
    (h : Owns start connected base s) :
    Ends (queueTSPackets world tsPackets timeUs packetType) s (fun _ t => Owns start connected base t)
      (fun _ t => Leaks start connected base t ∧ (Owns start connected base t ∨
        ¬ (tsPackets.length % 188 ≠ 0 ∨ tsPackets = [] ∨ connected = true ∧ Answers world start t.requests))) := by
  unfold queueTSPackets
  refine .when_bind (Q := fun _ t => Owns start connected base t ∧ ¬ tsPackets.length % 188 ≠ 0)
    (fun _ => .throw ⟨⟨[], h⟩, Or.inl h⟩) (fun hwhole => ⟨h, hwhole⟩) fun t ht => ?_
  by_cases hempty : tsPackets = []
  · rw [hempty, queueTSPacketsFrom, if_neg (by simp)]
    exact .pure ht.1
  · exact (queueTSPacketsFrom_ends ht.1).mono (fun _ _ ht => ht) fun _ _ h =>
      ⟨h.1, Or.inr fun hcareful => h.2 ((hcareful.resolve_left ht.2).resolve_left hempty)⟩

/-! ## Packing NAL units -/

/-- The packets filled and the buffer being filled are owned. -/
structure Packs (start : ℕ) (connected : Bool) (base : List ℕ) (f : Filling) (s : State) : Prop where
  owns : Owns start connected (f.out :: (f.packets ++ base)) s
  out_mem : f.out ∈ objects (s.abufs .AVC_ABUFS)
  used_ge : 12 ≤ f.outBytesUsed
  used_le : f.outBytesUsed ≤ MAX_UDP_PACKET_SIZE

namespace Packs

variable {f : Filling}

theorem capacity (h : Packs start connected base f s) :
    (s.heap f.out).mData.length = MAX_UDP_PACKET_SIZE :=
  h.owns.holds.pools.capacity .AVC_ABUFS f.out h.out_mem

theorem leaks (h : Packs start connected base f s) : Leaks start connected base s := ⟨f.out :: f.packets, h.owns⟩

theorem written (h : Packs start connected base f s) {pos : ℕ} {bytes : List UInt8}
    (hfits : pos + bytes.length ≤ MAX_UDP_PACKET_SIZE) :
    Packs start connected base f (s.update f.out fun x => { x with mData := blit x.mData pos bytes }) :=
  { h with owns := h.owns.written List.mem_cons_self (h.capacity ▸ hfits) }

end Packs

variable {f : Filling} {nal : List UInt8}

theorem emit_ends {size : ℕ} (h : Packs start connected base f s) (hsize : size ≤ MAX_UDP_PACKET_SIZE) :
    Ends (f.emit world size) s
      (fun f' t => Packs start connected base f' t ∧ f'.outBytesUsed = 12) (fun _ _ => False) := by
  unfold Filling.emit
  refine .bind (setRange_ends (by rw [h.capacity]; exact hsize)) ?_
  rintro _ _ rfl
  refine .bind (getABuffer_ends (h.owns.ranged List.mem_cons_self size)) ?_
  rintro b t ⟨ht, hmem⟩
  refine .pure ⟨⟨ht.perm ?_, hmem, le_rfl, show 12 ≤ MAX_UDP_PACKET_SIZE by decide⟩, rfl⟩
  rw [List.append_assoc, List.singleton_append]
  exact List.perm_middle.symm.cons b

/-- The bytes a NAL unit takes in an aggregation packet. -/
def Filling.needed (f : Filling) (nal : List UInt8) : ℕ :=
  nal.length + 2 + if f.outBytesUsed = 12 then 1 else 0

theorem aggregate_ends {bytesNeeded : ℕ} (h : Packs start connected base f s) (hpos : 0 < bytesNeeded)
    (hle : bytesNeeded ≤ f.needed nal) :
    Ends (f.aggregate nal bytesNeeded) s
      (fun f' t => Packs start connected base f' t ∧ 12 < f'.outBytesUsed ∧
        f.outBytesUsed + f.needed nal ≤ MAX_UDP_PACKET_SIZE)
      (fun _ t => Leaks start connected base t ∧
        MAX_UDP_PACKET_SIZE < f.outBytesUsed + f.needed nal) := by
  unfold Filling.aggregate
  have hlength : ((if f.outBytesUsed = 12 then [(24 : UInt8)] else []) ++
      [toByte (nal.length / 2 ^ 8 : ℕ), toByte nal.length] ++ nal).length = f.needed nal := by
    unfold Filling.needed
    split
    · simp only [List.length_append, List.length_cons, List.length_nil]
      omega
    · simp only [List.length_append, List.length_cons, List.length_nil]
      omega
  by_cases hfits : f.outBytesUsed + f.needed nal ≤ MAX_UDP_PACKET_SIZE
  · rw [← hlength] at hfits
    refine .seq (put_ends (h.capacity ▸ hfits)) (fun _ _ => False.elim) ?_
    rintro _ _ rfl
    have hwritten := h.written hfits
    have hge := h.used_ge
    refine .pure ⟨⟨hwritten.owns, hwritten.out_mem, ?_, ?_⟩, ?_, hlength ▸ hfits⟩
    · exact Nat.le_add_right_of_le hge
    · exact (Nat.add_le_add_left hle _).trans (hlength ▸ hfits)
    · change 12 < f.outBytesUsed + bytesNeeded
      omega
  · refine .seq (put_throws (by rw [h.capacity, hlength]; omega)) ?_ fun _ _ => False.elim
    rintro _ _ rfl
    exact ⟨h.leaks, by omega⟩

theorem singleNAL_ends (h : Packs start connected base f s) (hused : f.outBytesUsed = 12) :
    Ends (f.singleNAL world nal) s
      (fun f' t => Packs start connected base f' t ∧ f'.outBytesUsed = 12)
      (fun _ t => Leaks start connected base t ∧ MAX_UDP_PACKET_SIZE < 12 + nal.length) := by
  unfold Filling.singleNAL
  rw [hused]
  by_cases hfits : 12 + nal.length ≤ MAX_UDP_PACKET_SIZE
  · refine .seq (put_ends (h.capacity ▸ hfits)) (fun _ _ => False.elim) ?_
    rintro _ _ rfl
    exact (emit_ends (h.written hfits) hfits).mono (fun _ _ ht => ht) fun _ _ => False.elim
  · refine .seq (put_throws (by rw [h.capacity]; omega)) ?_ fun _ _ => False.elim
    rintro _ _ rfl
    exact ⟨h.leaks, by omega⟩

theorem fragment_ends {srcOffset : ℕ} (h : Packs start connected base f s)
    (hused : f.outBytesUsed = 12) :
    Ends (Filling.fragment world nal srcOffset f) s
      (fun f' t => Packs start connected base f' t ∧ f'.outBytesUsed = 12) (fun _ _ => False) := by
  induction hn : nal.length - srcOffset using Nat.strong_induction_on
    generalizing srcOffset f s with
  | _ n ih =>
      rw [Filling.fragment]
      refine .ite (fun hmore => ?_) fun _ => .pure ⟨h, hused⟩
      dsimp only
      have hcopy : min (MAX_UDP_PACKET_SIZE - 12 - 2) (nal.length - srcOffset) ≤
          MAX_UDP_PACKET_SIZE - 12 - 2 := Nat.min_le_left _ _
      have hsize : MAX_UDP_PACKET_SIZE = 1472 := rfl
      have hpos : 0 < min (MAX_UDP_PACKET_SIZE - 12 - 2) (nal.length - srcOffset) := by omega
      generalize min (MAX_UDP_PACKET_SIZE - 12 - 2) (nal.length - srcOffset) = copy at hcopy hpos ⊢
      have hfits (nalType fuHeader : UInt8) :
          12 + ([nalType, fuHeader] ++ (nal.drop srcOffset).take copy).length ≤
            MAX_UDP_PACKET_SIZE := by
        have htake := List.length_take_le copy (nal.drop srcOffset)
        rw [List.length_append, List.length_cons, List.length_singleton]
        omega
      refine .bind (put_ends (h.capacity ▸ hfits _ _)) ?_
      rintro _ _ rfl
      refine .bind (emit_ends (h.written (hfits _ _)) (by omega)) ?_
      rintro f' t ⟨ht, hused'⟩
      exact ih _ (by omega) ht hused' rfl

/-- Not so long that the sum of the lengths in a packet overflows. -/
def Measurable (nal : List UInt8) : Prop := nal.length + 1474 < 2 ^ 31

/-- A sum of lengths that the code finds small enough is, or it has overflowed. -/
theorem le_of_int32_le {x : ℤ} (hpos : 0 ≤ x) (h : int32 x ≤ MAX_UDP_PACKET_SIZE) :
    x ≤ MAX_UDP_PACKET_SIZE ∨ 2 ^ 31 ≤ x := by
  rcases lt_or_ge x (2 ^ 31) with hlt | hge
  · rw [int32_eq (by omega) hlt] at h
    exact Or.inl h
  · exact Or.inr hge

theorem lt_of_lt_int32 {x : ℤ} (hpos : 0 ≤ x) (h : ¬ int32 x ≤ MAX_UDP_PACKET_SIZE) :
    MAX_UDP_PACKET_SIZE < x := by
  by_contra hle
  have hsmall : x ≤ 1472 := not_lt.mp hle
  rw [int32_eq (by omega) (by omega)] at h
  exact h hsmall

theorem overlong {nal : List UInt8} (h : 2 ^ 31 ≤ nal.length + 1474) : ¬ Measurable nal :=
  Nat.not_lt.mpr h

/-- What is left to do in an empty packet. Behind a packet that has just been emitted, the number
of bytes lacks the header of the new one. -/
theorem packRest_ends {n : ℕ} (h : Packs start connected base f s) (hused : f.outBytesUsed = 12)
    (hn : n = nal.length + 2 ∨ n = nal.length + 3) :
    Ends (f.packRest world nal n) s
      (fun f' t => Packs start connected base f' t ∧ (12 < f'.outBytesUsed ↔ nal.length ≤ 1457))
      (fun _ t => Leaks start connected base t ∧
        (n = nal.length + 2 ∧ nal.length = 1458 ∨ ¬ Measurable nal)) := by
  have hsize : MAX_UDP_PACKET_SIZE = 1472 := rfl
  have hneeded : f.needed nal = nal.length + 3 := by rw [Filling.needed, if_pos hused]
  generalize hbody : f.packRest world nal n = body
  unfold Filling.packRest at hbody
  by_cases hfits : int32 (f.outBytesUsed + n) ≤ MAX_UDP_PACKET_SIZE
  · have hwraps := le_of_int32_le (by omega) hfits
    rw [← hbody, if_pos hfits]
    refine (aggregate_ends h (by omega) (by omega)).mono ?_ ?_
    · rintro f' t ⟨ht, hused', hfitting⟩
      exact ⟨ht, by omega⟩
    · rintro _ t ⟨ht, hover⟩
      refine ⟨ht, ?_⟩
      rcases hwraps with hsmall | hlong
      · exact Or.inl (by omega)
      · exact Or.inr (overlong (by omega))
  · have hlarge := lt_of_lt_int32 (by omega) hfits
    rw [← hbody, if_neg hfits]
    refine (fragment_ends h hused).mono ?_ fun _ _ => False.elim
    rintro f' t ⟨ht, hused'⟩
    exact ⟨ht, by omega⟩

/-- A NAL unit of at most 1457 bytes ends up in an aggregation packet, a longer one does not. What
fails is one of 1458 bytes behind others, and one so long that the sum of lengths overflows. -/
theorem packNAL_ends (h : Packs start connected base f s) :
    Ends (f.packNAL world nal) s
      (fun f' t => Packs start connected base f' t ∧ (12 < f'.outBytesUsed ↔ nal.length ≤ 1457))
      (fun _ t => Leaks start connected base t ∧
        (12 < f.outBytesUsed ∧ nal.length = 1458 ∨ ¬ Measurable nal)) := by
  have hge := h.used_ge
  have hle := h.used_le
  have hsize : MAX_UDP_PACKET_SIZE = 1472 := rfl
  have hneeded : f.needed nal = nal.length + 2 + if f.outBytesUsed = 12 then 1 else 0 := rfl
  have hpos : 0 < f.needed nal := by omega
  -- the loop body stays folded while the cases are told apart
  generalize hbody : f.packNAL world nal = body
  unfold Filling.packNAL at hbody
  dsimp only at hbody
  rw [← hneeded] at hbody
  by_cases hfits : int32 (f.outBytesUsed + f.needed nal) ≤ MAX_UDP_PACKET_SIZE
  · have hwraps := le_of_int32_le (by omega) hfits
    rw [if_pos hfits] at hbody
    rw [← hbody]
    refine (aggregate_ends h hpos le_rfl).mono ?_ ?_
    · rintro f' t ⟨ht, hused, hfitting⟩
      exact ⟨ht, by split at hneeded <;> omega⟩
    · rintro _ t ⟨ht, hover⟩
      exact ⟨ht, Or.inr (overlong (by split at hneeded <;> omega))⟩
  rw [if_neg hfits] at hbody
  have hlarge := lt_of_lt_int32 (by omega) hfits
  by_cases hsingle : f.outBytesUsed = 12 ∧
      int32 (f.outBytesUsed + nal.length) ≤ MAX_UDP_PACKET_SIZE
  · have hsmall := le_of_int32_le (by omega) hsingle.2
    rw [if_pos hsingle] at hbody
    rw [← hbody]
    rw [if_pos hsingle.1] at hneeded
    refine (singleNAL_ends h hsingle.1).mono ?_ ?_
    · rintro f' t ⟨ht, hused⟩
      exact ⟨ht, by omega⟩
    · rintro _ t ⟨ht, hover⟩
      exact ⟨ht, Or.inr (overlong (by omega))⟩
  rw [if_neg hsingle] at hbody
  by_cases hused : 12 < f.outBytesUsed
  · rw [if_pos hused] at hbody
    have hlacks : f.needed nal = nal.length + 2 := by rw [hneeded, if_neg (by omega)]
    rw [← hbody]
    refine .seq (emit_ends h hle) (fun _ _ => False.elim) fun f' t ht => ?_
    exact (packRest_ends ht.1 ht.2 (Or.inl hlacks)).mono (fun _ _ h => h) fun _ u hu =>
      ⟨hu.1, hu.2.imp_left fun h => ⟨hused, h.2⟩⟩
  · rw [if_neg hused] at hbody
    have hempty : f.outBytesUsed = 12 := by omega
    have hhas : f.needed nal = nal.length + 3 := by rw [hneeded, if_pos hempty]
    rw [← hbody]
    exact .pure_bind ((packRest_ends h hempty (Or.inr hhas)).mono (fun _ _ h => h) fun _ u hu =>
      ⟨hu.1, hu.2.imp_left fun h => absurd h.1 (by omega)⟩)

/-- Behind a packet with something in it, if it is `started`, no NAL unit is too long, none of
1458 bytes follows one that is aggregated, and the last one is aggregated. -/
def Packable : Prop → List (List UInt8) → Prop
  | started, [] => started
  | started, nal :: nals =>
      Measurable nal ∧ (started → nal.length ≠ 1458) ∧ Packable (nal.length ≤ 1457) nals

theorem packNALs_ends {nals : List (List UInt8)} (h : Packs start connected base f s) :
    Ends (Filling.packNALs world nals f) s
      (fun f' t => Packs start connected base f' t ∧
        (Packable (12 < f.outBytesUsed) nals → 12 < f'.outBytesUsed))
      (fun _ t => Leaks start connected base t ∧ ¬ Packable (12 < f.outBytesUsed) nals) := by
  induction nals generalizing f s with
  | nil => exact .pure ⟨h, id⟩
  | cons nal nals ih =>
      refine .seq (packNAL_ends h) ?_ fun f' t ht => ?_
      · rintro _ t ⟨ht, hcause⟩
        refine ⟨ht, fun hfit => ?_⟩
        rcases hcause with ⟨hstarted, hlength⟩ | hlong
        · exact hfit.2.1 hstarted hlength
        · exact hlong hfit.1
      · have hrest := ih ht.1
        rw [propext ht.2] at hrest
        exact hrest.mono (fun _ _ hu => ⟨hu.1, fun hfit => hu.2 hfit.2.2⟩)
          fun _ _ hu => ⟨hu.1, fun hfit => hu.2 hfit.2.2⟩

/-! ## Sending the packets -/

theorem finish_ends (h : Packs start connected base f s) :
    Ends f.finish s
      (fun packets t => Owns start connected (packets ++ if 12 < f.outBytesUsed then base
        else f.out :: base) t) (fun _ _ => False) := by
  unfold Filling.finish
  by_cases hused : 12 < f.outBytesUsed
  · rw [if_pos hused, if_pos hused]
    refine .bind (setRange_ends (by rw [h.capacity]; exact h.used_le)) ?_
    rintro _ _ rfl
    refine .pure ((h.owns.ranged List.mem_cons_self f.outBytesUsed).perm ?_)
    rw [List.append_assoc, List.singleton_append]
    exact List.perm_middle.symm
  · rw [if_neg hused, if_neg hused]
    exact .pure (h.owns.perm List.perm_middle.symm)

theorem sendPackets_ends {packetType : UInt8} {rtpTime : ℤ} {packets : List ℕ}
    (h : Owns start connected (packets ++ base) s) :
    Ends (sendPackets world packetType rtpTime packets) s (fun _ t => Owns start connected base t)
      (fun _ t => Leaks start connected base t ∧ ¬ (connected = true ∧ Answers world start t.requests)) := by
  induction packets generalizing s with
  | nil => exact .pure h
  | cons outBuf packets ih =>
      have hroomy := h.roomy (b := outBuf) List.mem_cons_self
      refine .seq (putHeader_ends hroomy) (fun _ _ => False.elim) ?_
      rintro _ _ rfl
      refine .seq (sendRTPPacket_ends (h.headed List.mem_cons_self hroomy _ _))
        (fun _ _ ht => ⟨⟨outBuf :: packets, ht.1⟩, ht.2⟩) ?_
      rintro err t (⟨rfl, ht⟩ | ⟨hne, ht⟩)
      · rw [if_neg (not_not.mpr rfl)]
        exact ih ht
      · rw [if_pos hne]
        refine .seq (recycleABuffer_ends ht) (fun _ _ => False.elim) fun _ _ ht => ?_
        exact .seq (recycleAll_ends ht) (fun _ _ => False.elim) fun _ _ ht => .pure ht

theorem queueAVCBuffer_ends {accessUnit : List UInt8} {timeUs : ℤ} {packetType : UInt8}
    (h : Owns start connected base s) :
    Ends (queueAVCBuffer world accessUnit timeUs packetType) s
      (fun _ t => Leaks start connected base t ∧
        (Packable False (AvcUtils.nalUnits accessUnit) → Owns start connected base t))
      (fun _ t => Leaks start connected base t ∧
        ¬ (Packable False (AvcUtils.nalUnits accessUnit) ∧ connected = true ∧ Answers world start t.requests)) := by
  unfold queueAVCBuffer
  refine .seq (getABuffer_ends h) (fun _ _ => False.elim) ?_
  rintro out s₁ ⟨h₁, hmem⟩
  have hstart : Packs start connected base ⟨[], out, 12⟩ s₁ :=
    ⟨h₁, hmem, le_rfl, show 12 ≤ MAX_UDP_PACKET_SIZE by decide⟩
  have hempty : ¬ 12 < (⟨[], out, 12⟩ : Filling).outBytesUsed := Nat.lt_irrefl 12
  refine .seq (packNALs_ends hstart) ?_ ?_
  · rw [eq_false hempty]
    exact fun _ _ ht => ⟨ht.1, fun hfit => ht.2 hfit.1⟩
  rw [eq_false hempty]
  rintro f s₂ ⟨h₂, hfit⟩
  refine .seq (finish_ends h₂) (fun _ _ => False.elim) fun packets s₃ h₃ => ?_
  by_cases hused : 12 < f.outBytesUsed
  · rw [if_pos hused] at h₃
    exact (sendPackets_ends h₃).mono (fun _ _ ht => ⟨⟨[], ht⟩, fun _ => ht⟩)
      fun _ _ ht => ⟨ht.1, fun hopen => ht.2 hopen.2⟩
  · rw [if_neg hused] at h₃
    refine (sendPackets_ends h₃).mono (fun _ _ ht => ⟨⟨[f.out], ht⟩, fun h => absurd (hfit h) hused⟩) ?_
    rintro _ t ⟨⟨lost, ht⟩, -⟩
    refine ⟨⟨lost ++ [f.out], ?_⟩, fun hopen => absurd (hfit hopen.1) hused⟩
    rwa [List.append_assoc]

/-! ## Runs -/

/-- A call of `queueBuffer`, a packet of the history that an RTCP request has sent again, or the
RTP session becoming connected. -/
inductive Input where
  | queueBuffer (buffer : List UInt8) (timeUs : ℤ) (packetType : UInt8) (mode : PacketizationMode)
  | resend (packet : ℕ)
  | connected

/-- The state after a step; a call that throws leaves what it has done. -/
def next (world : World) (s : State) : Input → State
  | .queueBuffer buffer timeUs packetType mode =>
      ((queueBuffer world buffer timeUs packetType mode).run s).2
  | .resend packet =>
      if packet ∈ s.mHistory then ((sendRTPPacket world packet false false (-1)).run s).2 else s
  | .connected => { s with mRTPConnected := true }

/-- The call is in transport stream or H.264 mode. -/
def Input.Packetized : Input → Prop
  | .queueBuffer _ _ _ mode => mode = .PACKETIZATION_TRANSPORT_STREAM ∨ mode = .PACKETIZATION_H264
  | _ => True

instance : DecidablePred Input.Packetized
  | .queueBuffer _ _ _ mode =>
      inferInstanceAs (Decidable (mode = .PACKETIZATION_TRANSPORT_STREAM ∨
        mode = .PACKETIZATION_H264))
  | .resend _ => .isTrue trivial
  | .connected => .isTrue trivial

/-- The session is connected and answers the requests that the step makes. -/
def Served (world : World) (s : State) (i : Input) : Prop :=
  s.mRTPConnected = true ∧ Answers world s.requests (next world s i).requests

/-- The call loses no buffer: what it has to send can be packed, and is sent while the session is
connected and answers. -/
def Careful (world : World) (s : State) : Input → Prop
  | .queueBuffer buffer timeUs packetType .PACKETIZATION_TRANSPORT_STREAM =>
      buffer.length % 188 ≠ 0 ∨ buffer = [] ∨
        Served world s (.queueBuffer buffer timeUs packetType .PACKETIZATION_TRANSPORT_STREAM)
  | .queueBuffer buffer timeUs packetType .PACKETIZATION_H264 =>
      Packable False (AvcUtils.nalUnits buffer) ∧
        Served world s (.queueBuffer buffer timeUs packetType .PACKETIZATION_H264)
  | _ => True

theorem queueBuffer_owns (world : World) {buffer : List UInt8} {timeUs : ℤ} {packetType : UInt8}
    {mode : PacketizationMode} (h : Owns s.requests connected base s)
    (hmode : (Input.queueBuffer buffer timeUs packetType mode).Packetized) :
    Leaks s.requests connected base (next world s (.queueBuffer buffer timeUs packetType mode)) ∧
      (Careful world s (.queueBuffer buffer timeUs packetType mode) →
        Owns s.requests connected base
          (next world s (.queueBuffer buffer timeUs packetType mode))) := by
  have hconnected := h.holds.connected_eq
  rcases hmode with rfl | rfl
  · refine Ends.state (P := fun t => Leaks s.requests connected base t ∧
      ((buffer.length % 188 ≠ 0 ∨ buffer = [] ∨
        s.mRTPConnected = true ∧ Answers world s.requests t.requests) →
          Owns s.requests connected base t))
      ((queueTSPackets_ends h).mono (fun _ t ht => ⟨⟨[], ht⟩, fun _ => ht⟩) ?_)
    rintro _ t ⟨hleaks, hcause⟩
    refine ⟨hleaks, fun hcareful => hcause.resolve_right fun hnot => hnot ?_⟩
    rw [← hconnected]
    exact hcareful
  · refine Ends.state (P := fun t => Leaks s.requests connected base t ∧
      (Packable False (AvcUtils.nalUnits buffer) ∧
        s.mRTPConnected = true ∧ Answers world s.requests t.requests →
          Owns s.requests connected base t))
      ((queueAVCBuffer_ends h).mono (fun _ t ht => ⟨ht.1, fun hcareful => ht.2 hcareful.1⟩) ?_)
    rintro _ t ⟨hleaks, hcause⟩
    refine ⟨hleaks, fun hcareful => absurd ?_ hcause⟩
    rw [← hconnected]
    exact hcareful

/-- No step takes a buffer from its owner, and a careful one leaves none without one. -/
theorem next_owns (world : World) {i : Input} (h : Owns start connected base s)
    (hmode : i.Packetized) :
    (∃ connected', Leaks s.requests connected' base (next world s i)) ∧
      (Careful world s i → ∃ connected', Owns s.requests connected' base (next world s i)) := by
  have h := h.restart
  cases i with
  | queueBuffer buffer timeUs packetType mode =>
      obtain ⟨hleaks, howns⟩ := queueBuffer_owns world h hmode
      exact ⟨⟨connected, hleaks⟩, fun hcareful => ⟨connected, howns hcareful⟩⟩
  | resend packet =>
      have hresent : Owns s.requests connected base (next world s (.resend packet)) := by
        unfold next
        dsimp only
        split
        · exact (resend_ends h).state
        · exact h
      exact ⟨⟨connected, [], hresent⟩, fun _ => ⟨connected, hresent⟩⟩
  | connected =>
      have hopen : Owns s.requests true base { s with mRTPConnected := true } :=
        ⟨⟨rfl, h.holds.pools.congr rfl rfl rfl, h.holds.inUse, h.holds.nodup⟩,
          h.remembers.congr rfl rfl rfl fun _ _ => rfl, h.since⟩
      exact ⟨⟨true, [], hopen⟩, fun _ => ⟨true, hopen⟩⟩

def step (world : World) : Machine.Step State Input Unit JavaException :=
  fun s i => .ok (next world s i, [])

/-- The history is counted right, holds the packets stored last, in their order and as they were
sent, and none of its buffers is free. -/
structure Consistent (s : State) : Prop where
  size_eq : s.mHistorySize = s.mHistory.length
  size_le : s.mHistorySize ≤ MAX_HISTORY_SIZE
  last_stored : s.mHistory.map s.packet = s.stored.drop (s.stored.length - MAX_HISTORY_SIZE)
  not_free : ∀ map b, (b, false) ∈ s.abufs map → b ∉ s.mHistory

/-- Exactly the buffers of the history are in use. -/
def Settled (s : State) : Prop := ∀ b, s.InUse b ↔ b ∈ s.mHistory

theorem Owns.consistent {owned : List ℕ} (h : Owns start connected owned s) : Consistent s where
  size_eq := h.remembers.size_eq
  size_le := h.remembers.size_eq ▸ h.remembers.size_le
  last_stored := by
    obtain ⟨older, hstored, holder⟩ := h.remembers.kept
    rw [hstored, List.length_append, List.length_map]
    rcases Nat.lt_or_eq_of_le h.remembers.size_le with hlt | heq
    · rw [holder hlt, List.length_nil, Nat.zero_add, Nat.sub_eq_zero_of_le h.remembers.size_le]
      rfl
    · rw [heq, Nat.add_sub_cancel, List.drop_left]
  not_free map b hfree hb := by
    obtain ⟨map', hused⟩ := (h.holds.inUse b).mpr (List.mem_append_right owned hb)
    have hmap := h.holds.pools.one_map b map map' (List.mem_map_of_mem hfree) hused.mem_objects
    rw [hmap] at hfree
    have hsame : (b, false) = (b, true) :=
      List.inj_on_of_nodup_map (h.holds.pools.nodup map') hfree hused rfl
    cases hsame

/-- In every run of transport stream and H.264 calls, whatever the network session answers, the
history is consistent with the pools; and if the calls are careful, no buffer is lost. -/
theorem pools_consistent {inputs : List Input} (hmodes : ∀ i ∈ inputs, i.Packetized)
    (hrun : Machine.final (step world) .initial inputs = .ok s) :
    Consistent s ∧
      (Machine.Meets (step world) (fun _ => Careful world) [] .initial inputs → Settled s) := by
  have hpacketized : Machine.Meets (step world) (fun _ _ i => i.Packetized) [] .initial inputs :=
    Machine.meets_of_mem hmodes
  constructor
  · obtain ⟨start, connected, lost, hlost⟩ := Machine.final_of_meets
      (fun s => ∃ start connected lost, Owns start connected lost s)
      (fun _ s i s' _ hinv hmode hstep => by
        cases hstep
        obtain ⟨start, connected, lost, hlost⟩ := hinv
        obtain ⟨⟨connected', more, hmore⟩, -⟩ := next_owns world hlost hmode
        exact ⟨s.requests, connected', more ++ lost, hmore⟩) ⟨0, false, [], owns_initial⟩
      hpacketized hrun
    exact hlost.consistent
  · intro hcareful
    obtain ⟨start, connected, howns⟩ := Machine.final_of_meets
      (fun s => ∃ start connected, Owns start connected [] s) (fun _ s i s' _ hinv hmeets hstep => by
        cases hstep
        obtain ⟨start, connected, howns⟩ := hinv
        exact ⟨s.requests, (next_owns world howns hmeets.1).2 hmeets.2⟩) ⟨0, false, owns_initial⟩
      (Machine.meets_and hpacketized hcareful) hrun
    intro b
    rw [howns.holds.inUse b, List.nil_append]

/-- A network session that takes every packet. -/
def answering : World := ⟨fun b => b, fun _ => .ok OK, fun _ => 0⟩

/-- An SPS and a small slice, two packets of the transport stream, and the first packet again. -/
def smallCalls : List Input :=
  [.connected, .queueBuffer [0, 0, 0, 1, 0x67, 0x42, 0, 0, 1, 0x65, 0x88] 0 97 .PACKETIZATION_H264,
    .queueBuffer (List.replicate 376 0x47) 40000 33 .PACKETIZATION_TRANSPORT_STREAM, .resend 0]

theorem pools_consistent_smallCalls : ∃ s,
    Machine.final (step answering) .initial smallCalls = .ok s ∧ s.mHistory = [0, 1] ∧
      Consistent s ∧ Settled s := by
  have hunits : AvcUtils.nalUnits [0, 0, 0, 1, 0x67, 0x42, 0, 0, 1, 0x65, 0x88] =
      [[0x67, 0x42], [0x65, 0x88]] := by decide +kernel
  have hanswers : ∀ start stop, Answers answering start stop := fun _ _ _ _ _ => ⟨OK, rfl⟩
  have hcareful : Machine.Meets (step answering) (fun _ => Careful answering) [] .initial
      smallCalls := by
    refine (Machine.meets_cons_of_ok rfl _).mpr ⟨trivial, ?_⟩
    refine (Machine.meets_cons_of_ok rfl _).mpr ⟨⟨?_, rfl, hanswers _ _⟩, ?_⟩
    · rw [hunits]
      simp [Packable, Measurable]
    refine (Machine.meets_cons_of_ok rfl _).mpr ⟨Or.inr (Or.inr ⟨?_, hanswers _ _⟩), ?_⟩
    · decide +kernel
    exact (Machine.meets_cons_of_ok rfl _).mpr ⟨trivial, trivial⟩
  have hmodes : ∀ i ∈ smallCalls, i.Packetized := by decide
  obtain ⟨hconsistent, hsettled⟩ :=
    pools_consistent hmodes (Machine.final_total (next answering) _ _)
  exact ⟨_, Machine.final_total (next answering) _ _, by decide +kernel, hconsistent,
    hsettled hcareful⟩

/-- A slice that fills one packet leaves the buffer fetched behind it in use. -/
theorem pools_not_settled : ¬ ∀ (world : World) (inputs : List Input) (s : State),
    (∀ i ∈ inputs, i.Packetized) → Machine.final (step world) .initial inputs = .ok s →
      Consistent s ∧ Settled s := by
  intro h
  have hsettled := (h answering [.connected, .queueBuffer
    ([0, 0, 0, 1] ++ List.replicate 1458 0x65) 0 97 .PACKETIZATION_H264] _
    (by decide) (Machine.final_total (next answering) _ _)).2 1
  exact absurd (hsettled.mp ⟨.AVC_ABUFS, by decide +kernel⟩) (by decide +kernel)

end MirrorCast.RTPSender.Queueing
