import Mathlib.Data.List.Chain
import MirrorCast.Verification.Sender.History

/-! # The packets that carry a transport stream

The runs here mix the four modes. Raw packets lie in buffers that are not pooled, so that the
history may hold others than those in use; what the pools promise of their own buffers is enough. -/

namespace MirrorCast.RTPSender.Queueing

open Java ReusePool RTPUtils

variable {s t u : State} {b b' : ℕ} {world : World} {map : BufferMap} {connected : Bool}

/-! ## Between two packets -/

/-- The pooled buffers have room for a header, inside their ranges too, and the history is counted
right. -/
structure Ready (connected : Bool) (s : State) : Prop where
  connected_eq : s.mRTPConnected = connected
  pools : Pools s
  ranges : ∀ map, ∀ b ∈ objects (s.abufs map), 12 ≤ (s.heap b).mRangeLength
  size_eq : s.mHistorySize = s.mHistory.length

namespace Ready

theorem roomy (h : Ready connected s) (hb : b ∈ objects (s.abufs map)) :
    12 ≤ (s.heap b).mData.length := by
  rw [h.pools.capacity map b hb]
  cases map with
  | TS_ABUFS => decide
  | AVC_ABUFS => decide

theorem update (h : Ready connected s) {f : PacketBuffer → PacketBuffer}
    (hdata : (f (s.heap b)).mData.length = (s.heap b).mData.length)
    (hrange : ∀ map, b ∈ objects (s.abufs map) → 12 ≤ (f (s.heap b)).mRangeLength) :
    Ready connected (s.update b f) :=
  { h with
    pools := h.pools.update hdata
    ranges := by
      intro map b' hb'
      by_cases hsame : b' = b
      · rw [hsame, State.heap_update_self]
        exact hrange map (hsame ▸ hb')
      · rw [State.heap_update_of_ne hsame]
        exact h.ranges map b' hb' }

theorem mark (h : Ready connected s) (map : BufferMap) (b : ℕ) (inUse : Bool) :
    Ready connected (s.mark map b inUse) :=
  { h with
    pools := h.pools.mark map b inUse
    ranges := fun map' b' hb' => h.ranges map' b' (s.objects_mark map map' b inUse ▸ hb') }

theorem fresh (h : Ready connected s) (capacity : ℕ) :
    Ready connected { s with
      heap := Function.update s.heap s.allocated (.new capacity)
      allocated := s.allocated + 1 } := by
  have hne (map : BufferMap) (b : ℕ) (hb : b ∈ objects (s.abufs map)) : b ≠ s.allocated :=
    Nat.ne_of_lt (h.pools.allocated map b hb)
  refine ⟨h.connected_eq, ⟨?_, h.pools.nodup, h.pools.one_map, ?_⟩, ?_, h.size_eq⟩
  · exact fun map b hb => Nat.lt_succ_of_lt (h.pools.allocated map b hb)
  · intro map b hb
    change (Function.update s.heap s.allocated _ b).mData.length = _
    rw [Function.update_of_ne (hne map b hb)]
    exact h.pools.capacity map b hb
  · intro map b hb
    change 12 ≤ (Function.update s.heap s.allocated _ b).mRangeLength
    rw [Function.update_of_ne (hne map b hb)]
    exact h.ranges map b hb

theorem pooled (h : Ready connected s) (world : World) (map : BufferMap) :
    Ready connected (s.pooled world map) where
  connected_eq := h.connected_eq
  pools := h.pools.pooled world map
  size_eq := h.size_eq
  ranges map' b hb := by
    change 12 ≤ (Function.update s.heap s.allocated _ b).mRangeLength
    rcases mem_objects_pooled.mp hb with ⟨-, rfl⟩ | hb
    · rw [Function.update_self]
      cases map with
      | TS_ABUFS => decide
      | AVC_ABUFS => decide
    · rw [Function.update_of_ne (Nat.ne_of_lt (h.pools.allocated map' b hb))]
      exact h.ranges map' b hb

theorem recycle (h : Ready connected s) (b : ℕ) : Ready connected (s.recycle b) := by
  have hreset : Ready connected (s.update b .reset) := h.update rfl fun _ hb => h.roomy hb
  unfold State.recycle
  dsimp only
  split
  · exact hreset.mark .TS_ABUFS b false
  · exact hreset.mark .AVC_ABUFS b false

end Ready

/-- What is pooled stays pooled, and nothing is numbered or sent. -/
structure Prepares (connected : Bool) (s t : State) : Prop where
  ready : Ready connected t
  pooled : ∀ map, ∀ b ∈ objects (s.abufs map), b ∈ objects (t.abufs map)
  seqNo_eq : t.mRTPSeqNo = s.mRTPSeqNo
  taken_eq : t.taken = s.taken

namespace Prepares

theorem refl (h : Ready connected s) : Prepares connected s s := ⟨h, fun _ _ => id, rfl, rfl⟩

theorem trans (h : Prepares connected s t) (h' : Prepares connected t u) :
    Prepares connected s u where
  ready := h'.ready
  pooled map b hb := h'.pooled map b (h.pooled map b hb)
  seqNo_eq := h'.seqNo_eq.trans h.seqNo_eq
  taken_eq := h'.taken_eq.trans h.taken_eq

end Prepares

theorem newABuffer_prepares (h : Ready connected s) (capacity : ℕ) :
    Ends (newABuffer capacity) s
      (fun b t => Prepares connected s t ∧ t.heap b = .new capacity)
      (fun _ _ => False) :=
  (newABuffer_ends capacity).mono (fun b t ht => by
    obtain ⟨rfl, rfl⟩ := ht
    exact ⟨⟨h.fresh capacity, fun _ _ => id, rfl, rfl⟩, Function.update_self ..⟩) fun _ _ => id

theorem getABuffer_prepares (h : Ready connected s) :
    Ends (getABuffer world map) s
      (fun b t => Prepares connected s t ∧ b ∈ objects (t.abufs map)) (fun _ _ => False) := by
  unfold getABuffer
  refine .get_bind ?_
  cases hfree : free? (s.abufs map) with
  | some b =>
      refine .modify_bind (.pure ⟨⟨h.mark map b true, fun map' b' hb' => ?_, rfl, rfl⟩, ?_⟩)
      · rwa [State.objects_mark]
      · rw [State.objects_mark]
        exact (not_inUse_of_free? (h.pools.nodup map) hfree).1
  | none =>
      refine .bind (newABuffer_ends map.capacity) ?_
      rintro _ _ ⟨rfl, rfl⟩
      refine .modify_bind (.pure ⟨⟨h.pooled world map, fun map' b' hb' => ?_, rfl, rfl⟩, ?_⟩)
      · exact mem_objects_pooled.mpr (Or.inr hb')
      · exact mem_objects_pooled.mpr (Or.inl ⟨rfl, rfl⟩)

theorem put_prepares (h : Ready connected s) (b pos : ℕ) (bytes : List UInt8) :
    Ends (put b pos bytes) s (fun _ t => Prepares connected s t)
      (fun _ t => Prepares connected s t) := by
  by_cases hfits : pos + bytes.length ≤ (s.heap b).mData.length
  · refine (put_ends hfits).mono ?_ fun _ _ => False.elim
    rintro _ _ rfl
    exact ⟨h.update (length_blit hfits) fun map hb => h.ranges map b hb, fun _ _ => id, rfl, rfl⟩
  · refine (put_throws (by omega)).mono (fun _ _ => False.elim) ?_
    rintro _ _ rfl
    exact .refl h

theorem setRange_prepares (h : Ready connected s) (b : ℕ) {size : ℕ} (hsize : 12 ≤ size) :
    Ends (setRange b size) s (fun _ t => Prepares connected s t)
      (fun _ t => Prepares connected s t) := by
  unfold setRange
  refine .get_bind (.ite (fun _ => .throw (.refl h)) fun _ => .modify ?_)
  exact ⟨h.update rfl fun _ _ => hsize, fun _ _ => id, rfl, rfl⟩

/-! ## Packing NAL units -/

/-- The packets filled and the buffer being filled are pooled, with room left for their headers. -/
structure Fills (connected : Bool) (s : State) (f : Filling) (t : State) : Prop where
  prepares : Prepares connected s t
  pooled : ∀ b ∈ f.packets ++ [f.out], b ∈ objects (t.abufs .AVC_ABUFS)
  used_ge : 12 ≤ f.outBytesUsed

variable {f : Filling} {nal : List UInt8}

theorem Fills.step (h : Fills connected s f t) (hstep : Prepares connected t u) :
    Fills connected s f u where
  prepares := h.prepares.trans hstep
  pooled b hb := hstep.pooled .AVC_ABUFS b (h.pooled b hb)
  used_ge := h.used_ge

theorem Fills.put (h : Fills connected s f t) (b pos : ℕ) (bytes : List UInt8) :
    Ends (put b pos bytes) t (fun _ u => Fills connected s f u)
      (fun _ u => Prepares connected s u) :=
  (put_prepares h.prepares.ready b pos bytes).mono (fun _ _ => h.step)
    fun _ _ => h.prepares.trans

theorem Fills.emit (h : Fills connected s f t) {size : ℕ} (hsize : 12 ≤ size) :
    Ends (f.emit world size) t (fun f' u => Fills connected s f' u)
      (fun _ u => Prepares connected s u) := by
  unfold Filling.emit
  refine .seq (setRange_prepares h.prepares.ready f.out hsize) (fun _ _ => h.prepares.trans) ?_
  intro _ t₁ h₁
  refine .seq (getABuffer_prepares h₁.ready) (fun _ _ => False.elim) ?_
  rintro b t₂ ⟨h₂, hb⟩
  have hfills := (h.step h₁).step h₂
  refine .pure ⟨hfills.prepares, fun b' hb' => ?_, le_rfl⟩
  rcases List.mem_append.mp hb' with hpacket | hout
  · exact hfills.pooled b' hpacket
  · exact List.mem_singleton.mp hout ▸ hb

theorem Fills.aggregate (h : Fills connected s f t) (bytesNeeded : ℕ) :
    Ends (f.aggregate nal bytesNeeded) t (fun f' u => Fills connected s f' u)
      (fun _ u => Prepares connected s u) := by
  unfold Filling.aggregate
  refine .bind (h.put _ _ _) fun _ t₁ h₁ => .pure ⟨h₁.prepares, h₁.pooled, ?_⟩
  exact Nat.le_add_right_of_le h₁.used_ge

theorem Fills.fragment (h : Fills connected s f t) (srcOffset : ℕ) :
    Ends (Filling.fragment world nal srcOffset f) t (fun f' u => Fills connected s f' u)
      (fun _ u => Prepares connected s u) := by
  induction hn : nal.length - srcOffset using Nat.strong_induction_on
    generalizing srcOffset f t with
  | _ n ih =>
      rw [Filling.fragment]
      refine .ite (fun hmore => .bind (h.put _ _ _) fun _ t₁ h₁ => ?_) fun _ => .pure h
      refine .bind (h₁.emit (by omega)) fun f' t₂ h₂ => ih _ ?_ h₂ _ rfl
      simp only [MAX_UDP_PACKET_SIZE]
      omega

theorem Fills.packRest (h : Fills connected s f t) (bytesNeeded : ℕ) :
    Ends (f.packRest world nal bytesNeeded) t (fun f' u => Fills connected s f' u)
      (fun _ u => Prepares connected s u) := by
  -- as in `packNAL_ends`, the body stays folded while the cases are told apart
  generalize hbody : f.packRest world nal bytesNeeded = body
  unfold Filling.packRest at hbody
  by_cases hfits : int32 (f.outBytesUsed + bytesNeeded) ≤ MAX_UDP_PACKET_SIZE
  · rw [← hbody, if_pos hfits]
    exact h.aggregate bytesNeeded
  · rw [← hbody, if_neg hfits]
    exact h.fragment 1

theorem Fills.packNAL (h : Fills connected s f t) :
    Ends (f.packNAL world nal) t (fun f' u => Fills connected s f' u)
      (fun _ u => Prepares connected s u) := by
  generalize hbody : f.packNAL world nal = body
  unfold Filling.packNAL at hbody
  dsimp only at hbody
  have hneeded : f.needed nal = nal.length + 2 + if f.outBytesUsed = 12 then 1 else 0 := rfl
  rw [← hneeded] at hbody
  by_cases hfits : int32 (f.outBytesUsed + f.needed nal) ≤ MAX_UDP_PACKET_SIZE
  · rw [← hbody, if_pos hfits]
    exact h.aggregate _
  rw [if_neg hfits] at hbody
  by_cases hsingle : f.outBytesUsed = 12 ∧
      int32 (f.outBytesUsed + nal.length) ≤ MAX_UDP_PACKET_SIZE
  · rw [← hbody, if_pos hsingle]
    unfold Filling.singleNAL
    exact .bind (h.put _ _ _) fun _ t₁ h₁ => h₁.emit (Nat.le_add_right_of_le h₁.used_ge)
  rw [if_neg hsingle] at hbody
  by_cases hused : 12 < f.outBytesUsed
  · rw [← hbody, if_pos hused]
    exact .bind (h.emit hused.le) fun f' t₁ h₁ => h₁.packRest _
  · rw [← hbody, if_neg hused]
    exact .pure_bind (h.packRest _)

theorem Fills.packNALs (h : Fills connected s f t) (nals : List (List UInt8)) :
    Ends (Filling.packNALs world nals f) t (fun f' u => Fills connected s f' u)
      (fun _ u => Prepares connected s u) := by
  induction nals generalizing f t with
  | nil => exact .pure h
  | cons nal nals ih => exact .bind h.packNAL fun f' t₁ h₁ => ih h₁

theorem Fills.finish (h : Fills connected s f t) :
    Ends f.finish t
      (fun packets u => Prepares connected s u ∧
        ∀ b ∈ packets, b ∈ objects (u.abufs .AVC_ABUFS))
      (fun _ u => Prepares connected s u) := by
  unfold Filling.finish
  refine .ite (fun hused => ?_) fun _ => .pure ⟨h.prepares, fun b hb => ?_⟩
  · refine .seq (setRange_prepares h.prepares.ready f.out hused.le) (fun _ _ => h.prepares.trans) ?_
    exact fun _ u hu => .pure ⟨h.prepares.trans hu, (h.step hu).pooled⟩
  · exact h.pooled b (List.mem_append_left _ hb)

/-! ## Sending and numbering -/

@[simp] theorem State.objects_recycle (s : State) (b : ℕ) (map : BufferMap) :
    objects ((s.recycle b).abufs map) = objects (s.abufs map) := by
  unfold State.recycle
  dsimp only
  split
  · exact (s.update b .reset).objects_mark .TS_ABUFS map b false
  · exact (s.update b .reset).objects_mark .AVC_ABUFS map b false

/-- The history is not looked at when a buffer is recycled. -/
theorem State.recycle_history (s : State) (b : ℕ) (mHistory : List ℕ) :
    State.recycle { s with mHistory } b = { s.recycle b with mHistory } := by
  unfold State.recycle
  dsimp only
  split
  · rename_i hts
    exact (if_pos hts).symm ▸ rfl
  · rename_i hts
    exact (if_neg hts).symm ▸ rfl

theorem Ready.congr (h : Ready connected s) (hheap : t.heap = s.heap)
    (hallocated : t.allocated = s.allocated) (habufs : t.abufs = s.abufs)
    (hconnected : t.mRTPConnected = s.mRTPConnected)
    (hsize : t.mHistorySize = t.mHistory.length) : Ready connected t where
  connected_eq := hconnected.trans h.connected_eq
  pools := h.pools.congr hheap hallocated habufs
  ranges := by
    rw [habufs, hheap]
    exact h.ranges
  size_eq := hsize

theorem storePacket_prepares (h : Ready connected s) (b : ℕ) :
    Ends (storePacket b) s (fun _ t => Prepares connected s t) (fun _ _ => False) := by
  unfold storePacket makeRoom
  by_cases hfull : s.mHistorySize = MAX_HISTORY_SIZE
  · obtain ⟨first, rest, hhistory⟩ : ∃ first rest, s.mHistory = first :: rest := by
      refine List.exists_cons_of_ne_nil fun hnil => ?_
      rw [h.size_eq, hnil] at hfull
      cases hfull
    refine .bind (Q := fun _ t => t = { s.recycle first with mHistory := rest }) ?_ ?_
    · refine .get_bind ?_
      rw [if_pos hfull, hhistory]
      exact .modify_bind (.modify (s.recycle_history first rest))
    rintro _ _ rfl
    obtain ⟨abufs, hrecycle⟩ := s.recycle_eq first
    have hsize : (s.recycle first).mHistorySize = (rest ++ [b]).length := by
      rw [hrecycle, List.length_append, List.length_singleton]
      change s.mHistorySize = _
      rw [h.size_eq, hhistory, List.length_cons]
    refine .modify ⟨(h.recycle first).congr rfl rfl rfl rfl hsize, fun map b' hb' => ?_, ?_, ?_⟩
    · exact (s.objects_recycle first map).symm ▸ hb'
    · rw [hrecycle]
      rfl
    · rw [hrecycle]
      rfl
  · refine .bind (Q := fun _ t => t = { s with mHistorySize := s.mHistorySize + 1 }) ?_ ?_
    · refine .get_bind ?_
      rw [if_neg hfull]
      exact .modify rfl
    rintro _ _ rfl
    have hsize : s.mHistorySize + 1 = (s.mHistory ++ [b]).length := by
      rw [h.size_eq, List.length_append, List.length_singleton]
    exact .modify ⟨h.congr rfl rfl rfl rfl hsize, fun _ _ => id, rfl, rfl⟩

/-- The network session takes every packet. -/
def Succeeds (world : World) : Prop := ∀ k, world.sendRequest k = .ok OK

/-- The sequence number in a packet. -/
def number (packet : SentPacket) : ℕ := unsignedAt packet.bytes 2 2

def Successive (m n : ℕ) : Prop := n = (m + 1) % 2 ^ 16

instance : DecidableRel Successive := fun m n => inferInstanceAs (Decidable (n = (m + 1) % 2 ^ 16))

/-- The stored packets are numbered one after the other, up to the next number. -/
structure Numbered (connected : Bool) (s : State) : Prop where
  ready : Ready connected s
  numbers : (s.stored.map number ++ [(s.mRTPSeqNo % 2 ^ 16).toNat]).IsChain Successive

theorem Numbered.prepares (h : Numbered connected s) (hprep : Prepares connected s t) :
    Numbered connected t where
  ready := hprep.ready
  numbers := by
    rw [State.stored, hprep.taken_eq, hprep.seqNo_eq]
    exact h.numbers

theorem number_of_bytes {packet : SentPacket} {packetType : UInt8} {mRTPSeqNo rtpTime : ℤ}
    {rest : List UInt8} (h : packet.bytes = rtpHeader packetType mRTPSeqNo rtpTime ++ rest) :
    number packet = (mRTPSeqNo % 2 ^ 16).toNat := by
  have hbytes : unsignedAt (rtpHeader packetType mRTPSeqNo rtpTime ++ rest) 2 2 =
      (0 * 256 + (toByte (mRTPSeqNo / 2 ^ 8)).toNat) * 256 + (toByte mRTPSeqNo).toNat := rfl
  rw [number, h, hbytes, toNat_toByte, toNat_toByte]
  omega

theorem successive_int32 (mRTPSeqNo : ℤ) :
    Successive (mRTPSeqNo % 2 ^ 16).toNat (int32 (mRTPSeqNo + 1) % 2 ^ 16).toNat := by
  have hwrap := int32_emod (mRTPSeqNo + 1)
  unfold Successive
  omega

/-- A packet with the next number is sent and stored. -/
theorem Numbered.sent (h : Numbered connected s) (hready : Ready connected t) {r : Taken}
    (htaken : t.taken = s.taken ++ [r]) (hstored : r.storeInHistory = true)
    (hnumber : number r.packet = (s.mRTPSeqNo % 2 ^ 16).toNat)
    (hnext : t.mRTPSeqNo = int32 (s.mRTPSeqNo + 1)) : Numbered connected t where
  ready := hready
  numbers := by
    have hmap : t.stored.map number =
        s.stored.map number ++ [(s.mRTPSeqNo % 2 ^ 16).toNat] := by
      rw [State.stored, htaken, List.filter_append, List.filter_cons_of_pos hstored,
        List.filter_nil, List.map_append, List.map_append, List.map_singleton,
        List.map_singleton, hnumber, State.stored]
    rw [hmap, hnext, List.isChain_append]
    refine ⟨h.numbers, List.isChain_singleton _, fun m hm n hn => ?_⟩
    rw [List.getLast?_concat] at hm
    cases hm
    cases hn
    exact successive_int32 s.mRTPSeqNo

/-- A buffer that holds a packet with the next number is sent. -/
theorem sendRTPPacket_sends (hworld : Succeeds world) (h : Numbered true s) (hready : Ready true t)
    (htaken : t.taken = s.taken) (hnext : t.mRTPSeqNo = int32 (s.mRTPSeqNo + 1))
    {packetType : UInt8} {rtpTime : ℤ} {payload : List UInt8}
    (hbytes : (t.heap b).bytes = rtpHeader packetType s.mRTPSeqNo rtpTime ++ payload)
    (timeValid : Bool) (timeUs : ℤ) :
    Ends (sendRTPPacket world b true timeValid timeUs) t
      (fun err u => err = OK ∧ Numbered true u ∧
        (∀ map, ∀ b ∈ objects (t.abufs map), b ∈ objects (u.abufs map)) ∧
        u.taken = s.taken ++ [⟨t.packet b, true, timeValid, timeUs⟩])
      (fun _ _ => False) := by
  unfold sendRTPPacket
  refine .get_bind (.when_bind (Q := fun _ u => t = u) (absurd hready.connected_eq)
    (fun _ => rfl) ?_)
  rintro _ rfl
  refine .modify_bind ?_
  rw [hworld t.requests]
  refine .ite (absurd rfl) fun _ => .modify_bind ?_
  have hrecorded : Ready true { t with
      requests := t.requests + 1, taken := t.taken ++ [⟨t.packet b, true, timeValid, timeUs⟩] } :=
    hready.congr rfl rfl rfl rfl hready.size_eq
  refine .when_bind (fun _ => storePacket_prepares hrecorded b) (absurd rfl) fun u hu => ?_
  have hsent : u.taken = s.taken ++ [⟨t.packet b, true, timeValid, timeUs⟩] :=
    hu.taken_eq.trans (congrArg (· ++ [_]) htaken)
  exact .pure ⟨rfl, h.sent hu.ready hsent rfl (number_of_bytes hbytes) (hu.seqNo_eq.trans hnext),
    hu.pooled, hsent⟩

/-! ## Filling a packet -/

theorem Ready.headed (h : Ready connected s) (hroom : 12 ≤ (s.heap b).mData.length)
    (packetType : UInt8) (rtpTime : ℤ) : Ready connected (s.headed b packetType rtpTime) :=
  (h.update (b := b) (f := fun x => { x with
      mInt32Data := s.mRTPSeqNo
      mData := blit x.mData 0 (rtpHeader packetType s.mRTPSeqNo rtpTime) })
    (length_blit (by rw [length_rtpHeader]; exact hroom))
    fun map hb => h.ranges map b hb).congr rfl rfl rfl rfl h.size_eq

theorem State.mRangeLength_headed (s : State) (b : ℕ) (packetType : UInt8) (rtpTime : ℤ) :
    ((s.headed b packetType rtpTime).heap b).mRangeLength = (s.heap b).mRangeLength := by
  change (Function.update s.heap b _ b).mRangeLength = _
  rw [Function.update_self]

/-- The header takes the place of the first bytes of the range. -/
theorem bytes_headed (hrange : 12 ≤ (s.heap b).mRangeLength) (packetType : UInt8) (rtpTime : ℤ) :
    ((s.headed b packetType rtpTime).heap b).bytes =
      rtpHeader packetType s.mRTPSeqNo rtpTime ++ (s.heap b).bytes.drop 12 := by
  rw [PacketBuffer.bytes, State.mData_headed, State.mRangeLength_headed, blit_zero,
    List.take_append, List.take_of_length_le (by rw [length_rtpHeader]; exact hrange),
    length_rtpHeader, PacketBuffer.bytes, List.drop_take]

/-- The buffer with a header, and a payload behind it. -/
def State.filled (s : State) (b : ℕ) (packetType : UInt8) (rtpTime : ℤ) (payload : List UInt8) :
    State :=
  (s.headed b packetType rtpTime).update b fun x => { x with mData := blit x.mData 12 payload }

theorem length_headed {packetType : UInt8} {rtpTime : ℤ} (hroom : 12 ≤ (s.heap b).mData.length) :
    ((s.headed b packetType rtpTime).heap b).mData.length = (s.heap b).mData.length := by
  rw [State.mData_headed]
  exact length_blit (by rw [length_rtpHeader]; exact hroom)

theorem Ready.filled (h : Ready connected s) {payload : List UInt8}
    (hroom : 12 + payload.length ≤ (s.heap b).mData.length) (packetType : UInt8) (rtpTime : ℤ) :
    Ready connected (s.filled b packetType rtpTime payload) := by
  have hheaded := h.headed (by omega : 12 ≤ (s.heap b).mData.length) packetType rtpTime
  refine hheaded.update (length_blit ?_) fun map hb => hheaded.ranges map b hb
  rw [length_headed (by omega)]
  exact hroom

/-- The bytes of a buffer up to the end of its payload. -/
theorem take_filled {payload : List UInt8} (hroom : 12 + payload.length ≤ (s.heap b).mData.length)
    (packetType : UInt8) (rtpTime : ℤ) :
    ((s.filled b packetType rtpTime payload).heap b).mData.take (12 + payload.length) =
      rtpHeader packetType s.mRTPSeqNo rtpTime ++ payload := by
  have hheader : (blit (s.heap b).mData 0 (rtpHeader packetType s.mRTPSeqNo rtpTime)).take 12 =
      rtpHeader packetType s.mRTPSeqNo rtpTime := by
    rw [blit_zero]
    exact List.take_left' (length_rtpHeader ..)
  rw [State.filled, State.heap_update_self, take_blit _ le_rfl, State.mData_headed, hheader,
    List.take_length]
  rw [length_headed (by omega)]
  omega

/-- A buffer that was made for its payload. -/
theorem bytes_filled {payload : List UInt8} (hnew : s.heap b = .new (12 + payload.length))
    (packetType : UInt8) (rtpTime : ℤ) :
    ((s.filled b packetType rtpTime payload).heap b).bytes =
      rtpHeader packetType s.mRTPSeqNo rtpTime ++ payload := by
  have hroom : 12 + payload.length ≤ (s.heap b).mData.length := by
    rw [hnew]
    exact (List.length_replicate ..).ge
  have hrange : ((s.filled b packetType rtpTime payload).heap b).mRangeLength =
      12 + payload.length := by
    rw [State.filled, State.heap_update_self]
    change ((s.headed b packetType rtpTime).heap b).mRangeLength = _
    rw [State.mRangeLength_headed, hnew]
    rfl
  rw [PacketBuffer.bytes, hrange]
  exact take_filled hroom packetType rtpTime

theorem fill_ends {payload : List UInt8} (hroom : 12 + payload.length ≤ (s.heap b).mData.length)
    {packetType : UInt8} {rtpTime : ℤ} {α : Type} {f : Unit → Sending α} {Q : α → State → Prop}
    {E : JavaException → State → Prop}
    (hrest : Ends (f ()) (s.filled b packetType rtpTime payload) Q E) :
    Ends (putHeader b packetType rtpTime >>= fun _ => put b 12 payload >>= f) s Q E := by
  refine .seq (putHeader_ends (by omega)) (fun _ _ => False.elim) ?_
  rintro _ _ rfl
  refine .seq (put_ends (by rw [length_headed (by omega)]; exact hroom)) (fun _ _ => False.elim) ?_
  rintro _ _ rfl
  exact hrest

/-! ## Transport streams -/

/-- What follows the header. -/
def Taken.payload (r : Taken) : List UInt8 := r.packet.bytes.drop 12

theorem payload_of_bytes {r : Taken} {packetType : UInt8} {mRTPSeqNo rtpTime : ℤ}
    {payload : List UInt8}
    (h : r.packet.bytes = rtpHeader packetType mRTPSeqNo rtpTime ++ payload) :
    r.payload = payload := by
  rw [Taken.payload, h]
  exact List.drop_left' (length_rtpHeader ..)

/-- Version 2, the payload type and the source. -/
structure HasHeader (packetType : UInt8) (bytes : List UInt8) : Prop where
  version : bytes.getD 0 0 >>> 6 = 2
  payloadType : bytes.getD 1 0 = packetType
  source : U32_AT bytes 8 = SOURCE_ID

theorem hasHeader_rtpHeader (packetType : UInt8) (mRTPSeqNo rtpTime : ℤ) (rest : List UInt8) :
    HasHeader packetType (rtpHeader packetType mRTPSeqNo rtpTime ++ rest) where
  version := by
    change (0x80 : UInt8) >>> 6 = 2
    decide
  payloadType := rfl
  source := rfl

/-- The packets carry the buffer, 1 to 7 TS packets each, and only the last one is time-valid. -/
structure Carries (buffer : List UInt8) (packetType : UInt8) (sent : List Taken) : Prop where
  payloads : (sent.map Taken.payload).flatten = buffer
  sizes : ∀ r ∈ sent, ∃ n, 1 ≤ n ∧ n ≤ 7 ∧ r.payload.length = n * 188
  headers : ∀ r ∈ sent, HasHeader packetType r.packet.bytes
  last : ∀ k (h : k < sent.length), (sent.get ⟨k, h⟩).timeValid = true ↔ k + 1 = sent.length
  stored : ∀ r ∈ sent, r.storeInHistory = true

namespace Carries

variable {buffer : List UInt8} {packetType : UInt8} {sent : List Taken}

theorem nil : Carries [] packetType [] where
  payloads := rfl
  sizes := nofun
  headers := nofun
  last := nofun
  stored := nofun

theorem eq_nil_iff (h : Carries buffer packetType sent) : sent = [] ↔ buffer = [] := by
  constructor
  · rintro rfl
    exact h.payloads.symm
  · rintro rfl
    refine List.eq_nil_iff_forall_not_mem.mpr fun r hr => ?_
    obtain ⟨n, hpos, -, hlength⟩ := h.sizes r hr
    have hempty : r.payload = [] :=
      List.flatten_eq_nil_iff.mp h.payloads r.payload (List.mem_map_of_mem hr)
    rw [hempty, List.length_nil] at hlength
    omega

/-- One packet more in front. -/
theorem cons (h : Carries buffer packetType sent) {r : Taken} {mRTPSeqNo rtpTime : ℤ}
    {payload : List UInt8}
    (hbytes : r.packet.bytes = rtpHeader packetType mRTPSeqNo rtpTime ++ payload) {n : ℕ}
    (hpos : 1 ≤ n) (hle : n ≤ 7) (hlength : payload.length = n * 188)
    (hlast : r.timeValid = true ↔ buffer = []) (hstored : r.storeInHistory = true) :
    Carries (payload ++ buffer) packetType (r :: sent) where
  payloads := by rw [List.map_cons, List.flatten_cons, h.payloads, payload_of_bytes hbytes]
  sizes := List.forall_mem_cons.mpr
    ⟨⟨n, hpos, hle, (payload_of_bytes hbytes).symm ▸ hlength⟩, h.sizes⟩
  headers := List.forall_mem_cons.mpr ⟨hbytes.symm ▸ hasHeader_rtpHeader .., h.headers⟩
  stored := List.forall_mem_cons.mpr ⟨hstored, h.stored⟩
  last k hk := by
    cases k with
    | zero =>
        refine hlast.trans (h.eq_nil_iff.symm.trans ?_)
        rw [List.length_cons, ← List.length_eq_zero_iff]
        omega
    | succ k =>
        refine (h.last k (Nat.lt_of_succ_lt_succ hk)).trans ?_
        rw [List.length_cons]
        omega

end Carries

variable {tsPackets : List UInt8} {timeUs : ℤ} {packetType : UInt8}

/-- The packets of the loop carry what is left of the buffer, a whole number of TS packets. -/
theorem queueTSPacketsFrom_carries (hworld : Succeeds world) {srcOffset : ℕ}
    (h : Numbered true s) (hle : srcOffset ≤ tsPackets.length)
    (hwhole : (tsPackets.length - srcOffset) % 188 = 0) :
    Ends (queueTSPacketsFrom world tsPackets timeUs packetType srcOffset) s
      (fun err t => err = OK ∧ Numbered true t ∧ ∃ sent, t.taken = s.taken ++ sent ∧
        Carries (tsPackets.drop srcOffset) packetType sent)
      (fun _ _ => False) := by
  induction hn : tsPackets.length - srcOffset using Nat.strong_induction_on
    generalizing srcOffset s with
  | _ n ih =>
      rw [queueTSPacketsFrom]
      refine .ite (fun hmore => ?_) fun hend => .pure ⟨rfl, h, [], ?_⟩
      · refine .seq (getABuffer_prepares h.ready) (fun _ _ => False.elim) ?_
        rintro b s₁ ⟨h₁, hmem⟩
        have hcapacity : (s₁.heap b).mData.length = 12 + 7 * 188 :=
          h₁.ready.pools.capacity .TS_ABUFS b hmem
        have hnumbered := h.prepares h₁
        have hcount : ∃ m, min ((tsPackets.length - srcOffset) / 188)
            MAX_NUM_TS_PACKETS_PER_RTP_PACKET = m ∧ 1 ≤ m ∧ m ≤ 7 ∧
            m * 188 ≤ tsPackets.length - srcOffset := by
          refine ⟨_, rfl, ?_⟩
          change 1 ≤ min _ 7 ∧ min _ 7 ≤ 7 ∧ min _ 7 * 188 ≤ _
          omega
        obtain ⟨m, hm, hpos, hle7, hfits⟩ := hcount
        have hchunk : ((tsPackets.drop srcOffset).take (m * 188)).length = m * 188 := by
          rw [List.length_take, List.length_drop]
          omega
        have hsplit : (tsPackets.drop srcOffset).take (m * 188) ++
            tsPackets.drop (srcOffset + m * 188) = tsPackets.drop srcOffset := by
          rw [← List.drop_drop]
          exact List.take_append_drop ..
        refine .get_bind ?_
        dsimp only
        rw [hm]
        generalize (tsPackets.drop srcOffset).take (m * 188) = payload at hchunk hsplit ⊢
        generalize rtpTime (world.clock s₁.requests) = time
        rw [← hchunk]
        have hroom : 12 + payload.length ≤ (s₁.heap b).mData.length := by omega
        have h₂ := h₁.ready.filled hroom packetType time
        refine fill_ends hroom (.seq (setRange_ends ?_) (fun _ _ => False.elim) ?_)
        · rw [h₂.pools.capacity .TS_ABUFS b hmem, hchunk]
          exact Nat.add_le_add_left (Nat.mul_le_mul_right 188 hle7) 12
        rintro _ _ rfl
        have hbytes : (((s₁.filled b packetType time payload).update b fun x => { x with
            mRangeLength := 12 + payload.length }).heap b).bytes =
            rtpHeader packetType s₁.mRTPSeqNo time ++ payload := by
          rw [State.heap_update_self]
          exact take_filled hroom packetType time
        refine .seq (sendRTPPacket_sends hworld hnumbered
          (h₂.update rfl fun _ _ => Nat.le_add_right 12 _) rfl rfl hbytes _ _)
          (fun _ _ => False.elim) ?_
        rintro err t ⟨rfl, ht, -, htaken⟩
        rw [if_neg (not_not.mpr rfl)]
        refine (ih _ (by omega) ht (by omega) (by omega) rfl).mono ?_ fun _ _ => False.elim
        rintro err u ⟨herr, hu, sent, hsent, hcarries⟩
        refine ⟨herr, hu, _ :: sent, by rw [hsent, htaken, h₁.taken_eq, List.append_assoc]; rfl, ?_⟩
        rw [hchunk] at hcarries
        refine hsplit ▸ hcarries.cons hbytes hpos hle7 hchunk ?_ rfl
        rw [beq_iff_eq, List.drop_eq_nil_iff, hchunk]
        omega
      · have hrest : tsPackets.drop srcOffset = [] := List.drop_eq_nil_of_le (by omega)
        rw [hrest]
        exact ⟨(List.append_nil _).symm, .nil⟩

theorem queueTSPackets_carries (hworld : Succeeds world) (h : Numbered true s)
    (hwhole : tsPackets.length % 188 = 0) :
    Ends (queueTSPackets world tsPackets timeUs packetType) s
      (fun err t => err = OK ∧ Numbered true t ∧ ∃ sent, t.taken = s.taken ++ sent ∧
        Carries tsPackets packetType sent)
      (fun _ _ => False) := by
  unfold queueTSPackets
  refine .ite (absurd hwhole) fun _ => ?_
  exact queueTSPacketsFrom_carries hworld h (Nat.zero_le _) hwhole

/-! ## The other queue methods -/

theorem queueRawPacket_numbered (hworld : Succeeds world) (h : Numbered true s) :
    Ends (queueRawPacket world tsPackets timeUs packetType) s (fun _ t => Numbered true t)
      (fun _ t => Numbered true t) := by
  unfold queueRawPacket
  refine .ite (fun _ => .throw_bind h) fun _ => ?_
  refine .seq (newABuffer_prepares h.ready _) (fun _ _ => False.elim) ?_
  rintro b s₁ ⟨h₁, hnew⟩
  have hroom : 12 + tsPackets.length ≤ (s₁.heap b).mData.length := by
    rw [hnew]
    exact (List.length_replicate ..).ge
  refine fill_ends hroom (.get_bind ?_)
  exact (sendRTPPacket_sends hworld (h.prepares h₁)
    (h₁.ready.filled hroom packetType (rtpTime timeUs)) rfl rfl (bytes_filled hnew _ _) _ _).mono
    (fun _ _ ht => ht.2.1) fun _ _ => False.elim

theorem sendPackets_numbered (hworld : Succeeds world) (h : Numbered true s) {time : ℤ}
    {packets : List ℕ} (hpooled : ∀ b ∈ packets, b ∈ objects (s.abufs .AVC_ABUFS)) :
    Ends (sendPackets world packetType time packets) s (fun _ t => Numbered true t)
      (fun _ _ => False) := by
  induction packets generalizing s with
  | nil => exact .pure h
  | cons outBuf packets ih =>
      obtain ⟨hout, hrest⟩ := List.forall_mem_cons.mp hpooled
      have hroom := h.ready.roomy hout
      refine .seq (putHeader_ends hroom) (fun _ _ => False.elim) ?_
      rintro _ _ rfl
      generalize (if packets = [] then packetType ||| 0x80 else packetType) = marked
      have hbytes : ((s.headed outBuf marked time).heap outBuf).bytes =
          rtpHeader marked s.mRTPSeqNo time ++ (s.heap outBuf).bytes.drop 12 :=
        bytes_headed (h.ready.ranges .AVC_ABUFS outBuf hout) marked time
      refine .seq (sendRTPPacket_sends hworld h (h.ready.headed hroom marked time) rfl rfl hbytes
        _ _) (fun _ _ => False.elim) ?_
      rintro err t ⟨rfl, ht, hkept, -⟩
      rw [if_neg (not_not.mpr rfl)]
      exact ih ht fun b hb => hkept .AVC_ABUFS b (hrest b hb)

theorem queueAVCBuffer_numbered (hworld : Succeeds world) (h : Numbered true s)
    {accessUnit : List UInt8} :
    Ends (queueAVCBuffer world accessUnit timeUs packetType) s (fun _ t => Numbered true t)
      (fun _ t => Numbered true t) := by
  unfold queueAVCBuffer
  refine .seq (getABuffer_prepares h.ready) (fun _ _ => False.elim) ?_
  rintro out s₁ ⟨h₁, hout⟩
  have hstart : Fills true s ⟨[], out, 12⟩ s₁ :=
    ⟨h₁, fun b hb => List.mem_singleton.mp hb ▸ hout, le_rfl⟩
  refine .seq (hstart.packNALs _) (fun _ _ ht => h.prepares ht) fun f s₂ h₂ => ?_
  refine .seq h₂.finish (fun _ _ ht => h.prepares ht) fun packets s₃ h₃ => ?_
  exact (sendPackets_numbered hworld (h.prepares h₃.1) h₃.2).mono (fun _ _ ht => ht)
    fun _ _ => False.elim

/-! ## Runs -/

theorem queueBuffer_numbered (hworld : Succeeds world) (h : Numbered true s) {buffer : List UInt8}
    (mode : PacketizationMode) :
    Ends (queueBuffer world buffer timeUs packetType mode) s (fun _ t => Numbered true t)
      (fun _ t => Numbered true t) := by
  cases mode with
  | PACKETIZATION_NONE => exact queueRawPacket_numbered hworld h
  | PACKETIZATION_TRANSPORT_STREAM =>
      by_cases hwhole : buffer.length % 188 = 0
      · exact (queueTSPackets_carries hworld h hwhole).mono (fun _ _ ht => ht.2.1)
          fun _ _ => False.elim
      · unfold queueBuffer queueTSPackets
        exact .ite (fun _ => .throw_bind h) fun hnot => absurd hwhole hnot
  | PACKETIZATION_H264 => exact queueAVCBuffer_numbered hworld h
  | PACKETIZATION_AAC => exact .throw h

theorem resend_numbered (h : Numbered connected s) :
    Ends (sendRTPPacket world b false false (-1)) s (fun _ t => Numbered connected t)
      (fun _ t => Numbered connected t) := by
  unfold sendRTPPacket
  refine .get_bind (.when_bind (Q := fun _ t => s = t) (fun _ => .throw h) (fun _ => rfl) ?_)
  rintro _ rfl
  have hcounted : Numbered connected { s with requests := s.requests + 1 } :=
    h.prepares ⟨h.ready.congr rfl rfl rfl rfl h.ready.size_eq, fun _ _ => id, rfl, rfl⟩
  refine .modify_bind ?_
  cases world.sendRequest s.requests with
  | error e => exact .throw hcounted
  | ok err =>
      dsimp only
      refine .ite (fun _ => .pure hcounted) fun _ => .modify_bind ?_
      refine .when_bind (Q := fun _ t => Numbered connected t) (fun h => nomatch h) (fun _ => ?_)
        fun _ ht => .pure ht
      refine ⟨h.ready.congr rfl rfl rfl rfl h.ready.size_eq, ?_⟩
      rw [State.stored, List.filter_append, List.map_append]
      change ((s.stored ++ []).map number ++ _).IsChain Successive
      rw [List.append_nil]
      exact h.numbers

/-- What is queued is queued while the session is connected. -/
def Queues (s : State) : Input → Prop
  | .queueBuffer .. => s.mRTPConnected = true
  | _ => True

theorem next_numbered (hworld : Succeeds world) {i : Input} (h : Numbered connected s)
    (hopen : Queues s i) : ∃ connected', Numbered connected' (next world s i) := by
  cases i with
  | queueBuffer buffer timeUs packetType mode =>
      obtain rfl : connected = true := h.ready.connected_eq.symm.trans hopen
      exact ⟨true, (queueBuffer_numbered hworld h mode).state⟩
  | resend packet =>
      refine ⟨connected, ?_⟩
      unfold next
      dsimp only
      split
      · exact (resend_numbered h).state
      · exact h
  | connected =>
      have hpools := h.ready.pools.congr (t := next world s .connected) rfl rfl rfl
      exact ⟨true, ⟨rfl, hpools, h.ready.ranges, h.ready.size_eq⟩, h.numbers⟩

theorem numbered_initial : Numbered false .initial where
  ready := ⟨rfl, owns_initial.holds.pools, by simp [State.initial, objects], rfl⟩
  numbers := List.isChain_singleton _

/-- In every run of the four modes in which sends succeed, the packets are numbered one after the
other, and a call with a whole number of TS packets sends packets that carry them. -/
theorem transportStream_carried {inputs : List Input} (hworld : Succeeds world)
    (hopen : Machine.Meets (step world) (fun _ => Queues) [] .initial inputs)
    (hrun : Machine.final (step world) .initial inputs = .ok s) :
    (s.stored.map number).IsChain Successive ∧
      ∀ tsPackets timeUs packetType, s.mRTPConnected = true → tsPackets.length % 188 = 0 →
        ∃ t sent, (queueBuffer world tsPackets timeUs packetType
            .PACKETIZATION_TRANSPORT_STREAM).run s = (.ok OK, t) ∧
          t.taken = s.taken ++ sent ∧ Carries tsPackets packetType sent := by
  obtain ⟨connected, h⟩ := Machine.final_of_meets (fun s => ∃ connected, Numbered connected s)
    (fun _ s i s' _ hinv hqueues hstep => by
      cases hstep
      obtain ⟨connected, h⟩ := hinv
      exact next_numbered hworld h hqueues) ⟨false, numbered_initial⟩ hopen hrun
  refine ⟨(List.isChain_append.mp h.numbers).1, ?_⟩
  intro tsPackets timeUs packetType hconnected hwhole
  obtain rfl : connected = true := h.ready.connected_eq.symm.trans hconnected
  obtain ⟨err, t, hcall, rfl, -, sent, hsent, hcarries⟩ :=
    (queueTSPackets_carries hworld h hwhole).returns
  exact ⟨t, sent, hcall, hsent, hcarries⟩

/-- Raw bytes, an access unit, the first packet again, and eight TS packets. -/
def mixedCalls : List Input :=
  [.connected, .queueBuffer [1, 2, 3] 0 33 .PACKETIZATION_NONE,
    .queueBuffer [0, 0, 0, 1, 0x67, 0x42, 0, 0, 1, 0x65, 0x88] 0 97 .PACKETIZATION_H264,
    .resend 0,
    .queueBuffer (List.replicate 1504 0x47) 40000 33 .PACKETIZATION_TRANSPORT_STREAM]

theorem transportStream_carried_mixedCalls : ∃ s,
    Machine.final (step answering) .initial mixedCalls = .ok s ∧
      s.stored.map number = [0, 1, 2, 3] ∧ (s.stored.map number).IsChain Successive ∧
      ∃ t sent, (queueBuffer answering (List.replicate 188 0x47) 80000 33
          .PACKETIZATION_TRANSPORT_STREAM).run s = (.ok OK, t) ∧
        t.taken = s.taken ++ sent ∧ Carries (List.replicate 188 0x47) 33 sent := by
  have hworld : Succeeds answering := fun _ => rfl
  have hopen : Machine.Meets (step answering) (fun _ => Queues) [] .initial mixedCalls := by
    refine (Machine.meets_cons_of_ok rfl _).mpr ⟨trivial, ?_⟩
    refine (Machine.meets_cons_of_ok rfl _).mpr ⟨rfl, ?_⟩
    refine (Machine.meets_cons_of_ok rfl _).mpr ⟨?_, ?_⟩
    · change State.mRTPConnected _ = true
      decide +kernel
    refine (Machine.meets_cons_of_ok rfl _).mpr ⟨trivial, ?_⟩
    refine (Machine.meets_cons_of_ok rfl _).mpr ⟨?_, trivial⟩
    change State.mRTPConnected _ = true
    decide +kernel
  obtain ⟨hnumbers, hcalls⟩ :=
    transportStream_carried hworld hopen (Machine.final_total (next answering) _ _)
  exact ⟨_, Machine.final_total (next answering) _ _, by decide +kernel, hnumbers,
    hcalls _ 80000 33 (by decide +kernel) (by rw [List.length_replicate])⟩

end MirrorCast.RTPSender.Queueing
