import MirrorCast.Verification.Avc.Packing
import MirrorCast.Verification.Avc.Splitting

/-! # Packetization of a whole access unit -/

namespace MirrorCast.Avc

open Java AnnexB Rfc6184 RTPSender

/-! ## One NAL unit -/

/-- The packet that goes out before a NAL unit that does not fit behind it. -/
def flushed (s : Packing) : List (List UInt8) := if payload s = [] then [] else [payload s]

/-- What packing a NAL unit comes to. -/
inductive Packed (s : Packing) (nal : List UInt8) (s' : Packing) : Prop where
  | aggregated
      (hfits : s.outBytesUsed + (joining s.outBytesUsed nal).length ≤ MAX_UDP_PACKET_SIZE)
      (hsent : payloads s' = payloads s)
      (hcurrent : payload s' = payload s ++ joining s.outBytesUsed nal)
  | single
      (hsize : s.outBytesUsed + (joining s.outBytesUsed nal).length < 2 ^ 31)
      (hfull : MAX_UDP_PACKET_SIZE < s.outBytesUsed + (joining s.outBytesUsed nal).length)
      (hempty : payload s = [])
      (hsent : payloads s' = payloads s ++ [nal]) (hcurrent : payload s' = [])
  | fragmented
      (hsize : s.outBytesUsed + (joining s.outBytesUsed nal).length < 2 ^ 31)
      (hfull : MAX_UDP_PACKET_SIZE < s.outBytesUsed + (joining s.outBytesUsed nal).length)
      (hlong : FRAGMENT_SIZE < nal.length)
      (halone : payload s = [] → MAX_UDP_PACKET_SIZE < 12 + nal.length)
      (hsent : payloads s' = payloads s ++ flushed s ++ fragmentPayloads nal 1)
      (hcurrent : payload s' = [])
  | truncated
      (hfull : MAX_UDP_PACKET_SIZE < s.outBytesUsed + (joining s.outBytesUsed nal).length)
      (hpending : payload s ≠ [])
      (hshort : 12 + nal.length + 2 ≤ MAX_UDP_PACKET_SIZE)
      (hsent : payloads s' = payloads s ++ [payload s])
      (hcurrent : payload s' = (STAP_A :: aggregationUnit nal).take (nal.length + 2))

/-- The loop packs a NAL unit correctly behind `used` bytes: the sum it compares does not
overflow, and the unit fits into the packet, or the packet is empty, or the unit needs more
than one fragment. -/
def Roomy (used : ℕ) (nal : List UInt8) : Prop :=
  used + (joining used nal).length < 2 ^ 31 ∧
    (used + (joining used nal).length ≤ MAX_UDP_PACKET_SIZE ∨ used = 12 ∨
      1 + FRAGMENT_SIZE < nal.length)

instance (used : ℕ) (nal : List UInt8) : Decidable (Roomy used nal) :=
  inferInstanceAs (Decidable (_ ∧ _))

/-- The comparison in the loop, on natural numbers. -/
theorem int32_le_capacity {n : ℕ} (h : n < 2 ^ 31) :
    int32 (n : ℤ) ≤ MAX_UDP_PACKET_SIZE ↔ n ≤ MAX_UDP_PACKET_SIZE := by
  rw [int32_natCast h]
  exact_mod_cast Iff.rfl

theorem bytesNeeded_eq (used : ℕ) (nal : List UInt8) :
    nal.length + 2 + (if used = 12 then 1 else 0) = (joining used nal).length :=
  (length_joining used nal).symm

/-- The body of the loop, in terms of the bytes that would be written. -/
theorem packNAL_eq (pool : Pool) (s : Packing) (nal : List UInt8) {n : ℕ}
    (hn : n = (joining s.outBytesUsed nal).length) :
    Packing.packNAL pool s nal =
      if int32 ((s.outBytesUsed + n : ℕ) : ℤ) ≤ MAX_UDP_PACKET_SIZE then
        Packing.aggregate s nal n
      else if s.outBytesUsed = 12 ∧
          int32 ((s.outBytesUsed + nal.length : ℕ) : ℤ) ≤ MAX_UDP_PACKET_SIZE then
        Packing.singleNAL pool s nal
      else
        (if 12 < s.outBytesUsed then Packing.emit pool s s.outBytesUsed else .ok s) >>= fun s₁ =>
          if int32 ((s₁.outBytesUsed + n : ℕ) : ℤ) ≤ MAX_UDP_PACKET_SIZE then
            Packing.aggregate s₁ nal n
          else Packing.fragment pool nal 1 s₁ := by
  unfold Packing.packNAL
  rw [bytesNeeded_eq, ← hn]
  simp only [Nat.cast_add]
  split
  · rfl
  · split
    · rfl
    · split <;> rfl

theorem packNAL_outcome (pool : Pool) {s : Packing} {nal : List UInt8} (h : Valid s)
    (hlength : nal.length < 2 ^ 31) :
    (∃ s', Packing.packNAL pool s nal = .ok s' ∧ Valid s' ∧ Packed s nal s') ∨
      ((∃ e, Packing.packNAL pool s nal = .error e) ∧ ¬ Roomy s.outBytesUsed nal) := by
  have hused := h.used_le
  have hlo := h.header_le
  have hjoin := length_joining s.outBytesUsed nal
  have hcapacity : MAX_UDP_PACKET_SIZE = 1472 := rfl
  have hfragment : FRAGMENT_SIZE = 1458 := rfl
  rw [packNAL_eq pool s nal rfl]
  by_cases hsize : s.outBytesUsed + (joining s.outBytesUsed nal).length < 2 ^ 31
  swap
  · -- the sum is negative as an `int`, and the unit is written over the end of the buffer
    right
    have hneg : int32 ((s.outBytesUsed + (joining s.outBytesUsed nal).length : ℕ) : ℤ) ≤
        MAX_UDP_PACKET_SIZE := by
      rw [int32_wraps (by omega) (by split at hjoin <;> omega)]
      split at hjoin <;> omega
    rw [if_pos hneg]
    exact ⟨⟨_, aggregate_error h (by omega)⟩, fun hroomy => hsize hroomy.1⟩
  by_cases hfits : s.outBytesUsed + (joining s.outBytesUsed nal).length ≤ MAX_UDP_PACKET_SIZE
  · left
    rw [if_pos ((int32_le_capacity hsize).mpr hfits)]
    obtain ⟨s', hs', hvalid, hsent, hcurrent, -⟩ :=
      aggregate_ok h hfits (by rw [hjoin]; omega) le_rfl
    rw [List.take_length] at hcurrent
    exact ⟨s', hs', hvalid, .aggregated hfits hsent hcurrent⟩
  have hfull := Nat.lt_of_not_le hfits
  rw [if_neg (fun hle => hfits ((int32_le_capacity hsize).mp hle))]
  by_cases hempty : s.outBytesUsed = 12
  · have hpayload := (payload_eq_nil_iff h).mpr hempty
    rw [if_pos hempty] at hjoin
    left
    by_cases hsingle : 12 + nal.length ≤ MAX_UDP_PACKET_SIZE
    · rw [if_pos ⟨hempty, (int32_le_capacity (by omega)).mpr (by omega)⟩]
      obtain ⟨s', hs', hvalid, hsent, hcurrent⟩ := singleNAL_ok pool h hempty hsingle
      exact ⟨s', hs', hvalid, .single hsize hfull hpayload hsent hcurrent⟩
    · have hnot : ¬ int32 ((s.outBytesUsed + nal.length : ℕ) : ℤ) ≤ MAX_UDP_PACKET_SIZE := by
        rw [int32_le_capacity (by omega)]
        omega
      rw [if_neg (fun hboth => hnot hboth.2), if_neg (by omega), ok_bind,
        if_neg (fun hle => hfits ((int32_le_capacity hsize).mp hle))]
      obtain ⟨s', hs', hvalid, hsent, hcurrent⟩ := fragment_ok pool nal 1 h hpayload
      refine ⟨s', hs', hvalid, .fragmented hsize hfull (by omega) (fun _ => by omega) ?_ hcurrent⟩
      rw [hsent, flushed, if_pos hpayload, List.append_nil]
  · have hpayload : payload s ≠ [] := fun hnil => hempty ((payload_eq_nil_iff h).mp hnil)
    rw [if_neg hempty] at hjoin
    obtain ⟨s₁, hs₁, hvalid₁, hsent₁, hcurrent₁⟩ := flush_ok pool h
    have hempty₁ := (payload_eq_nil_iff hvalid₁).mp hcurrent₁
    rw [if_neg (fun hboth => hempty hboth.1), if_pos (by omega), hs₁, ok_bind]
    have hsmall : s₁.outBytesUsed + (joining s.outBytesUsed nal).length < 2 ^ 31 := by omega
    by_cases hshort : 12 + nal.length + 2 ≤ MAX_UDP_PACKET_SIZE
    · rw [if_pos ((int32_le_capacity hsmall).mpr (by omega))]
      have hjoin₁ := length_joining s₁.outBytesUsed nal
      rw [if_pos hempty₁] at hjoin₁
      by_cases hroom : s₁.outBytesUsed + (joining s₁.outBytesUsed nal).length ≤
          MAX_UDP_PACKET_SIZE
      · left
        obtain ⟨s', hs', hvalid, hsent, hcurrent, -⟩ :=
          aggregate_ok hvalid₁ hroom (show 0 < (joining s.outBytesUsed nal).length by omega)
            (by omega)
        refine ⟨s', hs', hvalid, .truncated hfull hpayload hshort (hsent.trans hsent₁) ?_⟩
        rw [hcurrent, hcurrent₁, List.nil_append, hjoin, joining, if_pos hempty₁]
      · right
        refine ⟨⟨_, aggregate_error hvalid₁ (Nat.lt_of_not_le hroom)⟩, ?_⟩
        rintro ⟨-, hroomy⟩
        omega
    · left
      rw [if_neg (fun hle => hshort (by have := (int32_le_capacity hsmall).mp hle; omega))]
      obtain ⟨s', hs', hvalid, hsent, hcurrent⟩ := fragment_ok pool nal 1 hvalid₁ hcurrent₁
      refine ⟨s', hs', hvalid, .fragmented hsize hfull (by omega)
        (fun hnil => absurd hnil hpayload) ?_ hcurrent⟩
      rw [hsent, hsent₁, flushed, if_neg hpayload]

/-! ## What has been packed so far -/

/-- The NAL units packed so far: those in the packets sent, then those in the buffer. -/
def Holds (s : Packing) (nals : List (List UInt8)) : Prop :=
  ∃ sent current, nals = sent ++ current ∧ depacketize (payloads s) = some sent ∧
    (∀ nal ∈ current, 0 < nal.length ∧ nal.length < 2 ^ 16) ∧
    payload s = if current = [] then [] else STAP_A :: current.flatMap aggregationUnit

theorem depacketize_single (nal : NalUnit) : depacketize [nal.bytes] = some [nal.bytes] := by
  rw [depacketize, NalUnit.bytes, List.mapM_cons, parse_single nal.type_bounds.1 nal.type_bounds.2]
  rfl

theorem depacketize_aggregation {nals : List (List UInt8)} (hne : nals ≠ [])
    (h : ∀ nal ∈ nals, 0 < nal.length ∧ nal.length < 2 ^ 16) :
    depacketize [STAP_A :: nals.flatMap aggregationUnit] = some nals := by
  rw [depacketize, List.mapM_cons, parse_aggregation hne h]
  show some (nals ++ []) = some nals
  rw [List.append_nil]

/-- Sending the collected payload moves its NAL units to the packets. -/
theorem depacketize_flushed {s : Packing} {nals : List (List UInt8)} (h : Holds s nals) :
    depacketize (payloads s ++ flushed s) = some nals := by
  obtain ⟨sent, current, rfl, hsent, hsizes, hcurrent⟩ := h
  by_cases hnil : current = []
  · rw [if_pos hnil] at hcurrent
    rw [flushed, if_pos hcurrent, List.append_nil, hnil, List.append_nil, hsent]
  · rw [if_neg hnil] at hcurrent
    rw [flushed, hcurrent, if_neg (List.cons_ne_nil _ _)]
    exact depacketize_append hsent (depacketize_aggregation hnil hsizes)

theorem holds_of_sent {s : Packing} {nals : List (List UInt8)}
    (hsent : depacketize (payloads s) = some nals) (hcurrent : payload s = []) : Holds s nals :=
  ⟨nals, [], (List.append_nil nals).symm, hsent, by simp, by rw [hcurrent, if_pos rfl]⟩

theorem holds_packed {s s' : Packing} {nals : List (List UInt8)} {nal : NalUnit} (h : Valid s)
    (hholds : Holds s nals) (hroomy : Roomy s.outBytesUsed nal.bytes)
    (hpacked : Packed s nal.bytes s') : Holds s' (nals ++ [nal.bytes]) := by
  have hflushed := depacketize_flushed hholds
  cases hpacked with
  | aggregated hfits hsent hcurrent =>
      obtain ⟨sent, current, rfl, hdepack, hsizes, hpayload⟩ := hholds
      have hlength := length_joining s.outBytesUsed nal.bytes
      have hcapacity : MAX_UDP_PACKET_SIZE = 1472 := rfl
      refine ⟨sent, current ++ [nal.bytes], List.append_assoc _ _ _, by rw [hsent, hdepack], ?_,
        ?_⟩
      · intro nal' hnal'
        rcases List.mem_append.mp hnal' with hnal' | hnal'
        · exact hsizes nal' hnal'
        · rw [List.mem_singleton.mp hnal']
          exact ⟨nal.length_bytes_pos, by omega⟩
      · rw [hcurrent, joining]
        by_cases hnil : current = []
        · rw [if_pos hnil] at hpayload
          rw [hpayload, if_pos ((payload_eq_nil_iff h).mp hpayload), hnil]
          simp
        · rw [if_neg hnil] at hpayload
          have hne : ¬ s.outBytesUsed = 12 := by
            rw [← payload_eq_nil_iff h, hpayload]
            exact List.cons_ne_nil _ _
          rw [hpayload, if_neg hne]
          simp
  | single hsize hfull hempty hsent hcurrent =>
      rw [flushed, if_pos hempty, List.append_nil] at hflushed
      refine holds_of_sent ?_ hcurrent
      rw [hsent]
      exact depacketize_append hflushed (depacketize_single nal)
  | fragmented hsize hfull hlong halone hsent hcurrent =>
      refine holds_of_sent ?_ hcurrent
      rw [hsent]
      refine depacketize_append hflushed (depacketize_fragments nal ?_)
      have hcapacity : MAX_UDP_PACKET_SIZE = 1472 := rfl
      have hfragment : FRAGMENT_SIZE = 1458 := rfl
      rcases hroomy.2 with hfits | hempty | hlong'
      · omega
      · have hlong' := halone ((payload_eq_nil_iff h).mpr hempty)
        omega
      · exact hlong'
  | truncated hfull hpending hshort hsent hcurrent =>
      have hcapacity : MAX_UDP_PACKET_SIZE = 1472 := rfl
      have hfragment : FRAGMENT_SIZE = 1458 := rfl
      rcases hroomy.2 with hfits | hempty | hlong'
      · omega
      · exact absurd ((payload_eq_nil_iff h).mpr hempty) hpending
      · omega

/-! ## The bytes packed so far -/

/-- The bytes that the packets sent and the buffer will be read as. -/
def carried (s : Packing) : ℕ := ((payloads s).map weight).sum + weight (payload s)

theorem weight_aggregation (body : List UInt8) : weight (STAP_A :: body) = body.length := by
  rw [weight_cons, if_neg (by decide), if_pos (by decide)]

theorem weight_nal (nal : NalUnit) : weight nal.bytes = nal.bytes.length + 2 := by
  have htotal := total_depacketize (depacketize_single nal)
  simpa using htotal.symm

theorem sum_weight_flushed (s : Packing) : ((flushed s).map weight).sum = weight (payload s) := by
  unfold flushed
  split
  · rename_i hnil
    rw [hnil]
    rfl
  · simp

/-- A NAL unit adds its bytes and size, or less when it is not packed correctly. -/
theorem carried_packed {s s' : Packing} {nal : NalUnit} (h : Valid s)
    (hpacked : Packed s nal.bytes s') :
    carried s' ≤ carried s + (nal.bytes.length + 2) ∧
      (¬ Roomy s.outBytesUsed nal.bytes → carried s' < carried s + (nal.bytes.length + 2)) := by
  unfold carried
  cases hpacked with
  | aggregated hfits hsent hcurrent =>
      have hcapacity : MAX_UDP_PACKET_SIZE = 1472 := rfl
      have hroomy : Roomy s.outBytesUsed nal.bytes := ⟨by omega, Or.inl hfits⟩
      refine ⟨?_, fun hnot => absurd hroomy hnot⟩
      rw [hsent, hcurrent, joining]
      rcases h.aggregation with hnil | ⟨body, hbody⟩
      · rw [hnil, if_pos ((payload_eq_nil_iff h).mp hnil), List.nil_append, weight_aggregation,
          length_aggregationUnit]
        omega
      · have hne : ¬ s.outBytesUsed = 12 := by
          rw [← payload_eq_nil_iff h, hbody]
          exact List.cons_ne_nil _ _
        rw [hbody, if_neg hne, List.cons_append, weight_aggregation, weight_aggregation,
          List.length_append, length_aggregationUnit, Nat.add_assoc]
  | single hsize hfull hempty hsent hcurrent =>
      have hroomy : Roomy s.outBytesUsed nal.bytes :=
        ⟨hsize, Or.inr (Or.inl ((payload_eq_nil_iff h).mp hempty))⟩
      refine ⟨?_, fun hnot => absurd hroomy hnot⟩
      rw [hsent, hcurrent, hempty]
      simp [weight_nal, show weight [] = 0 from rfl]
  | fragmented hsize hfull hlong halone hsent hcurrent =>
      have hflushed := sum_weight_flushed s
      rw [hsent, hcurrent]
      simp only [List.map_append, List.sum_append, hflushed, show weight [] = 0 from rfl,
        Nat.add_zero]
      by_cases hmany : 1 + FRAGMENT_SIZE < nal.bytes.length
      · have hroomy : Roomy s.outBytesUsed nal.bytes := ⟨hsize, Or.inr (Or.inr hmany)⟩
        have htotal := total_depacketize (depacketize_fragments nal hmany)
        rw [total_cons, total_nil, Nat.add_zero] at htotal
        refine ⟨?_, fun hnot => absurd hroomy hnot⟩
        omega
      · have hpos : 0 < FRAGMENT_SIZE := by decide
        have hless := weight_single_fragment (show 1 < nal.bytes.length by omega)
          (Nat.le_of_not_lt hmany)
        omega
  | truncated hfull hpending hshort hsent hcurrent =>
      have hweight : weight ((STAP_A :: aggregationUnit nal.bytes).take (nal.bytes.length + 2)) =
          nal.bytes.length + 1 := by
        rw [List.take_succ_cons, weight_aggregation, List.length_take, length_aggregationUnit]
        omega
      rw [hsent, hcurrent, hweight]
      simp only [List.map_append, List.sum_append, List.map_cons, List.map_nil, List.sum_cons,
        List.sum_nil]
      omega

/-! ## Runs -/

/-- Every NAL unit finds the packet filled so that it is packed correctly. -/
def AllRoomy : ℕ → List (List UInt8) → Prop
  | _, [] => True
  | used, nal :: nals =>
      Roomy used nal ∧
        AllRoomy (if used + (joining used nal).length ≤ MAX_UDP_PACKET_SIZE then
          used + (joining used nal).length else 12) nals

theorem used_packed {s s' : Packing} {nal : List UInt8} (h : Valid s) (h' : Valid s')
    (hroomy : Roomy s.outBytesUsed nal) (hpacked : Packed s nal s') :
    s'.outBytesUsed = if s.outBytesUsed + (joining s.outBytesUsed nal).length ≤
      MAX_UDP_PACKET_SIZE then s.outBytesUsed + (joining s.outBytesUsed nal).length else 12 := by
  have hlength := length_payload h
  have hlength' := length_payload h'
  have hlo := h.header_le
  have hlo' := h'.header_le
  cases hpacked with
  | aggregated hfits hsent hcurrent =>
      rw [hcurrent, List.length_append] at hlength'
      rw [if_pos hfits]
      omega
  | single hsize hfull hempty hsent hcurrent =>
      rw [if_neg (Nat.not_le_of_lt hfull)]
      exact (payload_eq_nil_iff h').mp hcurrent
  | fragmented hsize hfull hlong halone hsent hcurrent =>
      rw [if_neg (Nat.not_le_of_lt hfull)]
      exact (payload_eq_nil_iff h').mp hcurrent
  | truncated hfull hpending hshort hsent hcurrent =>
      have hcapacity : MAX_UDP_PACKET_SIZE = 1472 := rfl
      have hfragment : FRAGMENT_SIZE = 1458 := rfl
      rcases hroomy.2 with hfits | hempty | hlong'
      · omega
      · exact absurd ((payload_eq_nil_iff h).mpr hempty) hpending
      · omega

/-- When all NAL units find room, the loop packs them all. -/
theorem pack_ok (pool : Pool) (nals : List NalUnit) {s : Packing} {done : List (List UInt8)}
    (h : Valid s) (hholds : Holds s done) (hlength : ∀ nal ∈ nals, nal.bytes.length < 2 ^ 31)
    (hroomy : AllRoomy s.outBytesUsed (nals.map NalUnit.bytes)) :
    ∃ s', (nals.map NalUnit.bytes).foldlM (Packing.packNAL pool) s = .ok s' ∧ Valid s' ∧
      Holds s' (done ++ nals.map NalUnit.bytes) := by
  induction nals generalizing s done with
  | nil =>
      refine ⟨s, rfl, h, ?_⟩
      rw [List.map_nil, List.append_nil]
      exact hholds
  | cons nal nals ih =>
      obtain ⟨hnal, hnals⟩ := hroomy
      rcases packNAL_outcome pool h (hlength nal List.mem_cons_self) with
        ⟨s₁, hs₁, hvalid₁, hpacked⟩ | ⟨-, hnot⟩
      · have hholds₁ := holds_packed h hholds hnal hpacked
        rw [← used_packed h hvalid₁ hnal hpacked] at hnals
        obtain ⟨s', hs', hvalid, hresult⟩ := ih hvalid₁ hholds₁
          (fun nal' hnal' => hlength nal' (List.mem_cons_of_mem nal hnal')) hnals
        refine ⟨s', ?_, hvalid, ?_⟩
        · rw [List.map_cons, List.foldlM_cons, hs₁, ok_bind, hs']
        · rw [List.append_assoc] at hresult
          exact hresult
      · exact absurd hnal hnot

/-- The loop never carries more than the NAL units it packs, and less if one finds no room. -/
theorem carried_pack (pool : Pool) (nals : List NalUnit) {s s' : Packing} (h : Valid s)
    (hlength : ∀ nal ∈ nals, nal.bytes.length < 2 ^ 31)
    (hpack : (nals.map NalUnit.bytes).foldlM (Packing.packNAL pool) s = .ok s') :
    Valid s' ∧ carried s' ≤ carried s + total (nals.map NalUnit.bytes) ∧
      (¬ AllRoomy s.outBytesUsed (nals.map NalUnit.bytes) →
        carried s' < carried s + total (nals.map NalUnit.bytes)) := by
  induction nals generalizing s with
  | nil =>
      cases hpack
      exact ⟨h, le_rfl, fun hnot => absurd trivial hnot⟩
  | cons nal nals ih =>
      rw [List.map_cons, List.foldlM_cons] at hpack
      rw [List.map_cons, total_cons]
      rcases packNAL_outcome pool h (hlength nal List.mem_cons_self) with
        ⟨s₁, hs₁, hvalid₁, hpacked⟩ | ⟨⟨e, he⟩, -⟩
      · rw [hs₁, ok_bind] at hpack
        obtain ⟨hle, hlt⟩ := carried_packed h hpacked
        obtain ⟨hvalid, hle', hlt'⟩ := ih hvalid₁
          (fun nal' hnal' => hlength nal' (List.mem_cons_of_mem nal hnal')) hpack
        refine ⟨hvalid, by omega, ?_⟩
        intro hnot
        by_cases hroomy : Roomy s.outBytesUsed nal.bytes
        · rw [used_packed h hvalid₁ hroomy hpacked] at hlt'
          have hrest := hlt' fun hall => hnot ⟨hroomy, hall⟩
          omega
        · have hfirst := hlt hroomy
          omega
      · rw [he, error_bind] at hpack
        cases hpack

end MirrorCast.Avc
