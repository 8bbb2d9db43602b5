import MirrorCast.Library.AnnexB
import MirrorCast.Library.Rfc6184
import MirrorCast.Program.RTPSender

/-! # What the packing loop does with one NAL unit -/

namespace MirrorCast.Avc

open Java AnnexB Rfc6184 RTPSender

/-! ## Payloads -/

/-- The payloads of the packets emitted so far. -/
def payloads (s : Packing) : List (List UInt8) := s.packets.map (List.drop 12)

/-- The payload collected in the current buffer. -/
def payload (s : Packing) : List UInt8 := (s.out.take s.outBytesUsed).drop 12

/-- A state of the loop: the current buffer is empty or an aggregation packet. -/
structure Valid (s : Packing) : Prop where
  length_out : s.out.length = MAX_UDP_PACKET_SIZE
  header_le : 12 ≤ s.outBytesUsed
  used_le : s.outBytesUsed ≤ MAX_UDP_PACKET_SIZE
  aggregation : payload s = [] ∨ ∃ body, payload s = STAP_A :: body
  length_le : ∀ p ∈ s.packets, p.length ≤ MAX_UDP_PACKET_SIZE

theorem header_le_capacity : 12 ≤ MAX_UDP_PACKET_SIZE := by decide

theorem valid_initial (pool : Pool) : Valid (Packing.initial pool) := by
  refine ⟨pool.length_buffer 0, le_rfl, header_le_capacity, Or.inl ?_, ?_⟩
  · simp [payload, Packing.initial]
  · intro p hp
    cases hp

theorem length_payload {s : Packing} (h : Valid s) :
    (payload s).length = s.outBytesUsed - 12 := by
  have hle := h.used_le
  rw [payload, List.length_drop, List.length_take, h.length_out, Nat.min_eq_left hle]

theorem payload_eq_nil_iff {s : Packing} (h : Valid s) :
    payload s = [] ↔ s.outBytesUsed = 12 := by
  have hlo := h.header_le
  rw [← List.length_eq_zero_iff, length_payload h]
  omega

/-! ## Emitting a packet -/

/-- Putting a buffer with `bytes` behind the collected payload into the packets. -/
theorem emit_ok (pool : Pool) {s : Packing} {out bytes : List UInt8} {size : ℕ}
    (hlength : ∀ p ∈ s.packets, p.length ≤ MAX_UDP_PACKET_SIZE)
    (hsize : size ≤ MAX_UDP_PACKET_SIZE) (hbytes : (out.take size).drop 12 = bytes) :
    ∃ s', Packing.emit pool { s with out } size = .ok s' ∧ Valid s' ∧
      payloads s' = payloads s ++ [bytes] ∧ payload s' = [] := by
  refine ⟨_, if_neg (Nat.not_lt_of_le hsize), ?_, ?_, ?_⟩
  · refine ⟨pool.length_buffer _, le_rfl, header_le_capacity, Or.inl ?_, ?_⟩
    · simp [payload]
    · intro p hp
      rcases List.mem_append.mp hp with hp | hp
      · exact hlength p hp
      · rw [List.mem_singleton.mp hp, List.length_take]
        exact (Nat.min_le_left _ _).trans hsize
  · simp only [payloads, List.map_append, List.map_cons, List.map_nil, hbytes]
  · simp [payload]

theorem flush_ok (pool : Pool) {s : Packing} (h : Valid s) :
    ∃ s', Packing.emit pool s s.outBytesUsed = .ok s' ∧ Valid s' ∧
      payloads s' = payloads s ++ [payload s] ∧ payload s' = [] :=
  emit_ok pool h.length_le h.used_le rfl

theorem singleNAL_ok (pool : Pool) {s : Packing} {nal : List UInt8} (h : Valid s)
    (hempty : s.outBytesUsed = 12) (hfits : 12 + nal.length ≤ MAX_UDP_PACKET_SIZE) :
    ∃ s', Packing.singleNAL pool s nal = .ok s' ∧ Valid s' ∧
      payloads s' = payloads s ++ [nal] ∧ payload s' = [] := by
  have hput : putAt s.out 12 nal = .ok (blit s.out 12 nal) := by
    rw [putAt_eq_ok, h.length_out]
    exact ⟨hfits, rfl⟩
  have hbytes : ((blit s.out 12 nal).take (12 + nal.length)).drop 12 = nal := by
    have hlength : (s.out.take 12).length = 12 := by
      rw [List.length_take, h.length_out]
      rfl
    rw [take_blit (by rw [h.length_out]; decide) le_rfl, List.take_length,
      List.drop_left' hlength]
  obtain ⟨s', hemit, hresult⟩ := emit_ok pool h.length_le hfits hbytes
  refine ⟨s', ?_, hresult⟩
  rw [Packing.singleNAL, hempty, hput, ok_bind]
  exact hemit

/-! ## Aggregation -/

/-- The bytes written for a NAL unit that joins an aggregation packet. -/
def joining (used : ℕ) (nal : List UInt8) : List UInt8 :=
  if used = 12 then STAP_A :: aggregationUnit nal else aggregationUnit nal

theorem length_aggregationUnit (nal : List UInt8) :
    (aggregationUnit nal).length = nal.length + 2 := rfl

theorem length_joining (used : ℕ) (nal : List UInt8) :
    (joining used nal).length = nal.length + 2 + if used = 12 then 1 else 0 := by
  unfold joining
  split <;> rfl

theorem aggregate_eq (s : Packing) (nal : List UInt8) (bytesNeeded : ℕ) :
    Packing.aggregate s nal bytesNeeded = do
      let out ← putAt s.out s.outBytesUsed (joining s.outBytesUsed nal)
      return { s with out, outBytesUsed := s.outBytesUsed + bytesNeeded } := by
  have hbytes : (if s.outBytesUsed = 12 then [(24 : UInt8)] else []) ++
      [toByte (nal.length / 2 ^ 8 : ℕ), toByte nal.length] ++ nal =
      joining s.outBytesUsed nal := by
    rw [toByte_natCast, toByte_natCast, joining]
    split <;> rfl
  rw [Packing.aggregate, hbytes]

/-- A NAL unit that fits is written; `bytesNeeded` of its bytes count. -/
theorem aggregate_ok {s : Packing} {nal : List UInt8} {bytesNeeded : ℕ} (h : Valid s)
    (hfits : s.outBytesUsed + (joining s.outBytesUsed nal).length ≤ MAX_UDP_PACKET_SIZE)
    (hpos : 0 < bytesNeeded) (hneeded : bytesNeeded ≤ (joining s.outBytesUsed nal).length) :
    ∃ s', Packing.aggregate s nal bytesNeeded = .ok s' ∧ Valid s' ∧ payloads s' = payloads s ∧
      payload s' = payload s ++ (joining s.outBytesUsed nal).take bytesNeeded ∧
      s'.outBytesUsed = s.outBytesUsed + bytesNeeded := by
  have hlo := h.header_le
  have hput : putAt s.out s.outBytesUsed (joining s.outBytesUsed nal) =
      .ok (blit s.out s.outBytesUsed (joining s.outBytesUsed nal)) := by
    rw [putAt_eq_ok, h.length_out]
    exact ⟨hfits, rfl⟩
  have hpayload : ((blit s.out s.outBytesUsed (joining s.outBytesUsed nal)).take
      (s.outBytesUsed + bytesNeeded)).drop 12 =
      payload s ++ (joining s.outBytesUsed nal).take bytesNeeded := by
    have hle := h.used_le
    rw [take_blit (by rw [h.length_out]; exact hle) hneeded, List.drop_append_of_le_length]
    · rfl
    · rw [List.length_take, h.length_out]
      omega
  refine ⟨{ s with
    out := blit s.out s.outBytesUsed (joining s.outBytesUsed nal)
    outBytesUsed := s.outBytesUsed + bytesNeeded }, ?_, ?_, rfl, hpayload, rfl⟩
  · rw [aggregate_eq, hput, ok_bind]
    rfl
  refine ⟨?_, ?_, ?_, Or.inr ?_, h.length_le⟩
  · rw [length_blit (by rw [h.length_out]; exact hfits), h.length_out]
  · exact Nat.le_add_right_of_le hlo
  · exact (Nat.add_le_add_left hneeded _).trans hfits
  · rw [payload, hpayload]
    rcases h.aggregation with hnil | ⟨body, hbody⟩
    · have hempty := (payload_eq_nil_iff h).mp hnil
      obtain ⟨n, rfl⟩ := Nat.exists_eq_succ_of_ne_zero (Nat.ne_of_gt hpos)
      rw [hnil, joining, if_pos hempty]
      exact ⟨_, rfl⟩
    · rw [hbody]
      exact ⟨_, rfl⟩

theorem aggregate_error {s : Packing} {nal : List UInt8} {bytesNeeded : ℕ} (h : Valid s)
    (hfull : MAX_UDP_PACKET_SIZE < s.outBytesUsed + (joining s.outBytesUsed nal).length) :
    Packing.aggregate s nal bytesNeeded = .error .bufferOverflow := by
  have hle := h.used_le
  have hput : putAt s.out s.outBytesUsed (joining s.outBytesUsed nal) =
      .error .bufferOverflow := by
    rw [putAt, h.length_out, if_neg (Nat.not_lt_of_le hle), if_pos hfull]
  rw [aggregate_eq, hput, error_bind]

/-! ## Fragmentation -/

/-- The bytes of a NAL unit that fit into one fragment. -/
def FRAGMENT_SIZE : ℕ := MAX_UDP_PACKET_SIZE - 12 - 2

/-- The payload of the fragment that carries `copy` bytes from `srcOffset` on. -/
def fragmentPayload (nal : List UInt8) (srcOffset copy : ℕ) : List UInt8 :=
  let nal0 := nal.getD 0 0
  let nalType := nal0 &&& 0x1f
  let fuHeader :=
    if srcOffset + copy = nal.length then nalType ||| 0x40
    else if srcOffset = 1 then nalType ||| 0x80
    else nalType
  [(((nal0 >>> 5) &&& 3) <<< 5) ||| 28, fuHeader] ++ (nal.drop srcOffset).take copy

/-- The payloads of the fragments of a NAL unit from `srcOffset` on. -/
def fragmentPayloads (nal : List UInt8) (srcOffset : ℕ) : List (List UInt8) :=
  if srcOffset < nal.length then
    let copy := min FRAGMENT_SIZE (nal.length - srcOffset)
    fragmentPayload nal srcOffset copy :: fragmentPayloads nal (srcOffset + copy)
  else []
termination_by nal.length - srcOffset
decreasing_by
  simp only [FRAGMENT_SIZE, MAX_UDP_PACKET_SIZE]
  omega

theorem fragmentPayloads_of_lt {nal : List UInt8} {srcOffset : ℕ} (h : srcOffset < nal.length) :
    fragmentPayloads nal srcOffset =
      fragmentPayload nal srcOffset (min FRAGMENT_SIZE (nal.length - srcOffset)) ::
        fragmentPayloads nal (srcOffset + min FRAGMENT_SIZE (nal.length - srcOffset)) := by
  rw [fragmentPayloads, if_pos h]

theorem fragmentPayloads_of_le {nal : List UInt8} {srcOffset : ℕ} (h : nal.length ≤ srcOffset) :
    fragmentPayloads nal srcOffset = [] := by
  rw [fragmentPayloads, if_neg (Nat.not_lt_of_le h)]

theorem length_fragmentPayload {nal : List UInt8} {srcOffset copy : ℕ}
    (h : srcOffset + copy ≤ nal.length) :
    (fragmentPayload nal srcOffset copy).length = copy + 2 := by
  simp only [fragmentPayload, List.length_append, List.length_cons, List.length_nil,
    List.length_take, List.length_drop]
  omega

theorem fragment_ok (pool : Pool) (nal : List UInt8) (srcOffset : ℕ) {s : Packing}
    (h : Valid s) (hempty : payload s = []) :
    ∃ s', Packing.fragment pool nal srcOffset s = .ok s' ∧ Valid s' ∧
      payloads s' = payloads s ++ fragmentPayloads nal srcOffset ∧ payload s' = [] := by
  induction hmeasure : nal.length - srcOffset using Nat.strong_induction_on
    generalizing srcOffset s with
  | _ n ih =>
      rw [Packing.fragment]
      by_cases hmore : srcOffset < nal.length
      · obtain ⟨copy, hcopy⟩ : ∃ copy, copy = min FRAGMENT_SIZE (nal.length - srcOffset) :=
          ⟨_, rfl⟩
        have hbounds : 0 < copy ∧ copy ≤ FRAGMENT_SIZE ∧ srcOffset + copy ≤ nal.length := by
          have hfragment : 0 < FRAGMENT_SIZE := by decide
          omega
        have hroom : 12 + copy + 2 ≤ MAX_UDP_PACKET_SIZE := by
          have hfragment : FRAGMENT_SIZE + 14 = MAX_UDP_PACKET_SIZE := by decide
          omega
        have hlength := length_fragmentPayload hbounds.2.2
        have hput : putAt s.out 12 (fragmentPayload nal srcOffset copy) =
            .ok (blit s.out 12 (fragmentPayload nal srcOffset copy)) := by
          rw [putAt_eq_ok, h.length_out, hlength]
          exact ⟨by omega, rfl⟩
        have hbytes : ((blit s.out 12 (fragmentPayload nal srcOffset copy)).take
            (12 + copy + 2)).drop 12 = fragmentPayload nal srcOffset copy := by
          have hhead : (s.out.take 12).length = 12 := by
            rw [List.length_take, h.length_out]
            rfl
          rw [Nat.add_assoc, ← hlength,
            take_blit (by rw [h.length_out]; exact header_le_capacity) le_rfl, List.take_length,
            List.drop_left' hhead]
        obtain ⟨s₁, hemit, hvalid, hpayloads, hpayload⟩ := emit_ok pool h.length_le hroom hbytes
        obtain ⟨s₂, hrest, hresult⟩ := ih (nal.length - (srcOffset + copy)) (by omega)
          (srcOffset + copy) hvalid hpayload rfl
        refine ⟨s₂, ?_, hresult.1, ?_, hresult.2.2⟩
        · rw [if_pos hmore]
          change (do
            let out ← putAt s.out 12 (fragmentPayload nal srcOffset
              (min FRAGMENT_SIZE (nal.length - srcOffset)))
            let s ← Packing.emit pool { s with out }
              (12 + min FRAGMENT_SIZE (nal.length - srcOffset) + 2)
            Packing.fragment pool nal
              (srcOffset + min FRAGMENT_SIZE (nal.length - srcOffset)) s) = _
          rw [← hcopy, hput, ok_bind, hemit, ok_bind, hrest]
        · rw [hresult.2.1, hpayloads, fragmentPayloads_of_lt hmore, ← hcopy, List.append_assoc]
          rfl
      · refine ⟨s, if_neg hmore, h, ?_, hempty⟩
        rw [fragmentPayloads_of_le (Nat.le_of_not_lt hmore), List.append_nil]

/-! ## Reading fragments back -/

section Bits

variable (nal0 : UInt8)

theorem unitType_indicator : unitType ((((nal0 >>> 5) &&& 3) <<< 5) ||| 28) = FU_A := by
  revert nal0
  decide +kernel

theorem bits_first : (((nal0 &&& 0x1f) ||| 0x80) &&& 0x80 != 0) = true ∧
    (((nal0 &&& 0x1f) ||| 0x80) &&& 0x40 != 0) = false := by
  revert nal0
  decide +kernel

theorem bits_middle : ((nal0 &&& 0x1f) &&& 0x80 != 0) = false ∧
    ((nal0 &&& 0x1f) &&& 0x40 != 0) = false := by
  revert nal0
  decide +kernel

theorem bits_last : (((nal0 &&& 0x1f) ||| 0x40) &&& 0x80 != 0) = false ∧
    (((nal0 &&& 0x1f) ||| 0x40) &&& 0x40 != 0) = true := by
  revert nal0
  decide +kernel

theorem header_restored : nal0 < 128 →
    ((((((nal0 >>> 5) &&& 3) <<< 5) ||| 28) &&& 0xe0) |||
      unitType ((nal0 &&& 0x1f) ||| 0x80)) = nal0 := by
  revert nal0
  decide +kernel

end Bits

theorem parse_last {nal : List UInt8} {srcOffset copy : ℕ} (h : srcOffset + copy = nal.length) :
    parse (fragmentPayload nal srcOffset copy) =
      some (.last ((nal.drop srcOffset).take copy)) := by
  simp only [fragmentPayload, if_pos h, List.cons_append, List.nil_append,
    parse_fragmentation (unitType_indicator _), fragmentation, (bits_last _).1, (bits_last _).2]

theorem parse_middle {nal : List UInt8} {srcOffset copy : ℕ} (h : srcOffset + copy ≠ nal.length)
    (hoffset : srcOffset ≠ 1) :
    parse (fragmentPayload nal srcOffset copy) =
      some (.middle ((nal.drop srcOffset).take copy)) := by
  simp only [fragmentPayload, if_neg h, if_neg hoffset, List.cons_append, List.nil_append,
    parse_fragmentation (unitType_indicator _), fragmentation, (bits_middle _).1,
    (bits_middle _).2]

theorem parse_start (nal : NalUnit) {copy : ℕ} (h : 1 + copy ≠ nal.bytes.length) :
    parse (fragmentPayload nal.bytes 1 copy) = some (.start (nal.bytes.take (1 + copy))) := by
  have hheader : nal.bytes.getD 0 0 = nal.header := rfl
  simp only [fragmentPayload, if_neg h, if_pos, List.cons_append, List.nil_append,
    parse_fragmentation (unitType_indicator _), fragmentation, (bits_first _).1,
    (bits_first _).2, hheader, header_restored nal.header nal.forbidden_zero]
  rw [Nat.add_comm 1 copy]
  rfl

/-- The fragments behind a beginning of `srcOffset` bytes complete the NAL unit. -/
theorem assemble_fragments (nal : List UInt8) (srcOffset : ℕ) (hlo : 1 < srcOffset)
    (hhi : srcOffset < nal.length) :
    ∃ ps, (fragmentPayloads nal srcOffset).mapM parse = some ps ∧
      assemble (some (nal.take srcOffset)) ps = some [nal] := by
  induction hmeasure : nal.length - srcOffset using Nat.strong_induction_on
    generalizing srcOffset with
  | _ n ih =>
      obtain ⟨copy, hcopy⟩ : ∃ copy, copy = min FRAGMENT_SIZE (nal.length - srcOffset) :=
        ⟨_, rfl⟩
      have hpos : 0 < FRAGMENT_SIZE := by decide
      have htake : nal.take srcOffset ++ (nal.drop srcOffset).take copy =
          nal.take (srcOffset + copy) := List.take_add.symm
      rw [fragmentPayloads_of_lt hhi, ← hcopy, List.mapM_cons]
      by_cases hlast : srcOffset + copy = nal.length
      · refine ⟨[.last ((nal.drop srcOffset).take copy)], ?_, ?_⟩
        · rw [parse_last hlast, fragmentPayloads_of_le (by omega)]
          rfl
        · rw [assemble, htake, hlast, List.take_length]
          rfl
      · obtain ⟨ps, hps, hassemble⟩ := ih (nal.length - (srcOffset + copy)) (by omega)
          (srcOffset + copy) (by omega) (by omega) rfl
        refine ⟨.middle ((nal.drop srcOffset).take copy) :: ps, ?_, ?_⟩
        · rw [parse_middle hlast (by omega), hps]
          rfl
        · rw [assemble, htake, hassemble]

/-- A NAL unit of more than one fragment is restored. -/
theorem depacketize_fragments (nal : NalUnit) (h : 1 + FRAGMENT_SIZE < nal.bytes.length) :
    depacketize (fragmentPayloads nal.bytes 1) = some [nal.bytes] := by
  have hcopy : min FRAGMENT_SIZE (nal.bytes.length - 1) = FRAGMENT_SIZE := by omega
  obtain ⟨ps, hps, hassemble⟩ := assemble_fragments nal.bytes (1 + FRAGMENT_SIZE) (by decide) h
  rw [depacketize, fragmentPayloads_of_lt (by omega), hcopy, List.mapM_cons,
    parse_start nal (Nat.ne_of_lt h), hps]
  exact hassemble

/-- A NAL unit whose first fragment is its last loses its header. -/
theorem weight_single_fragment {nal : List UInt8} (hpos : 1 < nal.length)
    (h : nal.length ≤ 1 + FRAGMENT_SIZE) :
    ((fragmentPayloads nal 1).map weight).sum < nal.length := by
  have hcopy : min FRAGMENT_SIZE (nal.length - 1) = nal.length - 1 := by omega
  have hparse := weight_of_parse (parse_last (show 1 + (nal.length - 1) = nal.length by omega))
  rw [fragmentPayloads_of_lt hpos, hcopy, fragmentPayloads_of_le (by omega), List.map_cons,
    ← hparse]
  simp only [Payload.weight, List.map_nil, List.sum_cons, List.sum_nil, List.length_take,
    List.length_drop]
  omega

end MirrorCast.Avc
