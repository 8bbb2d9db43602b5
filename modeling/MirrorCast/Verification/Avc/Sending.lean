import MirrorCast.Verification.Avc.Packetization

/-! # The packets sent for an access unit -/

namespace MirrorCast.Avc

open Java AnnexB Rfc6184 RTPSender

/-- The marker bit of an RTP packet. -/
def marker (packet : List UInt8) : Bool := packet.getD 1 0 &&& 0x80 != 0

/-- The packets are small enough, the marker is set on the last one only, and a receiver
gets the NAL units out of them. -/
structure Carries (packets nals : List (List UInt8)) : Prop where
  length_le : ∀ p ∈ packets, p.length ≤ MAX_UDP_PACKET_SIZE
  marker_iff : ∀ i p, packets[i]? = some p → (marker p = true ↔ i + 1 = packets.length)
  depacketize_eq : depacketize (packets.map (List.drop 12)) = some nals

/-- `queueAVCBuffer` returns and sends packets that carry the NAL units of the access unit. -/
def Delivers (pool : Pool) (mRTPSeqNo timeUs : ℤ) (packetType : UInt8) (unit : AccessUnit) : Prop :=
  ∃ packets, queueAVCBuffer pool mRTPSeqNo timeUs unit.bytes packetType = .ok packets ∧
    Carries packets unit.nals

/-! ## Headers -/

section Headers

variable (packetType : UInt8) (rtpTime mRTPSeqNo : ℤ) (packets : List (List UInt8))

theorem length_writeHeaders :
    (writeHeaders packetType rtpTime mRTPSeqNo packets).length = packets.length := by
  induction packets generalizing mRTPSeqNo with
  | nil => rfl
  | cons p ps ih => rw [writeHeaders, List.length_cons, ih, List.length_cons]

theorem drop_writeHeaders :
    (writeHeaders packetType rtpTime mRTPSeqNo packets).map (List.drop 12) =
      packets.map (List.drop 12) := by
  induction packets generalizing mRTPSeqNo with
  | nil => rfl
  | cons p ps ih =>
      rw [writeHeaders, List.map_cons, ih, List.map_cons, List.drop_left']
      rfl

theorem length_le_writeHeaders (h : ∀ p ∈ packets, p.length ≤ MAX_UDP_PACKET_SIZE) :
    ∀ p ∈ writeHeaders packetType rtpTime mRTPSeqNo packets,
      p.length ≤ MAX_UDP_PACKET_SIZE := by
  induction packets generalizing mRTPSeqNo with
  | nil => simp [writeHeaders]
  | cons q qs ih =>
      intro p hp
      rw [writeHeaders] at hp
      rcases List.mem_cons.mp hp with rfl | hp
      · have hq := h q List.mem_cons_self
        have hheader := header_le_capacity
        rw [List.length_append, List.length_drop, rtpHeader]
        simp only [List.length_cons, List.length_nil]
        omega
      · exact ih _ (fun p' hp' => h p' (List.mem_cons_of_mem q hp')) p hp

theorem marker_header (seqNo : ℤ) (rest : List UInt8) :
    marker (rtpHeader packetType seqNo rtpTime ++ rest) = (packetType &&& 0x80 != 0) := rfl

theorem marker_bit : packetType < 128 →
    ((packetType &&& 0x80 != 0) = false ∧ ((packetType ||| 0x80) &&& 0x80 != 0) = true) := by
  revert packetType
  decide +kernel

theorem marker_writeHeaders (htype : packetType < 128) (i : ℕ) (p : List UInt8)
    (hp : (writeHeaders packetType rtpTime mRTPSeqNo packets)[i]? = some p) :
    marker p = true ↔ i + 1 = packets.length := by
  obtain ⟨hclear, hset⟩ := marker_bit packetType htype
  induction packets generalizing mRTPSeqNo i with
  | nil => simp [writeHeaders] at hp
  | cons q qs ih =>
      rw [writeHeaders] at hp
      cases i with
      | zero =>
          cases hp
          rw [marker_header]
          by_cases hlast : qs = []
          · rw [if_pos hlast, hset, hlast]
            simp
          · rw [if_neg hlast, hclear, List.length_cons]
            have hpos := List.length_pos_iff.mpr hlast
            simp only [Bool.false_eq_true, false_iff]
            omega
      | succ i =>
          rw [List.getElem?_cons_succ] at hp
          rw [ih _ i hp, List.length_cons]
          omega

end Headers

/-! ## The last packet -/

theorem finish_ok {s : Packing} (h : Valid s) :
    ∃ packets, s.finish = .ok packets ∧ packets.map (List.drop 12) = payloads s ++ flushed s ∧
      ∀ p ∈ packets, p.length ≤ MAX_UDP_PACKET_SIZE := by
  have hle := h.used_le
  have hlo := h.header_le
  by_cases hpending : 12 < s.outBytesUsed
  · have hpayload : payload s ≠ [] := by
      intro hnil
      have hused := (payload_eq_nil_iff h).mp hnil
      omega
    refine ⟨s.packets ++ [s.out.take s.outBytesUsed], ?_, ?_, ?_⟩
    · rw [Packing.finish, if_pos hpending, if_neg (Nat.not_lt_of_le hle)]
    · rw [List.map_append, flushed, if_neg hpayload]
      rfl
    · intro p hp
      rcases List.mem_append.mp hp with hp | hp
      · exact h.length_le p hp
      · rw [List.mem_singleton.mp hp, List.length_take]
        exact (Nat.min_le_left _ _).trans hle
  · have hpayload : payload s = [] := (payload_eq_nil_iff h).mpr (by omega)
    refine ⟨s.packets, ?_, ?_, h.length_le⟩
    · rw [Packing.finish, if_neg hpending]
    · rw [flushed, if_pos hpayload, List.append_nil]
      rfl

/-! ## The whole access unit -/

theorem length_le_stream {units : List (ℕ × NalUnit)} {trailing : ℕ} {u : ℕ × NalUnit}
    (h : u ∈ units) : u.2.bytes.length ≤ (stream units trailing).length := by
  induction units with
  | nil => cases h
  | cons v units ih =>
      rw [stream, List.length_append, List.length_append]
      rcases List.mem_cons.mp h with rfl | h
      · omega
      · have hrest := ih h
        omega

/-- The NAL units the loop runs over: all, or all but a lost last one. -/
theorem exists_nalUnits (unit : AccessUnit) :
    ∃ found : List NalUnit, AvcUtils.nalUnits unit.bytes = found.map NalUnit.bytes ∧
      (∀ nal ∈ found, nal.bytes.length < 2 ^ 31) ∧
      (LosesLast unit.units unit.trailing →
        total (found.map NalUnit.bytes) < total unit.nals) ∧
      (¬ LosesLast unit.units unit.trailing → found.map NalUnit.bytes = unit.nals) := by
  have hlength : ∀ u ∈ unit.units, u.2.bytes.length < 2 ^ 31 :=
    fun u hu => (length_le_stream hu).trans_lt unit.length_lt
  have hnals : (unit.units.map Prod.snd).map NalUnit.bytes = unit.nals := by
    rw [List.map_map]
    rfl
  by_cases hlost : LosesLast unit.units unit.trailing
  · refine ⟨(unit.units.map Prod.snd).dropLast, ?_, ?_, ?_, fun hnot => absurd hlost hnot⟩
    · rw [AccessUnit.bytes, nalUnits_stream, if_pos hlost, List.map_dropLast, hnals]
      rfl
    · intro nal hnal
      obtain ⟨u, hu, rfl⟩ := List.mem_map.mp (List.dropLast_subset _ hnal)
      exact hlength u hu
    · intro _
      have hne : unit.units.map Prod.snd ≠ [] := by
        intro hnil
        have htwo := hlost.1
        rw [List.map_eq_nil_iff] at hnil
        rw [hnil] at htwo
        simp at htwo
      have hsplit := List.dropLast_concat_getLast hne
      rw [← hnals]
      conv_rhs => rw [← hsplit]
      rw [List.map_append, total_append]
      simp
  · refine ⟨unit.units.map Prod.snd, ?_, ?_, fun h => absurd h hlost, fun _ => hnals⟩
    · rw [AccessUnit.bytes, nalUnits_stream, if_neg hlost, hnals]
      rfl
    · intro nal hnal
      obtain ⟨u, hu, rfl⟩ := List.mem_map.mp hnal
      exact hlength u hu

theorem queueAVCBuffer_eq_ok {pool : Pool} {mRTPSeqNo timeUs : ℤ} {accessUnit : List UInt8}
    {packetType : UInt8} {sent : List (List UInt8)} :
    queueAVCBuffer pool mRTPSeqNo timeUs accessUnit packetType = .ok sent ↔
      ∃ s packets, (AvcUtils.nalUnits accessUnit).foldlM (Packing.packNAL pool)
          (Packing.initial pool) = .ok s ∧ s.finish = .ok packets ∧
        sent = writeHeaders packetType (int32 ((int64 (timeUs * 9)).tdiv 100)) mRTPSeqNo packets := by
  rw [queueAVCBuffer, bind_eq_ok]
  constructor
  · rintro ⟨s, hs, h⟩
    obtain ⟨packets, hpackets, h⟩ := bind_eq_ok.mp h
    cases h
    exact ⟨s, packets, hs, hpackets, rfl⟩
  · rintro ⟨s, packets, hs, hpackets, rfl⟩
    refine ⟨s, hs, ?_⟩
    rw [hpackets]
    rfl

/-- What a receiver gets is complete only if nothing was lost or cut. -/
theorem roomy_of_delivers {pool : Pool} {mRTPSeqNo timeUs : ℤ} {packetType : UInt8}
    {unit : AccessUnit} (h : Delivers pool mRTPSeqNo timeUs packetType unit) :
    ¬ LosesLast unit.units unit.trailing ∧ AllRoomy 12 unit.nals := by
  obtain ⟨found, hfound, hlength, hlost, hall⟩ := exists_nalUnits unit
  obtain ⟨sent, hsent, hcarries⟩ := h
  rw [queueAVCBuffer_eq_ok, hfound] at hsent
  obtain ⟨s, packets, hs, hpackets, rfl⟩ := hsent
  obtain ⟨hvalid, hle, hlt⟩ := carried_pack pool found (valid_initial pool) hlength hs
  obtain ⟨packets', hpackets', hdrop, -⟩ := finish_ok hvalid
  rw [hpackets] at hpackets'
  cases hpackets'
  have hcarried : carried (Packing.initial pool) = 0 := by
    simp [carried, payloads, payload, Packing.initial, weight]
  have htotal := total_depacketize hcarries.depacketize_eq
  rw [drop_writeHeaders, hdrop, List.map_append, List.sum_append, sum_weight_flushed] at htotal
  change total unit.nals = carried s at htotal
  have hnot : ¬ LosesLast unit.units unit.trailing := by
    intro h
    have hless := hlost h
    omega
  refine ⟨hnot, ?_⟩
  by_contra hbad
  rw [hall hnot] at hlt
  have hless := hlt hbad
  omega

theorem delivers_of_roomy (pool : Pool) (mRTPSeqNo timeUs : ℤ) {packetType : UInt8}
    (htype : packetType < 128) {unit : AccessUnit}
    (hnot : ¬ LosesLast unit.units unit.trailing) (hroomy : AllRoomy 12 unit.nals) :
    Delivers pool mRTPSeqNo timeUs packetType unit := by
  obtain ⟨found, hfound, hlength, hlost, hall⟩ := exists_nalUnits unit
  have hnals := hall hnot
  have hholds : Holds (Packing.initial pool) [] := by
    apply holds_of_sent
    · rfl
    · simp [payload, Packing.initial]
  rw [← hnals] at hroomy
  obtain ⟨s, hs, hvalid, hresult⟩ := pack_ok pool found (valid_initial pool) hholds hlength hroomy
  obtain ⟨packets, hpackets, hdrop, hsizes⟩ := finish_ok hvalid
  rw [← hfound] at hs
  refine ⟨_, queueAVCBuffer_eq_ok.mpr ⟨s, packets, hs, hpackets, rfl⟩, ?_, ?_, ?_⟩
  · exact length_le_writeHeaders packetType _ _ packets hsizes
  · intro i p hp
    rw [length_writeHeaders]
    exact marker_writeHeaders packetType _ _ packets htype i p hp
  · rw [drop_writeHeaders, hdrop, depacketize_flushed hresult, List.nil_append, hnals]

/-- An access unit is packetized correctly exactly when its last NAL unit is not lost and
every NAL unit finds the packet filled so that it is packed correctly. -/
theorem delivers_iff (pool : Pool) (mRTPSeqNo timeUs : ℤ) (packetType : UInt8)
    (htype : packetType < 128) (unit : AccessUnit) :
    Delivers pool mRTPSeqNo timeUs packetType unit ↔
      ¬ LosesLast unit.units unit.trailing ∧ AllRoomy 12 unit.nals := by
  constructor
  · intro h
    exact roomy_of_delivers h
  · rintro ⟨hnot, hroomy⟩
    exact delivers_of_roomy pool mRTPSeqNo timeUs htype hnot hroomy

/-! ## Two slices -/

/-- A coded slice of `n + 1` bytes. -/
def slice (n : ℕ) : NalUnit where
  header := 0x41
  body := List.replicate n 0x80
  forbidden_zero := NalUnit.slice_header_lt
  type_bounds := NalUnit.slice_header_bounds
  no_start_code := by
    intro b _ h
    have hmem : (0 : UInt8) ∈ 0x41 :: List.replicate n 0x80 := h.subset List.mem_cons_self
    simp [List.mem_replicate] at hmem
  last_ne_zero := by
    intro hlast
    have hmem := List.getLast_mem (List.cons_ne_nil (0x41 : UInt8) (List.replicate n 0x80))
    rw [hlast] at hmem
    simp [List.mem_replicate] at hmem

theorem length_slice (n : ℕ) : (slice n).bytes.length = n + 1 := by
  simp [slice, NalUnit.bytes]

theorem length_slices_lt (m n : ℕ) (h : m + n < 2 ^ 30) :
    (stream [(1, slice m), (1, slice n)] 0).length < 2 ^ 31 := by
  have hm := length_slice m
  have hn := length_slice n
  simp only [stream, List.length_append, List.length_replicate, List.length_cons,
    List.length_nil, hm, hn]
  omega

/-- Two slices behind four-byte start codes. -/
def slices (m n : ℕ) (h : m + n < 2 ^ 30) : AccessUnit where
  units := [(1, slice m), (1, slice n)]
  trailing := 0
  length_lt := length_slices_lt m n h

def blankPool : Pool where
  buffer _ := List.replicate MAX_UDP_PACKET_SIZE 0
  length_buffer _ := List.length_replicate

/-- The second slice does not fit behind the first and loses its last byte. -/
theorem truncates_slice : ¬ ∀ (pool : Pool) (mRTPSeqNo timeUs : ℤ) (packetType : UInt8)
    (unit : AccessUnit), packetType < 128 →
      Delivers pool mRTPSeqNo timeUs packetType unit := by
  intro h
  have hdelivers := h blankPool 0 0 97 (slices 999 999 (by decide)) (by decide)
  obtain ⟨-, -, ⟨-, hroomy⟩, -⟩ := roomy_of_delivers hdelivers
  norm_num [length_joining, length_slice, MAX_UDP_PACKET_SIZE, FRAGMENT_SIZE] at hroomy

theorem delivers_slices : Delivers blankPool 0 0 97 (slices 999 99 (by decide)) := by
  refine (delivers_iff blankPool 0 0 97 (by decide) _).mpr ⟨?_, ?_, ?_, trivial⟩
  · rintro ⟨-, -, hlast⟩
    have hbody : (slice 99).body = [] := Option.some.inj hlast
    have hlength := length_slice 99
    rw [NalUnit.bytes, hbody] at hlength
    simp at hlength
  · norm_num [Roomy, length_joining, length_slice, MAX_UDP_PACKET_SIZE]
  · norm_num [Roomy, length_joining, length_slice, MAX_UDP_PACKET_SIZE]

end MirrorCast.Avc
