import MirrorCast.Verification.Ts.Calls

/-! # `packetize` is lossless, and its packet count is exact -/

namespace MirrorCast.Ts

open Java MpegTs TSPacketizer

/-! ## The access unit with what is put in front of it -/

/-- The codec data or the ADTS header put in front of the access unit. -/
def prefixBytes (track : Track) (a : Args) : List UInt8 :=
  if track.isH264 ∧ a.flags &&& PREPEND_SPS_PPS_TO_IDR_FRAMES ≠ 0 ∧
      AvcUtils.isIDR a.accessUnit.isIDR a.accessUnit.data then
    track.mCSD.flatten
  else if track.isAAC ∧ track.mAudioLacksATDSHeaders then
    match track.mCSD with
    | [codecSpecificData0 :: codecSpecificData1 :: _] =>
        Track.adtsHeader codecSpecificData0 codecSpecificData1 (a.accessUnit.data.length + 7)
    | _ => []
  else []

/-- What the PES packet carries. -/
def carried (track : Track) (a : Args) : List UInt8 := prefixBytes track a ++ a.accessUnit.data

/-- The checks of the branch that puts an ADTS header in front. -/
def AdtsChecks (track : Track) (a : Args) : Prop :=
  track.isAAC = true → track.mAudioLacksATDSHeaders = true →
    a.flags &&& IS_ENCRYPTED = 0 ∧ ∃ c₀ c₁ cs, track.mCSD = [c₀ :: c₁ :: cs]

theorem newABuffer_natCast {capacity : ℕ} (h : capacity < 2 ^ 31) :
    newABuffer (capacity : ℤ) = .ok (List.replicate capacity 0) := by
  rw [newABuffer, int32_natCast h, if_neg (by omega), Int.toNat_natCast]

/-- A buffer of just the right size receives bytes from its beginning. -/
theorem putAt_replicate (bytes : List UInt8) :
    putAt (List.replicate bytes.length 0) 0 bytes = .ok bytes := by
  apply putAt_eq_ok.mpr
  rw [List.length_replicate]
  refine ⟨by omega, ?_⟩
  simp [blit]

theorem prepend_eq {track : Track} {a : Args} (hadts : AdtsChecks track a)
    (hlength : (carried track a).length < 2 ^ 31) :
    track.prepend a.flags a.accessUnit = .ok (carried track a) := by
  unfold Track.prepend
  by_cases havc : track.isH264 ∧ a.flags &&& PREPEND_SPS_PPS_TO_IDR_FRAMES ≠ 0 ∧
      AvcUtils.isIDR a.accessUnit.isIDR a.accessUnit.data
  · have hcarried : carried track a = track.mCSD.flatten ++ a.accessUnit.data := by
      rw [carried, prefixBytes, if_pos havc]
    rw [if_pos havc, hcarried, Track.prependCSD, ← Nat.cast_add, Nat.add_comm,
      ← List.length_append, ← hcarried, newABuffer_natCast hlength, ok_bind, putAt_replicate]
  rw [if_neg havc]
  by_cases haac : track.isAAC ∧ track.mAudioLacksATDSHeaders
  · obtain ⟨hclear, c₀, c₁, cs, hcsd⟩ := hadts haac.1 haac.2
    have hcarried : carried track a =
        Track.adtsHeader c₀ c₁ (a.accessUnit.data.length + 7) ++ a.accessUnit.data := by
      rw [carried, prefixBytes, if_neg havc, if_pos haac, hcsd]
    have hseven : a.accessUnit.data.length + 7 = (carried track a).length := by
      rw [hcarried, List.length_append, Nat.add_comm]
      rfl
    rw [if_pos haac, if_neg (not_not.mpr hclear), Track.prependADTSHeader, hcsd]
    dsimp only
    rw [← hcarried, hseven, newABuffer_natCast hlength, ok_bind, putAt_replicate]
  · rw [if_neg haac, carried, prefixBytes, if_neg havc, if_neg haac, List.nil_append]

/-- A buffer that is filled from its beginning to its end is what it is filled with. -/
theorem eq_of_filled {bytes unit : List UInt8}
    (h : (do let dup ← newABuffer (bytes.length : ℤ); putAt dup 0 bytes) = .ok unit) :
    unit = bytes := by
  obtain ⟨dup, hdup, hput⟩ := bind_eq_ok.mp h
  have hfits := (putAt_eq_ok.mp hput).1
  have hmod := int32_emod (bytes.length : ℤ)
  have hbounds := int32_bounds (bytes.length : ℤ)
  rw [newABuffer_eq_ok hdup, List.length_replicate] at hfits
  rw [newABuffer_natCast (by omega), ok_bind, putAt_replicate] at h
  exact (Except.ok.inj h).symm

theorem isAAC_of_isH264 {track : Track} (h : track.isH264 = true) : track.isAAC = false := by
  unfold Track.isH264 TSPacketizer.isH264 equalsIgnoreCase at h
  unfold Track.isAAC TSPacketizer.isAAC equalsIgnoreCase
  cases hmime : track.mFormat.mime with
  | none => rfl
  | some mime =>
      rw [hmime] at h
      have hlower := of_decide_eq_true h
      rw [Option.any_some, hlower]
      rfl

/-- Only units that pass the checks get something put in front. -/
theorem prepend_eq_ok {track : Track} {a : Args} {unit : List UInt8}
    (h : track.prepend a.flags a.accessUnit = .ok unit) :
    AdtsChecks track a ∧ unit = carried track a := by
  unfold Track.prepend at h
  by_cases havc : track.isH264 ∧ a.flags &&& PREPEND_SPS_PPS_TO_IDR_FRAMES ≠ 0 ∧
      AvcUtils.isIDR a.accessUnit.isIDR a.accessUnit.data
  · rw [if_pos havc, Track.prependCSD, ← Nat.cast_add, Nat.add_comm, ← List.length_append] at h
    rw [carried, prefixBytes, if_pos havc]
    refine ⟨fun haac => ?_, eq_of_filled h⟩
    rw [isAAC_of_isH264 havc.1] at haac
    cases haac
  rw [if_neg havc] at h
  rw [carried, prefixBytes, if_neg havc]
  by_cases haac : track.isAAC ∧ track.mAudioLacksATDSHeaders
  · rw [if_pos haac] at h ⊢
    split at h
    · cases h
    rename_i hclear
    rw [not_not] at hclear
    unfold Track.prependADTSHeader at h
    split at h
    · rename_i c₀ c₁ cs hcsd
      rw [hcsd]
      refine ⟨fun _ _ => ⟨hclear, c₀, c₁, cs, hcsd⟩, eq_of_filled ?_⟩
      rw [List.length_append, Nat.add_comm]
      exact h
    · cases h
    · cases h
  · rw [if_neg haac] at h ⊢
    cases h
    exact ⟨fun h₁ h₂ => absurd ⟨h₁, h₂⟩ haac, (List.nil_append _).symm⟩

theorem le_debugTSPackets (alignPayload : Bool) (remaining : ℕ) :
    remaining ≤ 184 * debugTSPackets alignPayload remaining := by
  fun_induction debugTSPackets alignPayload remaining with
  | case1 remaining hpos copy ih =>
      have hle := payloadBytes_le_available alignPayload (188 - 4) remaining
      simp only [copy] at ih ⊢
      omega
  | case2 remaining hzero => omega

/-- Every packet carries at most 184 bytes. -/
theorem length_le_unitPackets (alignPayload : Bool) (a : Args) (unit : List UInt8) :
    unit.length ≤ 184 * unitPackets alignPayload a unit := by
  have hfirst := payloadBytes_le_available alignPayload (188 - 4 - a.headerSize) unit.length
  have hrest := le_debugTSPackets alignPayload
    (unit.length - payloadBytes alignPayload (188 - 4 - a.headerSize) unit.length)
  rw [unitPackets, countTSPackets]
  omega

/-! ## Nothing fails -/

theorem length_flatten_packets {ps : List (List UInt8)} (h : ∀ p ∈ ps, p.length = 188) :
    ps.flatten.length = 188 * ps.length := by
  induction ps with
  | nil => rfl
  | cons p ps ih =>
      rw [List.flatten_cons, List.length_append, h p List.mem_cons_self,
        ih fun q hq => h q (List.mem_cons_of_mem p hq), List.length_cons]
      omega

theorem Leads.start_eq {o o' : Output} {count : ℕ} {ps : List (List UInt8)}
    (h : Leads o o' count ps) : o'.packetDataStart = o.packetDataStart + 188 * count := by
  rw [h.2.1.start_eq, length_flatten_packets fun p hp => (h.2.2 p hp).1, h.1]

/-- The tracks can be finalized, and the PMT fits into its packet. -/
def TablesFit (s : TSPacketizer) : Prop :=
  ∃ tracks table, s.mTracks.mapM Track.makeFinalize = .ok tracks ∧
    PMT (nextCounter s.mPMTContinuityCounter) s.mProgramInfoDescriptors tracks = .ok table ∧
    table.length ≤ 188

theorem exists_emitTables {s : TSPacketizer} {o : Output} (h : TablesFit s)
    (hroom : o.packetDataStart + 188 * 2 ≤ o.buffer.length) :
    ∃ s' o', s.emitTables o = .ok (s', o') := by
  obtain ⟨tracks, table, hfinal, htable, hfits⟩ := h
  have hPAT : (PAT (nextCounter s.mPATContinuityCounter)).length = 21 := by
    simp [PAT, withCRC, putInt]
  have hput := putFilled_eq_ok.mpr
    ⟨show o.packetDataStart + max 188 (PAT (nextCounter s.mPATContinuityCounter)).length ≤
      o.buffer.length by omega, rfl⟩
  have hhead : (PAT (nextCounter s.mPATContinuityCounter)).head? = some 0x47 := rfl
  have hstart := (leads_putFilled hhead hput).start_eq
  have hbuffer := (writes_putFilled hput).length_eq
  have hput' := putFilled_eq_ok.mpr
    ⟨show _ + max 188 table.length ≤ _ by rw [hstart, hbuffer]; omega, rfl⟩
  exact ⟨_, _, emitTables_eq_ok.mpr ⟨_, _, _, hput, hfinal, htable, hput', rfl⟩⟩

/-- The tables of a packetizer with one track fit. -/
theorem tablesFit_singleton {s : TSPacketizer} {track track' : Track} (hs : Sound s)
    (hone : s.mTracks = [track]) (hfinal : track.makeFinalize = .ok track') : TablesFit s := by
  have hmap : s.mTracks.mapM Track.makeFinalize = .ok [track'] := by
    rw [hone, List.mapM_cons, hfinal]
    rfl
  have hdescriptors : track'.mDescriptors.flatten.length ≤ 10 :=
    (soundTrack_makeFinalize hfinal (hs.tracks track (by rw [hone]; simp))).descriptors_le
  have hinfo := hs.info_le
  obtain ⟨table, htable, htableLength⟩ := exists_PMT (nextCounter s.mPMTContinuityCounter)
    s.mProgramInfoDescriptors [track'] (by omega)
    (fun t ht => by rw [List.mem_singleton.mp ht]; omega)
  simp only [List.map_cons, List.map_nil, List.sum_cons, List.sum_nil, streamInfoLength]
    at htableLength
  exact ⟨_, table, hmap, htable, by omega⟩

theorem exists_pcr {a : Args} {o : Output}
    (hroom : o.packetDataStart + 188 * (if a.emitsPCR then 1 else 0) ≤ o.buffer.length) :
    ∃ o', (if a.emitsPCR then o.putFilled (pcrPacket a.nowUs) else .ok o) = .ok o' := by
  by_cases hpcr : a.emitsPCR
  · rw [if_pos hpcr] at hroom ⊢
    have hlength : (pcrPacket a.nowUs).length = 11 := rfl
    exact ⟨_, putFilled_eq_ok.mpr ⟨by omega, rfl⟩⟩
  · rw [if_neg hpcr]
    exact ⟨o, rfl⟩

/-- The arguments under which the claim about `packetize` is made: the PES header fits, its
private data is there, the checks on codec data and flags pass, and the length field may be
zero or is large enough. -/
structure Admissible (s : TSPacketizer) (a : Args) (track : Track) : Prop where
  reachable : Reachable s
  index_nonneg : 0 ≤ a.trackIndex
  track_eq : s.mTracks[a.trackIndex.toNat]? = some track
  header_le : a.headerSize ≤ 184
  private_fits : PrivateDataFits a
  adts_checks : AdtsChecks track a
  single : a.emitsTables → s.mTracks = [track] ∧ throws track.makeFinalize = false
  length_fits : track.isVideo = true ∨ pesLength a (carried track a) < 65536

/-- The number of packets `packetize` makes room for. -/
def totalPackets (s : TSPacketizer) (a : Args) (track : Track) : ℕ :=
  countTSPackets moreTSPackets s.alignPayload a.headerSize (carried track a).length +
    leadingPackets a

/-- What `packetize` checks, apart from the tables and the capacity of its buffer. -/
structure Checked (s : TSPacketizer) (a : Args) (track : Track) : Prop where
  index_nonneg : 0 ≤ a.trackIndex
  track_eq : s.mTracks[a.trackIndex.toNat]? = some track
  header_le : a.headerSize ≤ 184
  private_fits : PrivateDataFits a
  adts_checks : AdtsChecks track a
  length_fits : ∀ carrier, s.mTracks[carrierIndex s a]? = some carrier →
    carrier.isVideo = true ∨ pesLength a (carried track a) < 65536

section Success

variable {s : TSPacketizer} {a : Args} {track : Track}

theorem Checked.carrierIndex_lt (h : Checked s a track) :
    carrierIndex s a < s.mTracks.length := by
  have hlt := (List.getElem?_eq_some_iff.mp h.track_eq).1
  unfold carrierIndex
  split_ifs <;> omega

theorem Admissible.carrierIndex_eq (h : Admissible s a track) :
    carrierIndex s a = a.trackIndex.toNat := by
  unfold carrierIndex
  split_ifs with htables
  · have hone := (h.single htables).1
    have hlt := (List.getElem?_eq_some_iff.mp h.track_eq).1
    rw [hone, List.length_singleton] at hlt ⊢
    omega
  · rfl

theorem Admissible.checked (h : Admissible s a track) : Checked s a track where
  index_nonneg := h.index_nonneg
  track_eq := h.track_eq
  header_le := h.header_le
  private_fits := h.private_fits
  adts_checks := h.adts_checks
  length_fits := by
    intro carrier hcarrier
    rw [h.carrierIndex_eq, h.track_eq] at hcarrier
    cases hcarrier
    exact h.length_fits

theorem Admissible.tablesFit (h : Admissible s a track) (htables : a.emitsTables) :
    TablesFit s := by
  obtain ⟨hone, hthrows⟩ := h.single htables
  cases hfinal : track.makeFinalize with
  | error e => simp [hfinal] at hthrows
  | ok track' => exact tablesFit_singleton (sound_of_reachable h.reachable) hone hfinal

theorem exists_tables (htables : a.emitsTables → TablesFit s) {o : Output}
    (hroom : o.packetDataStart + 188 * (if a.emitsTables then 2 else 0) ≤ o.buffer.length) :
    ∃ s' o', (if a.emitsTables then s.emitTables o else .ok (s, o)) = .ok (s', o') := by
  by_cases hemits : a.emitsTables
  · rw [if_pos hemits] at hroom ⊢
    exact exists_emitTables (htables hemits) hroom
  · rw [if_neg hemits]
    exact ⟨s, o, rfl⟩

/-- The tables leave each track where it is, with its format. -/
theorem Prepared.exists_track {s' : TSPacketizer} (h : Prepared s s' a) {i : ℕ} {t : Track}
    (ht : s.mTracks[i]? = some t) :
    ∃ t', s'.mTracks[i]? = some t' ∧ t'.mFormat = t.mFormat := by
  have hkey : (s'.mTracks.map key)[i]? = some (key t) := by
    rw [h.keys_eq, List.getElem?_map, ht, Option.map_some]
  rw [List.getElem?_map, Option.map_eq_some_iff] at hkey
  obtain ⟨t', ht', heq⟩ := hkey
  exact ⟨t', ht', congrArg (fun k => k.1) heq⟩

theorem exists_pesHeader (h : Checked s a track) {found carrier : Track}
    (hfound : s.mTracks[carrierIndex s a]? = some found)
    (hformat : carrier.mFormat = found.mFormat) :
    ∃ header, pesHeader carrier a (carried track a) = .ok header := by
  obtain ⟨privateData, hprivate⟩ := exists_privateBytes h.private_fits
  refine ⟨_, pesHeader_eq_ok.mpr ⟨?_, privateData, hprivate, rfl⟩⟩
  intro hlong
  rcases h.length_fits found hfound with hvideo | hshort
  · rw [Track.isVideo, hformat]
    exact hvideo
  · omega

theorem exists_emit (hrange : ∀ t ∈ s.mTracks, TrackInRange t) (h : Checked s a track)
    (htables : a.emitsTables → TablesFit s) (hcapacity : 188 * totalPackets s a track < 2 ^ 31) :
    ∃ r, s.emit a.trackIndex.toNat a (carried track a) (totalPackets s a track) = .ok r := by
  have hbuffer := newABuffer_natCast (show totalPackets s a track * 188 < 2 ^ 31 by omega)
  have hcount : totalPackets s a track =
      unitPackets s.alignPayload a (carried track a) + leadingPackets a := by
    rw [totalPackets, unitPackets_eq]
  have hroom : (List.replicate (totalPackets s a track * 188) (0 : UInt8)).length =
      188 * unitPackets s.alignPayload a (carried track a) + 188 * leadingPackets a := by
    rw [List.length_replicate, hcount]
    omega
  generalize List.replicate (totalPackets s a track * 188) (0 : UInt8) = buffer at hbuffer hroom
  rw [leadingPackets] at hroom
  obtain ⟨s', o₁, hemitted⟩ := exists_tables htables (o := ⟨buffer, 0⟩) (by dsimp only; omega)
  obtain ⟨ps, hwritten, hps⟩ := leads_emitTables hemitted
  have hprepared := hwritten.prepared
  have hstart₁ := hps.start_eq
  have hlength₁ := hps.2.1.length_eq
  dsimp only at hstart₁ hlength₁
  obtain ⟨o₂, hpcr⟩ := exists_pcr (a := a) (o := o₁) (by omega)
  have hqs := leads_pcr hpcr
  have hstart₂ := hqs.start_eq
  have hlength₂ := hqs.2.1.length_eq
  have hfound := List.getElem?_eq_getElem h.carrierIndex_lt
  obtain ⟨carrier, hcarrier, hformat⟩ := hprepared.exists_track hfound
  have hcarrierRange := hprepared.inRange hrange carrier (List.mem_of_getElem? hcarrier)
  obtain ⟨header, hheader⟩ := exists_pesHeader h hfound hformat
  obtain ⟨⟨o₃, carrier'⟩, hpes⟩ := exists_emitPES s.alignPayload hcarrierRange
    h.header_le hheader (show o₂.packetDataStart + _ ≤ o₂.buffer.length by omega)
  obtain ⟨-, -, ⟨packets, ts, hpackets, hwrites, hparse, -⟩, -⟩ :=
    emits_emitPES hcarrierRange h.header_le hpes
  have hstart₃ := hwrites.start_eq
  rw [length_flatten_packets fun p hp => (length_of_mapM_parse hparse p hp).1, hpackets]
    at hstart₃
  unfold carrierIndex at hcarrier
  unfold emit
  rw [hbuffer, ok_bind, hemitted, ok_bind]
  dsimp only
  rw [hpcr, ok_bind, hprepared.length_eq, hcarrier, hprepared.alignPayload_eq]
  dsimp only
  rw [hpes, ok_bind]
  dsimp only
  rw [if_neg]
  · exact ⟨_, rfl⟩
  · rw [not_not]
    omega

/-- A call comes down to writing into a buffer for the closed-form number of packets. -/
theorem packetize_eq_emit (h : Checked s a track)
    (hlength : (carried track a).length < 2 ^ 31) :
    s.packetize a =
      s.emit a.trackIndex.toNat a (carried track a) (totalPackets s a track) := by
  have hlt := (List.getElem?_eq_some_iff.mp h.track_eq).1
  have hindex := h.index_nonneg
  have hsize := h.header_le
  have hnum : numTSPackets s.alignPayload a.headerSize (carried track a).length =
      .ok (countTSPackets moreTSPackets s.alignPayload a.headerSize (carried track a).length) :=
    if_neg (by omega)
  rw [packetize, if_neg (by omega), if_neg (by omega), h.track_eq]
  dsimp only
  rw [prepend_eq h.adts_checks hlength, ok_bind, hnum, ok_bind, Nat.add_assoc]
  rfl

theorem exists_packetize (hrange : ∀ t ∈ s.mTracks, TrackInRange t) (h : Checked s a track)
    (htables : a.emitsTables → TablesFit s) (hcapacity : 188 * totalPackets s a track < 2 ^ 31) :
    ∃ r, s.packetize a = .ok r := by
  have hcount := unitPackets_eq s.alignPayload a (carried track a)
  have hunitLength := length_le_unitPackets s.alignPayload a (carried track a)
  rw [packetize_eq_emit h (by rw [totalPackets] at hcapacity; omega)]
  exact exists_emit hrange h htables hcapacity

/-- A capacity from `2 ^ 31` on is negative as an `int`. -/
theorem packetize_error (h : Admissible s a track) (hlength : (carried track a).length < 2 ^ 31)
    (hlo : 2 ^ 31 ≤ 188 * totalPackets s a track) (hhi : 188 * totalPackets s a track < 2 ^ 32) :
    s.packetize a = .error .illegalArgument := by
  have hwraps := int32_wraps (x := (totalPackets s a track * 188 : ℕ)) (by omega) (by omega)
  have hbuffer : newABuffer (totalPackets s a track * 188 : ℕ) = .error .illegalArgument :=
    if_pos (by omega)
  rw [packetize_eq_emit h.checked hlength, emit, hbuffer, error_bind]

end Success

/-! ## The packets of an access unit -/

/-- The closed form counts as the debugging loop does, and a call for `track` returns that many
packets behind the leading ones, from which the access unit can be read back. The time is read
back as the code computes it, in 64 bits. -/
structure Lossless (s : TSPacketizer) (a : Args) (track : Track) : Prop where
  count_eq : numTSPackets s.alignPayload a.headerSize (carried track a).length =
    .ok (countTSPackets debugTSPackets s.alignPayload a.headerSize (carried track a).length)
  emitted : ∃ (r : Packetized) (packets : List (List UInt8)) (ts : List Packet) (pes : Pes),
    s.packetize a = .ok r ∧ r.err = 0 ∧
    r.packets = some packets.flatten ∧
    packets.length = leadingPackets a +
      countTSPackets debugTSPackets s.alignPayload a.headerSize (carried track a).length ∧
    (∀ p ∈ packets, p.length = 188 ∧ p.head? = some 0x47) ∧
    (packets.drop (leadingPackets a)).mapM parse = some ts ∧
    parsePes (ts.flatMap Packet.payload) = some pes ∧ pes.payload = carried track a ∧
    pes.length = (if 65536 ≤ pes.following then 0 else pes.following) ∧
    pes.pts = some ((int64 (a.accessUnit.timeUs * 9)).tdiv 100 % 2 ^ 33).toNat

theorem packetize_lossless {s : TSPacketizer} {a : Args} {track : Track}
    (h : Admissible s a track) (hcapacity : 188 * totalPackets s a track < 2 ^ 31) :
    Lossless s a track := by
  have hcount := unitPackets_eq s.alignPayload a (carried track a)
  have hunitLength := length_le_unitPackets s.alignPayload a (carried track a)
  have hlt := (List.getElem?_eq_some_iff.mp h.track_eq).1
  have hindex := h.index_nonneg
  have hsize := h.header_le
  constructor
  · rw [numTSPackets, if_neg (by omega), ← hcount]
    rfl
  have hrange : ∀ t ∈ s.mTracks, TrackInRange t :=
    fun t ht => ((sound_of_reachable h.reachable).tracks t ht).range
  obtain ⟨r, hr⟩ := exists_packetize hrange h.checked h.tablesFit hcapacity
  cases outcome_packetize hrange hr with
  | rejected hbound => omega
  | @emitted _ found carrier unit header leading packets ts _ htrack hunit _ hprepared hcarrier
      hheader hleadingLength hleading hpackets hparse hcarries =>
      rw [h.track_eq] at htrack
      cases htrack
      rw [prepend_eq h.adts_checks (by rw [totalPackets] at hcapacity; omega)] at hunit
      cases hunit
      have hcarrierRange := hprepared.inRange hrange carrier (List.mem_of_getElem? hcarrier)
      have hpes := (parsePes_pesHeader hcarrierRange.streamID_lt hsize hheader).2
      rw [← hcarries.payload_eq] at hpes
      refine ⟨_, leading ++ packets, ts, _, hr, rfl, rfl, ?_, ?_, ?_, hpes, rfl, rfl, rfl⟩
      · rw [List.length_append, hleadingLength, hpackets]
        rfl
      · intro p hp
        rcases List.mem_append.mp hp with hp | hp
        · exact hleading p hp
        · exact length_of_mapM_parse hparse p hp
      · rw [← hleadingLength, List.drop_left]
        exact hparse

/-! ## A unit too large for the output buffer -/

def avcFormat : MediaFormat := ⟨some MIMETYPE_VIDEO_AVC, [], none, none, none⟩

/-- A packetizer with one H.264 track. -/
def avcPacketizer : TSPacketizer := ⟨0, [Track.new avcFormat 0x1011 0x1b 0xe0], [], 0, 0⟩

/-- A call for a unit of zeros, with no flags and no extra header bytes. -/
def zerosArgs (length : ℕ) : Args :=
  ⟨0, ⟨List.replicate length 0, 100, false⟩, 0, none, 0, 0, 0⟩

theorem admissible_zeros (length : ℕ) :
    Admissible avcPacketizer (zerosArgs length) (Track.new avcFormat 0x1011 0x1b 0xe0) where
  reachable := ⟨0, ⟨0, [], [], 0, 0⟩, [.addTrack avcFormat], rfl, rfl⟩
  index_nonneg := Int.le_refl 0
  track_eq := rfl
  header_le := show PES_header_size 0 0 ≤ 184 by decide
  private_fits := by
    intro hpos
    cases hpos
  adts_checks := by
    intro haac
    cases haac
  single := by
    intro htables
    exact absurd (show (0 : BitVec 32) &&& EMIT_PAT_AND_PMT = 0 by decide) htables
  length_fits := Or.inl rfl

theorem carried_zeros (length : ℕ) :
    carried (Track.new avcFormat 0x1011 0x1b 0xe0) (zerosArgs length) =
      List.replicate length 0 := by
  have hflags : ¬ ((zerosArgs length).flags &&& PREPEND_SPS_PPS_TO_IDR_FRAMES ≠ 0) :=
    show ¬ ((0 : BitVec 32) &&& PREPEND_SPS_PPS_TO_IDR_FRAMES ≠ 0) by decide
  rw [carried, prefixBytes, if_neg fun h => hflags h.2.1, if_neg fun h => by cases h.1]
  rfl

theorem packetize_capacity_overflows : ¬ ∀ (s : TSPacketizer) (a : Args) (track : Track),
    Admissible s a track → Lossless s a track := by
  intro h
  have hadmissible := admissible_zeros 2147483600
  have hlength : (carried (Track.new avcFormat 0x1011 0x1b 0xe0) (zerosArgs 2147483600)).length =
      2147483600 := by
    rw [carried_zeros, List.length_replicate]
  have htotal : totalPackets avcPacketizer (zerosArgs 2147483600)
      (Track.new avcFormat 0x1011 0x1b 0xe0) = 11671107 := by
    rw [totalPackets, hlength]
    decide
  obtain ⟨r, -, -, -, hr, -⟩ := (h _ _ _ hadmissible).emitted
  rw [packetize_error hadmissible (by omega) (by omega) (by omega)] at hr
  cases hr

theorem packetize_lossless_zeros :
    Lossless avcPacketizer (zerosArgs 171) (Track.new avcFormat 0x1011 0x1b 0xe0) := by
  apply packetize_lossless (admissible_zeros 171)
  rw [totalPackets, carried_zeros, List.length_replicate]
  decide

end MirrorCast.Ts
