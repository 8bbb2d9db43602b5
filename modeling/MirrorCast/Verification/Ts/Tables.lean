import Mathlib.Algebra.Order.BigOperators.Group.List
import MirrorCast.Verification.Ts.Sections

/-! # When the PAT and the PMT of a call can be read -/

namespace MirrorCast.Ts

open Java MpegTs TSPacketizer Psi

/-! ## Finalizing -/

/-- Codec data in which `makeFinalize` finds a profile, or none at all. -/
def HasProfile (mCSD : List (List UInt8)) : Prop :=
  mCSD = [] ∨ ∃ sps pps rest, mCSD = sps :: pps :: rest ∧ 7 < sps.length ∧
    sps.take 4 = [0, 0, 0, 1]

/-- What `makeFinalize` asks of a track. -/
def Finalizable (t : Track) : Prop :=
  t.mFinalized = true ∨
    if t.isH264 then HasProfile t.mCSD
    else if t.isPCMAudio then
      t.mFormat.channelCount = some 2 ∧
        (t.mFormat.sampleRate = some 44100 ∨ t.mFormat.sampleRate = some 48000)
    else True

/-- The descriptors that finalizing gives to a track of this kind. -/
def FinalDescriptors (t : Track) (descriptors : List (List UInt8)) : Prop :=
  if t.isH264 then ∃ profile, profile.length = 3 ∧ descriptors = Track.avcDescriptors profile
  else if t.isPCMAudio then ∃ sampleRate, descriptors = [Track.lpcmDescriptor sampleRate]
  else descriptors = []

theorem profileBytes_eq_ok {mCSD : List (List UInt8)} {profile : List UInt8}
    (h : Track.profileBytes mCSD = .ok profile) : HasProfile mCSD ∧ profile.length = 3 := by
  unfold Track.profileBytes at h
  split at h
  · cases h
    exact ⟨Or.inl rfl, rfl⟩
  · cases h
  · rename_i sps pps rest
    split_ifs at h with hshort hstart hlength
    cases h
    rw [not_not] at hstart
    refine ⟨Or.inr ⟨sps, pps, rest, rfl, by omega, hstart⟩, ?_⟩
    rw [List.length_take, List.length_drop]
    omega

theorem HasProfile.exists_profile {mCSD : List (List UInt8)} (h : HasProfile mCSD) :
    ∃ profile, Track.profileBytes mCSD = .ok profile := by
  rcases h with rfl | ⟨sps, pps, rest, rfl, hlength, hstart⟩
  · exact ⟨_, rfl⟩
  · refine ⟨(sps.drop 5).take 3, ?_⟩
    rw [Track.profileBytes, if_neg (by omega), if_neg (not_not.mpr hstart), if_neg (by omega)]

theorem Finalizable.exists_finalized {t : Track} (h : Finalizable t) :
    ∃ t', t.makeFinalize = .ok t' := by
  unfold Track.makeFinalize
  by_cases hfinal : t.mFinalized = true
  · exact ⟨t, if_pos hfinal⟩
  rw [if_neg hfinal]
  have hkind := h.resolve_left hfinal
  split at hkind
  · rename_i havc
    obtain ⟨profile, hprofile⟩ := hkind.exists_profile
    rw [if_pos havc, hprofile]
    exact ⟨_, rfl⟩
  rename_i havc
  rw [if_neg havc]
  split at hkind
  · rename_i hpcm
    obtain ⟨hchannels, hrate⟩ := hkind
    rw [if_pos hpcm, hchannels]
    rcases hrate with hrate | hrate
    · rw [hrate]
      exact ⟨_, rfl⟩
    · rw [hrate]
      exact ⟨_, rfl⟩
  · rename_i hpcm
    rw [if_neg hpcm]
    exact ⟨_, rfl⟩

/-- Finalizing succeeds only on such tracks, and leaves the descriptors of their kind. -/
theorem finalizable_of_makeFinalize {t t' : Track} (h : t.makeFinalize = .ok t')
    (hempty : t.mFinalized = false → t.mDescriptors = [])
    (hfilled : t.mFinalized = true → FinalDescriptors t t.mDescriptors) :
    Finalizable t ∧ FinalDescriptors t' t'.mDescriptors := by
  unfold Track.makeFinalize at h
  split at h
  · rename_i hfinal
    cases h
    exact ⟨Or.inl hfinal, hfilled hfinal⟩
  rename_i hfinal
  have hnone := hempty (eq_false_of_ne_true hfinal)
  split at h
  · rename_i havc
    obtain ⟨profile, hprofile, h⟩ := bind_eq_ok.mp h
    cases h
    obtain ⟨hhas, hlength⟩ := profileBytes_eq_ok hprofile
    refine ⟨Or.inr ?_, ?_⟩
    · rwa [if_pos havc]
    · change FinalDescriptors t (t.mDescriptors ++ Track.avcDescriptors profile)
      rw [hnone, List.nil_append, FinalDescriptors, if_pos havc]
      exact ⟨profile, hlength, rfl⟩
  rename_i havc
  split at h
  · rename_i hpcm
    split at h
    · cases h
    rename_i channelCount hchannels
    split at h
    · cases h
    rename_i htwo
    rw [not_not] at htwo
    split at h
    · cases h
    rename_i rate hrate
    split at h
    · rename_i hrates
      cases h
      refine ⟨Or.inr ?_, ?_⟩
      · rw [if_neg havc, if_pos hpcm, hchannels, hrate, htwo]
        refine ⟨rfl, ?_⟩
        rcases hrates with rfl | rfl
        · exact Or.inl rfl
        · exact Or.inr rfl
      · change FinalDescriptors t (t.mDescriptors ++ [Track.lpcmDescriptor rate])
        rw [hnone, List.nil_append, FinalDescriptors, if_neg havc, if_pos hpcm]
        exact ⟨rate, rfl⟩
    · cases h
  · rename_i hpcm
    cases h
    refine ⟨Or.inr ?_, ?_⟩
    · rw [if_neg havc, if_neg hpcm]
      trivial
    · change FinalDescriptors t t.mDescriptors
      rw [FinalDescriptors, if_neg havc, if_neg hpcm]
      exact hnone

/-! ## The descriptors of a packetizer -/

/-- A track has no descriptors before it is finalized, and those of its kind afterwards. -/
structure DescribedTrack (t : Track) : Prop where
  empty : t.mFinalized = false → t.mDescriptors = []
  filled : t.mFinalized = true → FinalDescriptors t t.mDescriptors

structure Described (s : TSPacketizer) : Prop where
  info : s.mProgramInfoDescriptors = [] ∨ s.mProgramInfoDescriptors = [hdcpDescriptor]
  tracks : ∀ t ∈ s.mTracks, DescribedTrack t

theorem describedTrack_makeFinalize {t t' : Track} (h : t.makeFinalize = .ok t')
    (ht : DescribedTrack t) : DescribedTrack t' := by
  have hfinal : t'.mFinalized = true := by rw [(makeFinalize_eq_ok h).1]
  refine ⟨fun hnot => ?_, fun _ => (finalizable_of_makeFinalize h ht.empty ht.filled).2⟩
  rw [hfinal] at hnot
  cases hnot

theorem Prepared.describedTracks {s s' : TSPacketizer} {a : Args} (h : Prepared s s' a)
    (hs : Described s) : ∀ t ∈ s'.mTracks, DescribedTrack t := by
  by_cases htables : a.emitsTables
  · intro t ht
    obtain ⟨k, hk⟩ := List.getElem?_of_mem ht
    obtain ⟨t₀, ht₀, hfinal⟩ := getElem_of_mapM_ok (h.finalized htables) hk
    exact describedTrack_makeFinalize hfinal (hs.tracks t₀ (List.mem_of_getElem? ht₀))
  · rw [h.kept htables]
    exact hs.tracks

theorem described_outcome {s : TSPacketizer} {a : Args} {r : Packetized} (h : Described s)
    (hr : Outcome s a r) : Described r.packetizer := by
  cases hr with
  | rejected => exact h
  | emitted _ _ _ _ hprepared hcarrier _ _ _ _ _ _ =>
      have htracks := hprepared.describedTracks h
      refine ⟨by rw [hprepared.info_eq]; exact h.info, fun t ht => ?_⟩
      rcases List.mem_or_eq_of_mem_set ht with ht | rfl
      · exact htracks t ht
      · have hc := htracks _ (List.mem_of_getElem? hcarrier)
        exact ⟨hc.empty, hc.filled⟩

theorem described_extractCSD {s : TSPacketizer} {trackIndex : ℤ} {r : ℤ × TSPacketizer}
    (h : Described s) (hr : s.extractCSDIfNecessary trackIndex = .ok r) : Described r.2 := by
  have hmap := map_extractCSD (f := fun t => (t.mFormat, t.mDescriptors, t.mFinalized))
    (fun t => by
      obtain ⟨hkey, -, hdescriptors, hfinal⟩ := extractCSDIfNecessary_keeps t
      simp only [key, Prod.mk.injEq] at hkey
      rw [hkey.1, hdescriptors, hfinal]) hr
  constructor
  · rcases extractCSD_eq_ok hr with heq | heq
    · exact heq ▸ h.info
    · exact heq ▸ h.info
  · intro t ht
    have hmem := List.mem_map_of_mem (f := fun t => (t.mFormat, t.mDescriptors, t.mFinalized)) ht
    rw [hmap] at hmem
    obtain ⟨t₀, ht₀, hsame⟩ := List.mem_map.mp hmem
    simp only [Prod.mk.injEq] at hsame
    obtain ⟨hformat, hdescriptors, hfinal⟩ := hsame
    have hold := h.tracks t₀ ht₀
    constructor
    · rw [← hfinal, ← hdescriptors]
      exact hold.empty
    · rw [← hfinal, ← hdescriptors]
      have hfilled := hold.filled
      unfold FinalDescriptors Track.isH264 Track.isPCMAudio at hfilled ⊢
      rwa [← hformat]

theorem described_addTrack {s : TSPacketizer} (h : Described s) (format : MediaFormat) :
    Described (s.addTrack format).2 := by
  rcases addTrack_cases s format with ⟨-, heq⟩ | ⟨PID, streamType, start, stop, -, -, -, heq⟩
  · rw [heq]
    exact h
  rw [heq]
  refine ⟨h.info, fun t ht => ?_⟩
  rcases List.mem_append.mp ht with ht | ht
  · exact h.tracks t ht
  · rw [List.mem_singleton.mp ht]
    exact ⟨fun _ => rfl, nofun⟩

theorem described_new {flags : BitVec 32} {s : TSPacketizer}
    (h : TSPacketizer.new flags = .ok s) : Described s := by
  unfold TSPacketizer.new at h
  split_ifs at h <;> cases h
  · exact ⟨Or.inr rfl, nofun⟩
  · exact ⟨Or.inl rfl, nofun⟩

theorem described_call {s s' : TSPacketizer} {c : Call} {out : List Packetized} (hsound : Sound s)
    (h : Described s) (hcall : call s c = .ok (s', out)) : Described s' := by
  cases c with
  | addTrack format =>
      obtain ⟨rfl, -⟩ := Prod.mk.inj (Except.ok.inj hcall)
      exact described_addTrack h format
  | extractCSDIfNecessary trackIndex =>
      obtain ⟨r, hr, hcall⟩ := bind_eq_ok.mp hcall
      obtain ⟨rfl, -⟩ := Prod.mk.inj (Except.ok.inj hcall)
      exact described_extractCSD h hr
  | packetize a =>
      obtain ⟨r, hr, hcall⟩ := bind_eq_ok.mp hcall
      obtain ⟨rfl, -⟩ := Prod.mk.inj (Except.ok.inj hcall)
      exact described_outcome h
        (outcome_packetize (fun t ht => (hsound.tracks t ht).range) hr)

/-- What the tables rely on, after any calls. -/
theorem tables_of_reachable {s : TSPacketizer} (h : Reachable s) :
    (∃ next, Expects next s) ∧ Described s := by
  obtain ⟨flags, s₀, calls, hnew, hfinal⟩ := h
  have hboth := Machine.final_invariant (fun s => Sound s ∧ Described s)
    (fun _ _ _ _ h hcall => ⟨sound_call h.1 hcall, described_call h.1 h.2 hcall⟩)
    ⟨sound_new hnew, described_new hnew⟩ hfinal
  exact ⟨(expects_new hnew).final hfinal, hboth.2⟩

/-! ## The length of the PMT -/

/-- The bytes of the descriptors of a finalized track. -/
def infoLength (t : Track) : ℕ := if t.isH264 then 10 else if t.isPCMAudio then 4 else 0

/-- The bytes that the header, the section and the CRC of the PMT take. -/
def pmtLength (s : TSPacketizer) : ℕ :=
  21 + s.mProgramInfoDescriptors.flatten.length + (s.mTracks.map fun t => 5 + infoLength t).sum

theorem FinalDescriptors.length_eq {t : Track} {descriptors : List (List UInt8)}
    (h : FinalDescriptors t descriptors) : descriptors.flatten.length = infoLength t := by
  unfold FinalDescriptors at h
  unfold infoLength
  split_ifs at h ⊢
  · obtain ⟨profile, hprofile, rfl⟩ := h
    simp [Track.avcDescriptors, hprofile]
  · obtain ⟨sampleRate, rfl⟩ := h
    rfl
  · rw [h]
    rfl

theorem FinalDescriptors.wellDescribed {t : Track} {descriptors : List (List UInt8)}
    (h : FinalDescriptors t descriptors) : WellDescribed descriptors := by
  unfold FinalDescriptors at h
  intro d hd
  split_ifs at h
  · obtain ⟨profile, hprofile, rfl⟩ := h
    simp only [Track.avcDescriptors, List.mem_cons, List.not_mem_nil, or_false] at hd
    rcases hd with rfl | rfl
    · refine ⟨4, rfl, ?_⟩
      change (profile ++ [0x3f]).length = 4
      rw [List.length_append, hprofile]
      rfl
    · exact ⟨2, rfl, rfl⟩
  · obtain ⟨sampleRate, rfl⟩ := h
    rw [List.mem_singleton.mp hd]
    exact ⟨2, rfl, rfl⟩
  · rw [h] at hd
    cases hd

theorem Described.wellDescribed_info {s : TSPacketizer} (h : Described s) :
    WellDescribed s.mProgramInfoDescriptors := by
  intro d hd
  rcases h.info with hinfo | hinfo
  · rw [hinfo] at hd
    cases hd
  · rw [hinfo] at hd
    rw [List.mem_singleton.mp hd]
    exact ⟨5, rfl, rfl⟩

theorem infoLength_makeFinalize {t t' : Track} (h : t.makeFinalize = .ok t') :
    infoLength t' = infoLength t := by
  rw [(makeFinalize_eq_ok h).1]
  rfl

section Tables

variable {s : TSPacketizer} {tracks : List Track}

theorem finalDescriptors_of_mapM (h : Described s)
    (hfinal : s.mTracks.mapM Track.makeFinalize = .ok tracks) :
    ∀ t ∈ tracks, FinalDescriptors t t.mDescriptors := by
  intro t ht
  obtain ⟨k, hk⟩ := List.getElem?_of_mem ht
  obtain ⟨t₀, ht₀, hmade⟩ := getElem_of_mapM_ok hfinal hk
  have hold := h.tracks t₀ (List.mem_of_getElem? ht₀)
  exact (finalizable_of_makeFinalize hmade hold.empty hold.filled).2

/-- There is a PMT, of just that length. -/
theorem exists_PMT_finalized (hsound : Sound s) (h : Described s)
    (hfinal : s.mTracks.mapM Track.makeFinalize = .ok tracks) (counter : ℕ) :
    ∃ table, PMT counter s.mProgramInfoDescriptors tracks = .ok table ∧
      table.length = pmtLength s := by
  have hdescriptors := finalDescriptors_of_mapM h hfinal
  have hinfo := hsound.info_le
  have hshort (t : Track) (ht : t ∈ tracks) : t.mDescriptors.flatten.length ≤ 0xfff := by
    rw [(hdescriptors t ht).length_eq, infoLength]
    split_ifs <;> omega
  obtain ⟨table, htable, hlength⟩ :=
    exists_PMT counter s.mProgramInfoDescriptors tracks (by omega) hshort
  refine ⟨table, htable, ?_⟩
  have hstreams : tracks.map streamInfoLength = s.mTracks.map fun t => 5 + infoLength t := by
    rw [← map_of_mapM_ok (fun t t' h => congrArg (5 + ·) (infoLength_makeFinalize h)) hfinal]
    refine List.map_congr_left fun t ht => ?_
    rw [streamInfoLength, (hdescriptors t ht).length_eq]
  rw [hlength, hstreams, pmtLength]

theorem exists_finalized {ts : List Track} (h : ∀ t ∈ ts, Finalizable t) :
    ∃ tracks, ts.mapM Track.makeFinalize = .ok tracks := by
  induction ts with
  | nil => exact ⟨[], rfl⟩
  | cons t ts ih =>
      obtain ⟨t', ht'⟩ := (h t List.mem_cons_self).exists_finalized
      obtain ⟨rest, hrest⟩ := ih fun t₁ ht₁ => h t₁ (List.mem_cons_of_mem t ht₁)
      exact ⟨t' :: rest, by rw [List.mapM_cons, ht', hrest]; rfl⟩

theorem Expects.length_le {next : ℕ → ℕ} (h : Expects next s) : s.mTracks.length ≤ 49 := by
  have hvideo := h.sound.video_le
  have haudio := h.sound.audio_le
  have havc := h.sound.avc_le
  have haac := h.sound.aac_le
  have hpcm := h.sound.pcm_le
  have hkinds : s.mTracks.countP (fun _ => true) ≤
      s.mTracks.countP Track.isVideo + s.mTracks.countP Track.isAudio := by
    apply countP_le_add
    intro t ht _
    rcases h.pids.range t ht with ⟨hkind, -⟩ | ⟨hkind, -⟩
    · exact Or.inl hkind
    · exact Or.inr hkind
  rw [List.countP_true] at hkinds
  change s.mTracks.countP Track.isVideo ≤ _ at hvideo
  change s.mTracks.countP Track.isAudio ≤ _ at haudio
  omega

theorem Expects.pmtLength_lt {next : ℕ → ℕ} (h : Expects next s) : pmtLength s < 2 ^ 12 := by
  have hinfo := h.sound.info_le
  have hlength := h.length_le
  have hsum : (s.mTracks.map fun t => 5 + infoLength t).sum ≤ s.mTracks.length * 15 := by
    have hle := List.sum_le_card_nsmul (s.mTracks.map fun t => 5 + infoLength t) 15 (by
      intro n hn
      obtain ⟨t, -, rfl⟩ := List.mem_map.mp hn
      rw [infoLength]
      split_ifs <;> omega)
    rwa [List.length_map, nsmul_eq_mul, Nat.cast_id] at hle
  rw [pmtLength]
  omega

theorem Expects.listable {next : ℕ → ℕ} (h : Expects next s) {t : Track} (ht : t ∈ s.mTracks)
    (hdescribed : WellDescribed t.mDescriptors) : Listable t := by
  have hsound := h.sound.tracks t ht
  refine ⟨?_, hsound.range.pid_lt, hdescribed⟩
  rcases h.pids.range t ht with ⟨hkind, -⟩ | ⟨hkind, -⟩
  · rw [hsound.video hkind]
    decide
  · rcases hsound.audio hkind with htype | htype
    · rw [htype]
      decide
    · rw [htype]
      decide

end Tables

/-! ## Reading the tables of a call -/

/-- The bytes begin with a packet that reads as the PAT and one that reads as the PMT, which
lists the descriptors and the tracks of `s`. -/
def ReadTables (s : TSPacketizer) (bytes : List UInt8) : Prop :=
  ∃ (pat pmt rest : List UInt8) (p q : Packet), bytes = pat ++ pmt ++ rest ∧
    parse pat = some p ∧ parse pmt = some q ∧ parsePat p = some [(1, PID_PMT)] ∧
    parsePmt PID_PMT q = some
      ⟨1, PID_PCR, s.mProgramInfoDescriptors.map descriptorOf, s.mTracks.map streamOf⟩

/-- The call emits readable tables, for the tracks there were. -/
def EmitsReadableTables (s : TSPacketizer) (a : Args) : Prop :=
  ∃ r bytes, s.packetize a = .ok r ∧ r.packets = some bytes ∧
    r.packetizer.mTracks.map key = s.mTracks.map key ∧ ReadTables r.packetizer bytes

section Reading

variable {next : ℕ → ℕ} {s : TSPacketizer} {a : Args} {track : Track}

/-- What a call with the tables that emits something has done. -/
structure Emitted (s : TSPacketizer) (a : Args) (track : Track) (r : Packetized)
    (bytes : List UInt8) : Prop where
  checked : Checked s a track
  finalizable : ∀ t ∈ s.mTracks, Finalizable t
  capacity : 188 * totalPackets s a track < 2 ^ 31
  keys_eq : r.packetizer.mTracks.map key = s.mTracks.map key
  read_iff : ReadTables r.packetizer bytes ↔ pmtLength s ≤ 188

/-- The two packets in front read as the tables if and only if the PMT fits into its packet. -/
theorem readTables_iff (h : Expects next s) (hdescribed : Described s)
    {tracks : List Track} {table rest : List UInt8} {s' : TSPacketizer}
    (hfinal : s.mTracks.mapM Track.makeFinalize = .ok tracks)
    (htable : PMT (nextCounter s.mPMTContinuityCounter) s.mProgramInfoDescriptors tracks =
      .ok table)
    (hinfo : s'.mProgramInfoDescriptors = s.mProgramInfoDescriptors)
    (htracks : s'.mTracks.map streamOf = tracks.map streamOf)
    (hlistable : ∀ t ∈ tracks, Listable t) :
    ReadTables s' ((fillUp (PAT (nextCounter s.mPATContinuityCounter))).take 188 ++
      (fillUp table).take 188 ++ rest) ↔ pmtLength s ≤ 188 := by
  have hpat := parse_PAT (nextCounter_lt h.pat.1)
  have hpmt := parse_PMT (nextCounter_lt h.pmt.1) htable
  obtain ⟨table', htable', hlength⟩ :=
    exists_PMT_finalized h.sound hdescribed hfinal (nextCounter s.mPMTContinuityCounter)
  rw [htable] at htable'
  cases htable'
  constructor
  · rintro ⟨pat, pmt, rest', p, q, hbytes, hp, hq, -, hread⟩
    by_contra hlong
    obtain ⟨hfront, -⟩ := List.append_inj hbytes (by
      rw [List.length_append, List.length_append, (length_of_parse hp).1,
        (length_of_parse hq).1, length_take_fillUp, length_take_fillUp])
    obtain ⟨-, hsame⟩ := List.append_inj hfront (by
      rw [length_take_fillUp, (length_of_parse hp).1])
    rw [← hsame, hpmt] at hq
    cases hq
    have hlt := h.pmtLength_lt
    rw [parsePmt_PMT_long htable (by omega) (by omega)] at hread
    cases hread
  · intro hfits
    refine ⟨_, _, rest, _, _, rfl, hpat, hpmt, parsePat_PAT _ _, ?_⟩
    rw [hinfo, htracks]
    exact parsePmt_PMT htable hdescribed.wellDescribed_info hlistable (by omega) _

theorem emitted_packetize (h : Expects next s) (hdescribed : Described s)
    (htables : a.emitsTables) {r : Packetized} {bytes : List UInt8}
    (hr : s.packetize a = .ok r) (hbytes : r.packets = some bytes) :
    ∃ track, Emitted s a track r bytes := by
  have hrange : ∀ t ∈ s.mTracks, TrackInRange t := fun t ht => (h.sound.tracks t ht).range
  have hresult := result_packetize hrange hr
  have hkeys := keys_outcome hresult.outcome
  cases hresult with
  | rejected => cases hbytes
  | @emitted s' track carrier unit header tables packets ts hindex htrack hunit hsize hwritten
      hlength hleading hcarrier hheader hcount hparse hcarries hcapacity =>
      cases hbytes
      obtain ⟨hadts, rfl⟩ := prepend_eq_ok hunit
      have hprepared := hwritten.prepared
      obtain ⟨front, -, -, hafter⟩ := h.tables hwritten
      cases hwritten with
      | omitted hnot => exact absurd htables hnot
      | @written tracks table _ hfinal htable =>
          obtain ⟨hvideo, privateData, hprivate, -⟩ := pesHeader_eq_ok.mp hheader
          refine ⟨track, ⟨hindex, htrack, hsize, ?_, hadts, ?_⟩, ?_, ?_, hkeys, ?_⟩
          · intro hpos
            unfold privateBytes at hprivate
            rw [if_pos hpos] at hprivate
            split at hprivate
            · cases hprivate
            · rename_i bytes hsome
              split at hprivate
              · cases hprivate
              · rename_i hfits
                exact ⟨bytes, hsome, Nat.le_of_not_lt hfits⟩
          · intro found hfound
            obtain ⟨carrier', hcarrier', hformat⟩ := hprepared.exists_track hfound
            rw [hcarrier] at hcarrier'
            cases hcarrier'
            by_cases hlong : 65536 ≤ pesLength a (carried track a)
            · refine Or.inl ?_
              have hkind := hvideo hlong
              rwa [Track.isVideo, hformat] at hkind
            · exact Or.inr (Nat.lt_of_not_le hlong)
          · intro t ht
            obtain ⟨k, hk⟩ := List.getElem?_of_mem ht
            have hlt := (List.getElem?_eq_some_iff.mp hk).1
            rw [← length_of_mapM_ok hfinal] at hlt
            obtain ⟨t₀, ht₀, hmade⟩ :=
              getElem_of_mapM_ok hfinal (List.getElem?_eq_getElem hlt)
            rw [hk] at ht₀
            cases ht₀
            have hold := hdescribed.tracks t ht
            exact (finalizable_of_makeFinalize hmade hold.empty hold.filled).1
          · rw [List.flatten_append, List.length_append,
              length_flatten_packets fun p hp => (hleading p hp).1,
              length_flatten_packets fun p hp => (length_of_mapM_parse hparse p hp).1, hlength,
              hcount, unitPackets_eq] at hcapacity
            rw [totalPackets]
            omega
          · rw [List.append_assoc, List.flatten_append, List.flatten_cons, List.flatten_singleton]
            refine readTables_iff h hdescribed hfinal htable rfl
              (map_set_of_eq hcarrier rfl) fun t ht => hafter.listable ht ?_
            exact (finalDescriptors_of_mapM hdescribed hfinal t ht).wellDescribed

/-- The tables of a call can be read if and only if the arguments and the tracks pass the checks
and the PMT takes no more than one packet. -/
theorem tables_readable_iff (hs : Reachable s) (htables : a.emitsTables) :
    EmitsReadableTables s a ↔
      ∃ track, Checked s a track ∧ (∀ t ∈ s.mTracks, Finalizable t) ∧
        188 * totalPackets s a track < 2 ^ 31 ∧ pmtLength s ≤ 188 := by
  obtain ⟨⟨next, h⟩, hdescribed⟩ := tables_of_reachable hs
  constructor
  · rintro ⟨r, bytes, hr, hbytes, -, hread⟩
    obtain ⟨track, hemitted⟩ := emitted_packetize h hdescribed htables hr hbytes
    exact ⟨track, hemitted.checked, hemitted.finalizable, hemitted.capacity,
      hemitted.read_iff.mp hread⟩
  · rintro ⟨track, hchecked, hfinalizable, hcapacity, hfits⟩
    have hrange : ∀ t ∈ s.mTracks, TrackInRange t := fun t ht => (h.sound.tracks t ht).range
    obtain ⟨tracks, hfinal⟩ := exists_finalized hfinalizable
    obtain ⟨table, htable, hlength⟩ := exists_PMT_finalized h.sound hdescribed hfinal
      (nextCounter s.mPMTContinuityCounter)
    obtain ⟨r, hr⟩ := exists_packetize hrange hchecked
      (fun _ => ⟨tracks, table, hfinal, htable, by omega⟩) hcapacity
    obtain ⟨bytes, hbytes⟩ : ∃ bytes, r.packets = some bytes := by
      have hlt := (List.getElem?_eq_some_iff.mp hchecked.track_eq).1
      have hindex := hchecked.index_nonneg
      cases result_packetize hrange hr with
      | rejected hbound => omega
      | emitted => exact ⟨_, rfl⟩
    obtain ⟨track', hemitted⟩ := emitted_packetize h hdescribed htables hr hbytes
    exact ⟨r, bytes, hr, hbytes, hemitted.keys_eq, hemitted.read_iff.mpr hfits⟩

end Reading

/-! ## Twelve tracks -/

def tablesArgs : Args := ⟨0, ⟨[7], 0, false⟩, EMIT_PAT_AND_PMT, none, 0, 0, 0⟩

/-- Twelve H.264 tracks, without codec data: their PMT takes 201 bytes. -/
def twelveTracks : TSPacketizer :=
  (List.replicate 12 avcFormat).foldl (fun s format => (s.addTrack format).2) ⟨0, [], [], 0, 0⟩

theorem tables_readable_twelveTracks_fails : ¬ ∀ (s : TSPacketizer) (a : Args), Reachable s →
    a.emitsTables → (∃ r bytes, s.packetize a = .ok r ∧ r.packets = some bytes) →
      EmitsReadableTables s a := by
  intro h
  have hreachable : Reachable twelveTracks :=
    ⟨0, ⟨0, [], [], 0, 0⟩, List.replicate 12 (.addTrack avcFormat), rfl, rfl⟩
  have hlength : pmtLength twelveTracks = 201 := by decide +kernel
  have hreturns : ∃ r bytes, twelveTracks.packetize tablesArgs = .ok r ∧
      r.packets = some bytes := by
    have hsome : ((twelveTracks.packetize tablesArgs).toOption.bind
      Packetized.packets).isSome = true := by decide +kernel
    cases hr : twelveTracks.packetize tablesArgs with
    | error e =>
        rw [hr] at hsome
        cases hsome
    | ok r =>
        rw [hr] at hsome
        obtain ⟨bytes, hbytes⟩ := Option.isSome_iff_exists.mp hsome
        exact ⟨r, bytes, rfl, hbytes⟩
  obtain ⟨r, bytes, hr, hbytes, -, hread⟩ := h _ _ hreachable (by decide) hreturns
  obtain ⟨⟨next, hexpects⟩, hdescribed⟩ := tables_of_reachable hreachable
  obtain ⟨track, hemitted⟩ :=
    emitted_packetize hexpects hdescribed (by decide) hr hbytes
  have hfits := hemitted.read_iff.mp hread
  omega

theorem tables_readable_oneTrack : EmitsReadableTables avcPacketizer tablesArgs := by
  have hreachable : Reachable avcPacketizer :=
    ⟨0, ⟨0, [], [], 0, 0⟩, [.addTrack avcFormat], rfl, rfl⟩
  refine (tables_readable_iff hreachable (by decide)).mpr
    ⟨Track.new avcFormat 0x1011 0x1b 0xe0, ⟨by decide, rfl, by decide, nofun, nofun, ?_⟩, ?_,
      by decide +kernel, by decide⟩
  · intro carrier hcarrier
    cases hcarrier
    exact Or.inl rfl
  · intro t ht
    rw [List.mem_singleton.mp ht]
    exact Or.inr (Or.inl rfl)

end MirrorCast.Ts
