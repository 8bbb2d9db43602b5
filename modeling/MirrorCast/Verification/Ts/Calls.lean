import MirrorCast.Library.Machine
import MirrorCast.Verification.Ts.Emission

/-! # What a call of the packetizer can do, and what every call keeps -/

namespace MirrorCast.Ts

open Java MpegTs TSPacketizer

/-! ## The outcome of `packetize` -/

/-- The track whose packets carry the unit: the last one after the loop over the tracks. -/
def carrierIndex (s : TSPacketizer) (a : Args) : ℕ :=
  if a.emitsTables then s.mTracks.length - 1 else a.trackIndex.toNat

/-- The number of packets in front of those of the unit. -/
def leadingPackets (a : Args) : ℕ :=
  (if a.emitsTables then 2 else 0) + (if a.emitsPCR then 1 else 0)

/-- `s'` is `s` after the tables are written, if they are. -/
structure Prepared (s s' : TSPacketizer) (a : Args) : Prop where
  flags_eq : s'.mFlags = s.mFlags
  info_eq : s'.mProgramInfoDescriptors = s.mProgramInfoDescriptors
  finalized : a.emitsTables → s.mTracks.mapM Track.makeFinalize = .ok s'.mTracks
  kept : ¬ a.emitsTables → s' = s

/-- What `packetize` returns. -/
inductive Outcome (s : TSPacketizer) (a : Args) : Packetized → Prop where
  | rejected (h : (s.mTracks.length : ℤ) ≤ a.trackIndex) : Outcome s a ⟨-ERANGE, none, s⟩
  | emitted {s' : TSPacketizer} {track carrier : Track} {unit header : List UInt8}
      {leading packets : List (List UInt8)} {ts : List Packet}
      (hindex : 0 ≤ a.trackIndex)
      (htrack : s.mTracks[a.trackIndex.toNat]? = some track)
      (hunit : track.prepend a.flags a.accessUnit = .ok unit)
      (hsize : a.headerSize ≤ 184)
      (hprepared : Prepared s s' a)
      (hcarrier : s'.mTracks[carrierIndex s a]? = some carrier)
      (hheader : pesHeader carrier a unit = .ok header)
      (hlength : leading.length = leadingPackets a)
      (hleading : ∀ p ∈ leading, p.length = 188 ∧ p.head? = some 0x47)
      (hcount : packets.length = unitPackets s.alignPayload a unit)
      (hparse : packets.mapM parse = some ts)
      (hcarries : Carries carrier.mPID carrier.mContinuityCounter true ts (header ++ unit)) :
      Outcome s a
        ⟨0, some (leading ++ packets).flatten,
          { s' with
            mTracks := s'.mTracks.set (carrierIndex s a)
              { carrier with
                mContinuityCounter := (carrier.mContinuityCounter + packets.length) % 16 } }⟩

theorem length_of_mapM_ok {α β ε : Type} {f : α → Except ε β} {xs : List α} {ys : List β}
    (h : xs.mapM f = .ok ys) : ys.length = xs.length := by
  induction xs generalizing ys with
  | nil =>
      cases h
      rfl
  | cons x xs ih =>
      rw [List.mapM_cons] at h
      obtain ⟨y, -, h⟩ := bind_eq_ok.mp h
      obtain ⟨rest, hrest, h⟩ := bind_eq_ok.mp h
      cases h
      rw [List.length_cons, List.length_cons, ih hrest]

theorem getElem_of_mapM_ok {α β ε : Type} {f : α → Except ε β} {xs : List α} {ys : List β}
    (h : xs.mapM f = .ok ys) {k : ℕ} {y : β} (hy : ys[k]? = some y) :
    ∃ x, xs[k]? = some x ∧ f x = .ok y := by
  induction xs generalizing ys k with
  | nil =>
      cases h
      cases hy
  | cons x xs ih =>
      rw [List.mapM_cons] at h
      obtain ⟨y', hx, h⟩ := bind_eq_ok.mp h
      obtain ⟨rest, hrest, h⟩ := bind_eq_ok.mp h
      cases h
      cases k with
      | zero =>
          cases hy
          exact ⟨x, rfl, hx⟩
      | succ k => exact ih hrest hy

/-- Finalizing fills in the descriptors and nothing else. -/
theorem makeFinalize_eq_ok {track track' : Track} (h : track.makeFinalize = .ok track') :
    track' = { track with mDescriptors := track'.mDescriptors, mFinalized := true } ∧
      (track.mFinalized = true → track' = track) ∧
      (track.mFinalized = false → track.mDescriptors = [] →
        track'.mDescriptors.flatten.length ≤ 10) := by
  unfold Track.makeFinalize at h
  split at h
  · rename_i hfinal
    cases h
    refine ⟨?_, fun _ => rfl, fun hnot => by simp [hnot] at hfinal⟩
    cases track
    cases hfinal
    rfl
  rename_i hfinal
  split at h
  · obtain ⟨profile, hprofile, h⟩ := bind_eq_ok.mp h
    cases h
    refine ⟨rfl, fun hf => absurd hf hfinal, fun _ hnone => ?_⟩
    have hlength : profile.length ≤ 3 := by
      unfold Track.profileBytes at hprofile
      split at hprofile
      · cases hprofile
        decide
      · cases hprofile
      · split_ifs at hprofile
        cases hprofile
        rw [List.length_take]
        omega
    rw [hnone, List.nil_append]
    simp only [Track.avcDescriptors, List.flatten_cons, List.flatten_nil, List.append_nil,
      List.length_append, List.length_cons, List.length_nil]
    omega
  · split at h
    · split at h
      · cases h
      · split at h
        · cases h
        · split at h
          · cases h
          · split at h
            · cases h
              refine ⟨rfl, fun hf => absurd hf hfinal, fun _ hnone => ?_⟩
              rw [hnone, List.nil_append]
              simp [Track.lpcmDescriptor]
            · cases h
    · cases h
      refine ⟨rfl, fun hf => absurd hf hfinal, fun _ hnone => ?_⟩
      change track.mDescriptors.flatten.length ≤ 10
      rw [hnone]
      decide

theorem inRange_of_makeFinalize {track track' : Track} (h : track.makeFinalize = .ok track')
    (hrange : TrackInRange track) : TrackInRange track' := by
  rw [(makeFinalize_eq_ok h).1]
  exact ⟨hrange.pid_lt, hrange.streamID_lt, hrange.counter_lt⟩

theorem Tables.prepared {s s' : TSPacketizer} {a : Args} {ps : List (List UInt8)}
    (h : Tables s a s' ps) : Prepared s s' a := by
  cases h with
  | omitted htables => exact ⟨rfl, rfl, fun hyes => absurd hyes htables, fun _ => rfl⟩
  | written htables hfinal htable =>
      exact ⟨rfl, rfl, fun _ => hfinal, fun hnot => absurd htables hnot⟩

theorem Prepared.inRange {s s' : TSPacketizer} {a : Args} (h : Prepared s s' a)
    (hrange : ∀ t ∈ s.mTracks, TrackInRange t) : ∀ t ∈ s'.mTracks, TrackInRange t := by
  by_cases htables : a.emitsTables
  · intro t ht
    obtain ⟨k, hk⟩ := List.getElem?_of_mem ht
    obtain ⟨t₀, ht₀, hfinal⟩ := getElem_of_mapM_ok (h.finalized htables) hk
    exact inRange_of_makeFinalize hfinal (hrange t₀ (List.mem_of_getElem? ht₀))
  · rw [h.kept htables]
    exact hrange

theorem Prepared.length_eq {s s' : TSPacketizer} {a : Args} (h : Prepared s s' a) :
    s'.mTracks.length = s.mTracks.length := by
  by_cases htables : a.emitsTables
  · exact length_of_mapM_ok (h.finalized htables)
  · rw [h.kept htables]

theorem Prepared.alignPayload_eq {s s' : TSPacketizer} {a : Args} (h : Prepared s s' a) :
    s'.alignPayload = s.alignPayload := by
  rw [alignPayload, h.flags_eq, alignPayload]

/-- A buffer whose position has reached its end holds exactly what was written. -/
theorem buffer_of_writes {n : ℕ} {o : Output} {bytes : List UInt8}
    (h : Writes ⟨List.replicate n 0, 0⟩ o bytes)
    (hend : o.packetDataStart = (List.replicate n (0 : UInt8)).length) : o.buffer = bytes := by
  have hwritten := h.written_eq
  rw [List.take_of_length_le (by rw [hend, h.length_eq])] at hwritten
  rw [hwritten, List.take_zero, List.nil_append]

theorem newABuffer_eq_ok {capacity : ℤ} {buffer : List UInt8} (h : newABuffer capacity = .ok buffer) :
    buffer = List.replicate (int32 capacity).toNat 0 := by
  unfold newABuffer at h
  split at h
  · cases h
  · exact (Except.ok.inj h).symm

theorem length_replicate_int32 (capacity : ℤ) :
    (List.replicate (int32 capacity).toNat (0 : UInt8)).length < 2 ^ 31 := by
  have hbounds := int32_bounds capacity
  rw [List.length_replicate]
  omega

/-- What `packetize` returns, with the packets in front of those of the unit. -/
inductive Result (s : TSPacketizer) (a : Args) : Packetized → Prop where
  | rejected (h : (s.mTracks.length : ℤ) ≤ a.trackIndex) : Result s a ⟨-ERANGE, none, s⟩
  | emitted {s' : TSPacketizer} {track carrier : Track} {unit header : List UInt8}
      {tables packets : List (List UInt8)} {ts : List Packet}
      (hindex : 0 ≤ a.trackIndex)
      (htrack : s.mTracks[a.trackIndex.toNat]? = some track)
      (hunit : track.prepend a.flags a.accessUnit = .ok unit)
      (hsize : a.headerSize ≤ 184)
      (htables : Tables s a s' tables)
      (hlength : (tables ++ clockPackets a).length = leadingPackets a)
      (hleading : ∀ p ∈ tables ++ clockPackets a, p.length = 188 ∧ p.head? = some 0x47)
      (hcarrier : s'.mTracks[carrierIndex s a]? = some carrier)
      (hheader : pesHeader carrier a unit = .ok header)
      (hcount : packets.length = unitPackets s.alignPayload a unit)
      (hparse : packets.mapM parse = some ts)
      (hcarries : Carries carrier.mPID carrier.mContinuityCounter true ts (header ++ unit))
      (hcapacity : (tables ++ clockPackets a ++ packets).flatten.length < 2 ^ 31) :
      Result s a
        ⟨0, some (tables ++ clockPackets a ++ packets).flatten,
          { s' with
            mTracks := s'.mTracks.set (carrierIndex s a)
              { carrier with
                mContinuityCounter := (carrier.mContinuityCounter + packets.length) % 16 } }⟩

theorem result_packetize {s : TSPacketizer} {a : Args} {r : Packetized}
    (hrange : ∀ t ∈ s.mTracks, TrackInRange t) (h : s.packetize a = .ok r) : Result s a r := by
  unfold packetize at h
  split at h
  · rename_i hbound
    cases h
    exact Result.rejected hbound
  split at h
  · cases h
  rename_i hindex
  split at h
  · cases h
  rename_i track htrack
  obtain ⟨unit, hunit, h⟩ := bind_eq_ok.mp h
  obtain ⟨n, hn, h⟩ := bind_eq_ok.mp h
  have hsize : a.headerSize ≤ 184 := by
    unfold numTSPackets at hn
    split at hn
    · cases hn
    · omega
  obtain ⟨buffer, hbuffer, h⟩ := bind_eq_ok.mp h
  obtain ⟨⟨s', o₁⟩, htables, h⟩ := bind_eq_ok.mp h
  obtain ⟨ps, hps, hleads⟩ := leads_emitTables htables
  have hprepared := hps.prepared
  obtain ⟨o₂, hpcr, h⟩ := bind_eq_ok.mp h
  dsimp only at h
  split at h
  · cases h
  rename_i carrier hcarrier
  obtain ⟨⟨o₃, carrier'⟩, hpes, h⟩ := bind_eq_ok.mp h
  dsimp only at h
  split at h
  · cases h
  rename_i hend
  rw [not_not] at hend
  have hcarrierRange := hprepared.inRange hrange carrier (List.mem_of_getElem? hcarrier)
  obtain ⟨header, hheader, ⟨packets, ts, hcount, hwrites, hparse, hcarries⟩, rfl⟩ :=
    emits_emitPES hcarrierRange hsize hpes
  have hfront := hleads.trans (leads_pcr hpcr)
  rw [newABuffer_eq_ok hbuffer] at hfront hend
  have hall := buffer_of_writes (hfront.2.1.trans hwrites) hend
  rw [hprepared.length_eq] at hcarrier h
  rw [hprepared.alignPayload_eq] at hcount
  cases h
  have hcapacity : o₃.buffer.length < 2 ^ 31 := by
    rw [(hfront.2.1.trans hwrites).length_eq]
    dsimp only
    exact length_replicate_int32 _
  rw [hall, ← List.flatten_append] at hcapacity
  rw [hall, ← List.flatten_append, hprepared.alignPayload_eq, ← hcount]
  exact Result.emitted (by omega) htrack hunit hsize hps hfront.1 hfront.2.2 hcarrier hheader
    hcount hparse hcarries hcapacity

theorem Result.outcome {s : TSPacketizer} {a : Args} {r : Packetized} (h : Result s a r) :
    Outcome s a r := by
  cases h with
  | rejected hbound => exact Outcome.rejected hbound
  | emitted hindex htrack hunit hsize htables hlength hleading hcarrier hheader hcount hparse
      hcarries _ =>
      exact Outcome.emitted hindex htrack hunit hsize htables.prepared hcarrier hheader hlength
        hleading hcount hparse hcarries

theorem outcome_packetize {s : TSPacketizer} {a : Args} {r : Packetized}
    (hrange : ∀ t ∈ s.mTracks, TrackInRange t) (h : s.packetize a = .ok r) : Outcome s a r :=
  (result_packetize hrange h).outcome

/-! ## Calls and what they keep -/

inductive Call where
  | addTrack (format : MediaFormat)
  | extractCSDIfNecessary (trackIndex : ℤ)
  | packetize (a : Args)

/-- One call; `packetize` shows its result. -/
def call : Machine.Step TSPacketizer Call Packetized JavaException
  | s, .addTrack format => .ok ((s.addTrack format).2, [])
  | s, .extractCSDIfNecessary trackIndex => do
      let r ← s.extractCSDIfNecessary trackIndex
      return (r.2, [])
  | s, .packetize a => do
      let r ← s.packetize a
      return (r.packetizer, [r])

/-- A packetizer after calls that all returned. -/
def Reachable (s : TSPacketizer) : Prop :=
  ∃ flags s₀ calls, TSPacketizer.new flags = .ok s₀ ∧ Machine.final call s₀ calls = .ok s

/-- The fields of a track that never change. -/
def key (t : Track) : MediaFormat × ℕ × ℕ × ℕ := (t.mFormat, t.mPID, t.mStreamType, t.mStreamID)

theorem map_set_of_eq {α β : Type} {f : α → β} {xs : List α} {i : ℕ} {x y : α}
    (h : xs[i]? = some y) (hf : f x = f y) : (xs.set i x).map f = xs.map f := by
  induction xs generalizing i with
  | nil => rfl
  | cons z xs ih =>
      cases i with
      | zero =>
          cases h
          rw [List.set_cons_zero, List.map_cons, List.map_cons, hf]
      | succ i => rw [List.set_cons_succ, List.map_cons, ih h, List.map_cons]

theorem map_of_mapM_ok {α β γ ε : Type} {f : α → Except ε β} {g : α → γ} {g' : β → γ}
    (hg : ∀ x y, f x = .ok y → g' y = g x) {xs : List α} {ys : List β}
    (h : xs.mapM f = .ok ys) : ys.map g' = xs.map g := by
  induction xs generalizing ys with
  | nil =>
      cases h
      rfl
  | cons x xs ih =>
      rw [List.mapM_cons] at h
      obtain ⟨y, hx, h⟩ := bind_eq_ok.mp h
      obtain ⟨rest, hrest, h⟩ := bind_eq_ok.mp h
      cases h
      rw [List.map_cons, List.map_cons, hg x y hx, ih hrest]

theorem key_makeFinalize {t t' : Track} (h : t.makeFinalize = .ok t') : key t' = key t := by
  rw [(makeFinalize_eq_ok h).1]
  rfl

theorem Prepared.keys_eq {s s' : TSPacketizer} {a : Args} (h : Prepared s s' a) :
    s'.mTracks.map key = s.mTracks.map key := by
  by_cases htables : a.emitsTables
  · exact map_of_mapM_ok (fun _ _ => key_makeFinalize) (h.finalized htables)
  · rw [h.kept htables]

/-- Packetizing keeps the tracks apart from counters and descriptors. -/
theorem keys_outcome {s : TSPacketizer} {a : Args} {r : Packetized} (h : Outcome s a r) :
    r.packetizer.mTracks.map key = s.mTracks.map key := by
  cases h with
  | rejected => rfl
  | emitted _ _ _ _ hprepared hcarrier _ _ _ _ _ _ =>
      refine (map_set_of_eq hcarrier ?_).trans hprepared.keys_eq
      rfl

theorem extractCSD_eq_ok {s : TSPacketizer} {trackIndex : ℤ} {r : ℤ × TSPacketizer}
    (h : s.extractCSDIfNecessary trackIndex = .ok r) :
    r.2 = s ∨ r.2 = { s with
      mTracks := s.mTracks.modify trackIndex.toNat Track.extractCSDIfNecessary } := by
  unfold TSPacketizer.extractCSDIfNecessary at h
  split at h
  · cases h
    exact Or.inl rfl
  · split at h
    · cases h
    · cases h
      exact Or.inr rfl

theorem extractCSDIfNecessary_keeps (t : Track) :
    key t.extractCSDIfNecessary = key t ∧
      t.extractCSDIfNecessary.mContinuityCounter = t.mContinuityCounter ∧
      t.extractCSDIfNecessary.mDescriptors = t.mDescriptors ∧
      t.extractCSDIfNecessary.mFinalized = t.mFinalized := by
  unfold Track.extractCSDIfNecessary
  split
  · exact ⟨rfl, rfl, rfl, rfl⟩
  · exact ⟨rfl, rfl, rfl, rfl⟩

theorem map_modify_of_eq {α β : Type} {f : α → β} {g : α → α} (h : ∀ x, f (g x) = f x)
    (xs : List α) (i : ℕ) : (xs.modify i g).map f = xs.map f := by
  induction xs generalizing i with
  | nil => rw [List.modify_nil]
  | cons x xs ih =>
      cases i with
      | zero => rw [List.modify_zero_cons, List.map_cons, List.map_cons, h]
      | succ i => rw [List.modify_succ_cons, List.map_cons, List.map_cons, ih]

/-- Extracting the codec data keeps what does not depend on it. -/
theorem map_extractCSD {β : Type} {f : Track → β} (hf : ∀ t, f t.extractCSDIfNecessary = f t)
    {s : TSPacketizer} {trackIndex : ℤ} {r : ℤ × TSPacketizer}
    (h : s.extractCSDIfNecessary trackIndex = .ok r) :
    r.2.mTracks.map f = s.mTracks.map f := by
  rcases extractCSD_eq_ok h with heq | heq
  · rw [heq]
  · rw [heq]
    exact map_modify_of_eq hf s.mTracks trackIndex.toNat

theorem keys_extractCSD {s : TSPacketizer} {trackIndex : ℤ} {r : ℤ × TSPacketizer}
    (h : s.extractCSDIfNecessary trackIndex = .ok r) :
    r.2.mTracks.map key = s.mTracks.map key :=
  map_extractCSD (fun t => (extractCSDIfNecessary_keeps t).1) h

/-! ## The invariant of a packetizer -/

/-- Stream type by media kind, header fields in range, and descriptors only if finalized. -/
structure SoundTrack (t : Track) : Prop where
  video : t.isVideo = true → t.mStreamType = 0x1b
  audio : t.isAudio = true → t.mStreamType = 0x0f ∨ t.mStreamType = 0x83
  range : TrackInRange t
  undescribed : t.mFinalized = false → t.mDescriptors = []
  descriptors_le : t.mDescriptors.flatten.length ≤ 10

/-- How many tracks have the stream type. -/
def ofType (s : TSPacketizer) (streamType : ℕ) : ℕ :=
  (s.mTracks.map key).countP fun k => k.2.2.1 == streamType

structure Sound (s : TSPacketizer) : Prop where
  info_le : s.mProgramInfoDescriptors.flatten.length ≤ 7
  tracks : ∀ t ∈ s.mTracks, SoundTrack t
  avc_le : ofType s 0x1b ≤ 16
  aac_le : ofType s 0x0f ≤ 32
  pcm_le : ofType s 0x83 ≤ 1

theorem ofType_eq (s : TSPacketizer) (streamType : ℕ) :
    ofType s streamType = s.mTracks.countP fun t => t.mStreamType == streamType := by
  rw [ofType, List.countP_map]
  rfl

theorem sound_new {flags : BitVec 32} {s : TSPacketizer} (h : TSPacketizer.new flags = .ok s) :
    Sound s := by
  have hempty : ∀ info : List (List UInt8), info.flatten.length ≤ 7 →
      Sound ⟨flags, [], info, 0, 0⟩ := by
    intro info hinfo
    exact ⟨hinfo, by simp, Nat.zero_le _, Nat.zero_le _, Nat.zero_le _⟩
  unfold TSPacketizer.new at h
  split at h
  · split at h
    · cases h
    · cases h
      exact hempty _ (by decide)
  · cases h
    exact hempty _ (by decide)

/-- A change that keeps the keys and the program descriptors keeps the invariant. -/
theorem sound_of_keys {s s' : TSPacketizer} (h : Sound s)
    (hinfo : s'.mProgramInfoDescriptors = s.mProgramInfoDescriptors)
    (hkeys : s'.mTracks.map key = s.mTracks.map key)
    (htracks : ∀ t ∈ s'.mTracks, SoundTrack t) : Sound s' := by
  have hof : ∀ streamType, ofType s' streamType = ofType s streamType := by
    intro streamType
    rw [ofType, hkeys, ofType]
  refine ⟨by rw [hinfo]; exact h.info_le, htracks, ?_, ?_, ?_⟩
  · rw [hof]
    exact h.avc_le
  · rw [hof]
    exact h.aac_le
  · rw [hof]
    exact h.pcm_le

theorem soundTrack_makeFinalize {t t' : Track} (h : t.makeFinalize = .ok t')
    (hsound : SoundTrack t) : SoundTrack t' := by
  obtain ⟨heq, hsame, hdescriptors⟩ := makeFinalize_eq_ok h
  cases hfinal : t.mFinalized with
  | true =>
      rw [hsame hfinal]
      exact hsound
  | false =>
      have hle := hdescriptors hfinal (hsound.undescribed hfinal)
      rw [heq]
      refine ⟨hsound.video, hsound.audio, ?_, ?_, hle⟩
      · exact ⟨hsound.range.pid_lt, hsound.range.streamID_lt, hsound.range.counter_lt⟩
      · intro hnot
        cases hnot

theorem Prepared.soundTracks {s s' : TSPacketizer} {a : Args} (h : Prepared s s' a)
    (hsound : ∀ t ∈ s.mTracks, SoundTrack t) : ∀ t ∈ s'.mTracks, SoundTrack t := by
  by_cases htables : a.emitsTables
  · intro t ht
    obtain ⟨k, hk⟩ := List.getElem?_of_mem ht
    obtain ⟨t₀, ht₀, hfinal⟩ := getElem_of_mapM_ok (h.finalized htables) hk
    exact soundTrack_makeFinalize hfinal (hsound t₀ (List.mem_of_getElem? ht₀))
  · rw [h.kept htables]
    exact hsound

theorem sound_outcome {s : TSPacketizer} {a : Args} {r : Packetized} (h : Sound s)
    (hr : Outcome s a r) : Sound r.packetizer := by
  have hkeys := keys_outcome hr
  cases hr with
  | rejected => exact h
  | emitted _ _ _ _ hprepared hcarrier _ _ _ _ _ _ =>
      refine sound_of_keys h hprepared.info_eq hkeys ?_
      have htracks := hprepared.soundTracks h.tracks
      intro t ht
      rcases List.mem_or_eq_of_mem_set ht with ht | rfl
      · exact htracks t ht
      · have hc := htracks _ (List.mem_of_getElem? hcarrier)
        exact ⟨hc.video, hc.audio, ⟨hc.range.pid_lt, hc.range.streamID_lt,
          Nat.mod_lt _ (by decide)⟩, hc.undescribed, hc.descriptors_le⟩

theorem soundTrack_extractCSD {t : Track} (h : SoundTrack t) :
    SoundTrack t.extractCSDIfNecessary := by
  obtain ⟨hkey, hcounter, hdescriptors, hfinal⟩ := extractCSDIfNecessary_keeps t
  simp only [key, Prod.mk.injEq] at hkey
  obtain ⟨hformat, hPID, htype, hID⟩ := hkey
  constructor
  · rw [Track.isVideo, hformat, htype]
    exact h.video
  · rw [Track.isAudio, hformat, htype]
    exact h.audio
  · refine ⟨?_, ?_, ?_⟩
    · rw [hPID]
      exact h.range.pid_lt
    · rw [hID]
      exact h.range.streamID_lt
    · rw [hcounter]
      exact h.range.counter_lt
  · rw [hfinal, hdescriptors]
    exact h.undescribed
  · rw [hdescriptors]
    exact h.descriptors_le

theorem sound_extractCSD {s : TSPacketizer} {trackIndex : ℤ} {r : ℤ × TSPacketizer}
    (h : Sound s) (hr : s.extractCSDIfNecessary trackIndex = .ok r) : Sound r.2 := by
  have hkeys := keys_extractCSD hr
  rcases extractCSD_eq_ok hr with heq | heq
  · rw [heq]
    exact h
  · rw [heq] at hkeys ⊢
    refine sound_of_keys h rfl hkeys ?_
    intro t ht
    obtain ⟨k, hk⟩ := List.getElem?_of_mem ht
    rw [List.getElem?_modify, Option.map_eq_map, Option.map_eq_some_iff] at hk
    obtain ⟨t₀, ht₀, rfl⟩ := hk
    have hsound := h.tracks t₀ (List.mem_of_getElem? ht₀)
    split
    · exact soundTrack_extractCSD hsound
    · exact hsound

/-! ## Adding tracks -/

/-- The two kinds of media and what `addTrack` assigns to them. -/
theorem kind_of_mime {mime : Option (List Char)} {PID streamType start stop : ℕ}
    (hPID : PIDStart mime = some PID) (hkind : streamKind mime = some (streamType, start, stop)) :
    (isVideo mime = true ∧ isAudio mime = false ∧ PID = 0x1011 ∧ streamType = 0x1b ∧
        start = 0xe0 ∧ stop = 0xef) ∨
      (isVideo mime = false ∧ isAudio mime = true ∧ PID = 0x1100 ∧
        (streamType = 0x0f ∧ start = 0xc0 ∧ stop = 0xdf ∨
          streamType = 0x83 ∧ start = 0xbd ∧ stop = 0xbd)) := by
  cases mime with
  | none => cases hPID
  | some s =>
      have hvideo : isVideo (some s) =
          ['v', 'i', 'd', 'e', 'o', '/'].isPrefixOf (toLowerCase s) := rfl
      have haudio : isAudio (some s) =
          ['a', 'u', 'd', 'i', 'o', '/'].isPrefixOf (toLowerCase s) := rfl
      have hequals : ∀ type, equalsIgnoreCase type (some s) = true → toLowerCase s = type :=
        fun _ h => of_decide_eq_true h
      unfold streamKind at hkind
      unfold PIDStart at hPID
      split_ifs at hkind with havc haac hpcm
      · rw [hequals _ havc] at hvideo haudio
        change isVideo (some s) = true at hvideo
        change isAudio (some s) = false at haudio
        rw [if_pos hvideo] at hPID
        cases hkind
        cases hPID
        exact Or.inl ⟨hvideo, haudio, rfl, rfl, rfl, rfl⟩
      · rw [hequals _ haac] at hvideo haudio
        change isVideo (some s) = false at hvideo
        change isAudio (some s) = true at haudio
        rw [if_neg (by rw [hvideo]; decide), if_pos haudio] at hPID
        cases hkind
        cases hPID
        exact Or.inr ⟨hvideo, haudio, rfl, Or.inl ⟨rfl, rfl, rfl⟩⟩
      · rw [hequals _ hpcm] at hvideo haudio
        change isVideo (some s) = false at hvideo
        change isAudio (some s) = true at haudio
        rw [if_neg (by rw [hvideo]; decide), if_pos haudio] at hPID
        cases hkind
        cases hPID
        exact Or.inr ⟨hvideo, haudio, rfl, Or.inr ⟨rfl, rfl, rfl⟩⟩

/-- `addTrack` either refuses the format or appends a track for it. -/
theorem addTrack_cases (s : TSPacketizer) (format : MediaFormat) :
    ((s.addTrack format).1 < 0 ∧ (s.addTrack format).2 = s) ∨
      ∃ PID streamType start stop, PIDStart format.mime = some PID ∧
        streamKind format.mime = some (streamType, start, stop) ∧
        start + ofType s streamType ≤ stop ∧
        s.addTrack format = (0, { s with
          mTracks := s.mTracks ++ [Track.new format
            (PID + s.mTracks.countP fun track =>
              isAudio format.mime && track.isAudio || isVideo format.mime && track.isVideo)
            streamType (start + ofType s streamType)] }) := by
  unfold addTrack
  split
  · rename_i PID streamType start stop hPID hkind
    dsimp only
    rw [← ofType_eq]
    split
    · exact Or.inl ⟨show -ERANGE < 0 by decide, rfl⟩
    · rename_i hfits
      exact Or.inr ⟨PID, streamType, start, stop, hPID, hkind, Nat.le_of_not_lt hfits, rfl⟩
  · exact Or.inl ⟨show ERROR_UNSUPPORTED < 0 by decide, rfl⟩

theorem countP_le_add {α : Type} {p q r : α → Bool} {xs : List α}
    (h : ∀ x ∈ xs, p x = true → q x = true ∨ r x = true) :
    xs.countP p ≤ xs.countP q + xs.countP r := by
  induction xs with
  | nil => simp
  | cons x xs ih =>
      have hrest := ih fun y hy => h y (List.mem_cons_of_mem x hy)
      have hx := h x List.mem_cons_self
      simp only [List.countP_cons]
      cases hp : p x
      · simp only [Bool.false_eq_true, if_false]
        omega
      · rcases hx hp with hq | hr
        · rw [hq]
          simp only [if_true]
          omega
        · rw [hr]
          simp only [if_true]
          omega

theorem ofType_append (s : TSPacketizer) (t : Track) (streamType : ℕ) :
    ofType { s with mTracks := s.mTracks ++ [t] } streamType =
      ofType s streamType + if t.mStreamType = streamType then 1 else 0 := by
  simp [ofType_eq, List.countP_append, List.countP_cons]

theorem Sound.video_le {s : TSPacketizer} (h : Sound s) :
    (s.mTracks.countP fun track => track.isVideo) ≤ ofType s 0x1b := by
  rw [ofType_eq]
  apply List.countP_mono_left
  intro t ht hvideo
  rw [(h.tracks t ht).video hvideo]
  rfl

theorem Sound.audio_le {s : TSPacketizer} (h : Sound s) :
    (s.mTracks.countP fun track => track.isAudio) ≤ ofType s 0x0f + ofType s 0x83 := by
  rw [ofType_eq, ofType_eq]
  apply countP_le_add
  intro t ht haudio
  rcases (h.tracks t ht).audio haudio with htype | htype
  · exact Or.inl (by rw [htype]; rfl)
  · exact Or.inr (by rw [htype]; rfl)

theorem sound_addTrack {s : TSPacketizer} (h : Sound s) (format : MediaFormat) :
    Sound (s.addTrack format).2 := by
  rcases addTrack_cases s format with ⟨-, heq⟩ | ⟨PID, streamType, start, stop, hPID, hkind,
    hfits, heq⟩
  · rw [heq]
    exact h
  rw [heq]
  have havc := h.avc_le
  have haac := h.aac_le
  have hpcm := h.pcm_le
  have hvideoCount := h.video_le
  have haudioCount := h.audio_le
  rcases kind_of_mime hPID hkind with ⟨hv, ha, rfl, rfl, rfl, rfl⟩ | ⟨hv, ha, rfl, htype⟩
  · refine ⟨h.info_le, ?_, ?_, ?_, ?_⟩
    · intro t ht
      rcases List.mem_append.mp ht with ht | ht
      · exact h.tracks t ht
      · rw [List.mem_singleton.mp ht]
        refine ⟨fun _ => rfl, ?_, ⟨?_, ?_, Nat.zero_lt_succ 15⟩, fun _ => rfl,
          Nat.zero_le 10⟩
        · intro haudio
          change isAudio format.mime = true at haudio
          rw [ha] at haudio
          cases haudio
        · simp only [Track.new, ha, hv, Bool.false_and, Bool.true_and, Bool.false_or]
          omega
        · simp only [Track.new]
          omega
    · rw [ofType_append]
      simp only [Track.new, if_true]
      omega
    · rw [ofType_append]
      simp only [Track.new, Nat.reduceEqDiff, if_false]
      omega
    · rw [ofType_append]
      simp only [Track.new, Nat.reduceEqDiff, if_false]
      omega
  · refine ⟨h.info_le, ?_, ?_, ?_, ?_⟩
    · intro t ht
      rcases List.mem_append.mp ht with ht | ht
      · exact h.tracks t ht
      · rw [List.mem_singleton.mp ht]
        refine ⟨?_, ?_, ⟨?_, ?_, Nat.zero_lt_succ 15⟩, fun _ => rfl,
          Nat.zero_le 10⟩
        · intro hvideo
          change isVideo format.mime = true at hvideo
          rw [hv] at hvideo
          cases hvideo
        · intro _
          simp only [Track.new]
          omega
        · simp only [Track.new, ha, hv, Bool.false_and, Bool.true_and, Bool.or_false]
          omega
        · simp only [Track.new]
          omega
    all_goals
      rw [ofType_append]
      simp only [Track.new]
      rcases htype with ⟨rfl, rfl, rfl⟩ | ⟨rfl, rfl, rfl⟩
    all_goals
      simp only [Nat.reduceEqDiff, if_false, if_true]
      omega

theorem sound_call {s s' : TSPacketizer} {c : Call} {out : List Packetized} (h : Sound s)
    (hcall : call s c = .ok (s', out)) : Sound s' := by
  cases c with
  | addTrack format =>
      obtain ⟨rfl, -⟩ := Prod.mk.inj (Except.ok.inj hcall)
      exact sound_addTrack h format
  | extractCSDIfNecessary trackIndex =>
      obtain ⟨r, hr, hcall⟩ := bind_eq_ok.mp hcall
      obtain ⟨rfl, -⟩ := Prod.mk.inj (Except.ok.inj hcall)
      exact sound_extractCSD h hr
  | packetize a =>
      obtain ⟨r, hr, hcall⟩ := bind_eq_ok.mp hcall
      obtain ⟨rfl, -⟩ := Prod.mk.inj (Except.ok.inj hcall)
      exact sound_outcome h (outcome_packetize (fun t ht => (h.tracks t ht).range) hr)

theorem sound_of_reachable {s : TSPacketizer} (h : Reachable s) : Sound s := by
  obtain ⟨flags, s₀, calls, hnew, hfinal⟩ := h
  exact Machine.final_invariant Sound (fun _ _ _ _ => sound_call) (sound_new hnew) hfinal

end MirrorCast.Ts
