import MirrorCast.Program.MediaSender
import MirrorCast.Verification.Ts.Packetizing

/-! # On which track the packets of a unit go out -/

namespace MirrorCast.Ts

open Java MpegTs TSPacketizer MediaSender

/-! ## Runs of a sender and its packetizer -/

/-- A direct call of `packetize`, the beginning of `queueAccessUnit`, or one pass of its loop. -/
inductive Input where
  | packetize (a : Args)
  | queue (trackIndex : ℤ) (accessUnit : ABuffer)
  | pass (r : Round)

def step : Machine.Step MediaSender Input Sent JavaException
  | s, .packetize a =>
      match s.mTSPacketizer with
      | none => .error .nullPointer
      | some packetizer => do
          let r ← packetizer.packetize a
          return ({ s with mTSPacketizer := some r.packetizer },
            (r.packets.map (Sent.mk a.trackIndex.toNat a)).toList)
  | s, .queue trackIndex accessUnit => do
      let s ← s.enqueue trackIndex accessUnit
      return (s, [])
  | s, .pass r => do
      let (s, _, sent) ← s.pass r
      return (s, sent)

/-- The tracks of the formats, all accepted: `initAsync` builds its packetizer so, with flags 0. -/
structure Started (formats : List (MediaFormat × BitVec 32)) (tracks : List Track)
    (s : MediaSender) : Prop where
  accepted : ∃ flags p₀ p, TSPacketizer.new flags = .ok p₀ ∧
    addTracks p₀ (formats.map fun f => ⟨f.1, TSPacketizer.isAudio f.1.mime, f.2, [], -1⟩) =
      (OK, p, s.mTrackInfos) ∧ s.mTSPacketizer = some p ∧ p.mTracks = tracks
  mode_eq : s.mMode = .MODE_TRANSPORT_STREAM
  prevTime_eq : s.mPrevTimeUs = -1

/-- The `n` packets of the unit, behind the leading ones, carry the PID and the stream ID of
the track it was queued for, and the track's counter from `counter` on. -/
def OwnPackets (tracks : List Track) (counter n : ℕ) (o : Sent) : Prop :=
  ∃ (track : Track) (leading packets : List (List UInt8)) (ts : List Packet)
      (payload : List UInt8) (pes : Pes),
    tracks[o.trackIndex]? = some track ∧ o.packets = (leading ++ packets).flatten ∧
    leading.length = leadingPackets o.args ∧ (∀ p ∈ leading ++ packets, p.length = 188) ∧
    packets.length = n ∧ packets.mapM parse = some ts ∧
    Carries track.mPID counter true ts payload ∧ parsePes payload = some pes ∧
    pes.streamId = track.mStreamID

/-- All units go out on their own tracks, whose counters stand at `counters`. -/
inductive OnOwnTracks (tracks : List Track) : (ℕ → ℕ) → List Sent → Prop where
  | nil (counters : ℕ → ℕ) : OnOwnTracks tracks counters []
  | cons {counters : ℕ → ℕ} {o : Sent} {os : List Sent} {n : ℕ}
      (own : OwnPackets tracks (counters o.trackIndex) n o)
      (rest : OnOwnTracks tracks
        (Function.update counters o.trackIndex (counters o.trackIndex + n)) os) :
      OnOwnTracks tracks counters (o :: os)

/-! ## The packetizer follows its counters -/

/-- The packetizer has the tracks, with their counters. -/
structure Follows (tracks : List Track) (counters : ℕ → ℕ) (p : TSPacketizer) : Prop where
  sound : Sound p
  keys_eq : p.mTracks.map key = tracks.map key
  counter_eq : ∀ i t, p.mTracks[i]? = some t → t.mContinuityCounter = counters i % 16

theorem Follows.length_eq {tracks : List Track} {counters : ℕ → ℕ} {p : TSPacketizer}
    (h : Follows tracks counters p) : p.mTracks.length = tracks.length := by
  have hlength := congrArg List.length h.keys_eq
  simpa using hlength

/-- The `i`-th track has the fields it was added with. -/
theorem exists_track_of_keys {tracks tracks' : List Track} {i : ℕ} {t : Track}
    (hkeys : tracks'.map key = tracks.map key) (h : tracks'[i]? = some t) :
    ∃ t₀, tracks[i]? = some t₀ ∧ t₀.mPID = t.mPID ∧ t₀.mStreamID = t.mStreamID := by
  have hmap : (tracks.map key)[i]? = some (key t) := by
    rw [← hkeys, List.getElem?_map, h]
    rfl
  rw [List.getElem?_map, Option.map_eq_some_iff] at hmap
  obtain ⟨t₀, ht₀, hkey⟩ := hmap
  simp only [key, Prod.mk.injEq] at hkey
  exact ⟨t₀, ht₀, hkey.2.1, hkey.2.2.2⟩

theorem Prepared.counters_eq {s s' : TSPacketizer} {a : Args} (h : Prepared s s' a) :
    s'.mTracks.map Track.mContinuityCounter = s.mTracks.map Track.mContinuityCounter := by
  by_cases htables : a.emitsTables
  · refine map_of_mapM_ok (fun t t' hfinal => ?_) (h.finalized htables)
    rw [(makeFinalize_eq_ok hfinal).1]
  · rw [h.kept htables]

theorem counter_of_map {xs ys : List Track} {i : ℕ} {t : Track}
    (h : xs.map Track.mContinuityCounter = ys.map Track.mContinuityCounter)
    (ht : xs[i]? = some t) :
    ∃ t', ys[i]? = some t' ∧ t'.mContinuityCounter = t.mContinuityCounter := by
  have hmap : (ys.map Track.mContinuityCounter)[i]? = some t.mContinuityCounter := by
    rw [← h, List.getElem?_map, ht]
    rfl
  rwa [List.getElem?_map, Option.map_eq_some_iff] at hmap

/-- A call that returns packets sends them on the track `carrierIndex` names. -/
theorem follows_packetize {tracks : List Track} {counters : ℕ → ℕ} {p : TSPacketizer} {a : Args}
    {r : Packetized} (h : Follows tracks counters p) (hr : p.packetize a = .ok r) :
    (r.packets = none ∧ r.packetizer = p) ∨
      ∃ out n, r.packets = some out ∧ a.trackIndex.toNat < tracks.length ∧
        OwnPackets tracks (counters (carrierIndex p a)) n ⟨carrierIndex p a, a, out⟩ ∧
        Follows tracks (Function.update counters (carrierIndex p a)
          (counters (carrierIndex p a) + n)) r.packetizer := by
  have hrange : ∀ t ∈ p.mTracks, TrackInRange t := fun t ht => (h.sound.tracks t ht).range
  have houtcome := outcome_packetize hrange hr
  have hsound := sound_outcome h.sound houtcome
  have hkeys := keys_outcome houtcome
  cases houtcome with
  | rejected => exact Or.inl ⟨rfl, rfl⟩
  | @emitted p' track carrier unit header leading packets ts _ htrack _ hsize hprepared hcarrier
      hheader hlength hleading _ hparse hcarries =>
      have hlt := (List.getElem?_eq_some_iff.mp htrack).1
      rw [h.length_eq] at hlt
      obtain ⟨t₀, ht₀, hPID, hID⟩ :=
        exists_track_of_keys (hprepared.keys_eq.trans h.keys_eq) hcarrier
      have hcarrierRange := hprepared.inRange hrange carrier (List.mem_of_getElem? hcarrier)
      have hpes := (parsePes_pesHeader hcarrierRange.streamID_lt hsize hheader).2
      have hcounters : ∀ i t, p'.mTracks[i]? = some t → t.mContinuityCounter = counters i % 16 := by
        intro i t ht
        obtain ⟨t', ht', heq⟩ := counter_of_map hprepared.counters_eq ht
        rw [← heq, h.counter_eq i t' ht']
      have hcounter := hcounters _ carrier hcarrier
      refine Or.inr ⟨_, packets.length, rfl, hlt, ?_, hsound, hkeys.trans h.keys_eq, ?_⟩
      · refine ⟨t₀, leading, packets, ts, header ++ unit, _, ht₀, rfl, hlength, ?_, rfl, hparse,
          ?_, hpes, hID.symm⟩
        · intro q hq
          rcases List.mem_append.mp hq with hq | hq
          · exact (hleading q hq).1
          · exact (length_of_mapM_parse hparse q hq).1
        · rw [hPID]
          refine ⟨hcarries.pid_eq, ?_, hcarries.unitStart_eq, hcarries.payload_eq⟩
          intro k q hq
          rw [hcarries.counter_eq k q hq, hcounter]
          omega
      · intro i t ht
        rw [List.getElem?_set] at ht
        split_ifs at ht with hi hbound
        · cases ht
          rw [← hi, Function.update_self, hcounter]
          dsimp only
          omega
        · rw [Function.update_of_ne (Ne.symm hi)]
          exact hcounters i t ht

theorem follows_extractCSD {tracks : List Track} {counters : ℕ → ℕ} {p : TSPacketizer}
    {trackIndex : ℤ} {r : ℤ × TSPacketizer} (h : Follows tracks counters p)
    (hr : p.extractCSDIfNecessary trackIndex = .ok r) : Follows tracks counters r.2 where
  sound := sound_extractCSD h.sound hr
  keys_eq := (keys_extractCSD hr).trans h.keys_eq
  counter_eq i t ht := by
    obtain ⟨t₀, ht₀, heq⟩ :=
      counter_of_map (map_extractCSD (fun t => (extractCSDIfNecessary_keeps t).2.1) hr) ht
    rw [← heq]
    exact h.counter_eq i t₀ ht₀

/-! ## The sender follows its packetizer -/

/-- Every track of the sender keeps zero, what `addTrack` returned, as its index. -/
structure Routes (tracks : List Track) (counters : ℕ → ℕ) (s : MediaSender) : Prop where
  packetizer : ∃ p, s.mTSPacketizer = some p ∧ Follows tracks counters p
  index_zero : ∀ info ∈ s.mTrackInfos, info.mPacketizerTrackIndex = 0

/-- The unit of this step goes out on its own track: with the tables it has to be one of the
last track, and without them the sender's unit has to be one of the first. -/
def Routed (tracks : List Track) (s : MediaSender) : Input → Prop
  | .packetize a => a.trackIndex < tracks.length → a.emitsTables →
      a.trackIndex + 1 = tracks.length
  | .queue _ _ => True
  | .pass r => ∀ trackIndex minTimeUs,
      minTrackIndex 0 none s.mTrackInfos = some (trackIndex, minTimeUs) →
        if s.tablesDue r.timeUs then trackIndex + 1 = tracks.length else trackIndex = 0

instance (tracks : List Track) (s : MediaSender) : ∀ i, Decidable (Routed tracks s i)
  | .packetize _ => inferInstanceAs (Decidable (_ → _ → _))
  | .queue _ _ => .isTrue trivial
  | .pass r => decidable_of_iff (∀ x ∈ minTrackIndex 0 none s.mTrackInfos,
      if s.tablesDue r.timeUs then x.1 + 1 = tracks.length else x.1 = 0) Prod.forall

/-- What a step does to the tracks: nothing, or the packets of one unit on its own track. -/
def Advances (tracks : List Track) (counters : ℕ → ℕ) (s' : MediaSender) (out : List Sent) : Prop :=
  (out = [] ∧ Routes tracks counters s') ∨
    ∃ o n, out = [o] ∧ OwnPackets tracks (counters o.trackIndex) n o ∧
      Routes tracks (Function.update counters o.trackIndex (counters o.trackIndex + n)) s'

theorem emitsTables_packetizeArgs (s : MediaSender) (info : TrackInfo) (accessUnit : ABuffer)
    (r : Round) : (s.packetizeArgs info accessUnit r).emitsTables ↔ s.tablesDue r.timeUs := by
  unfold Args.emitsTables packetizeArgs
  dsimp only
  split_ifs with hprepend hdue hdue
  · exact iff_of_true (by decide) hdue
  · exact iff_of_false (by decide) hdue
  · exact iff_of_true (by decide) hdue
  · exact iff_of_false (by decide) hdue

section Steps

variable {tracks : List Track} {counters : ℕ → ℕ} {s s' : MediaSender} {out : List Sent}

theorem advances_packetize {a : Args} (h : Routes tracks counters s)
    (hrouted : Routed tracks s (.packetize a)) (hstep : step s (.packetize a) = .ok (s', out)) :
    Advances tracks counters s' out := by
  obtain ⟨⟨p, hp, hfollows⟩, hindex⟩ := h
  unfold step at hstep
  dsimp only at hstep
  rw [hp] at hstep
  obtain ⟨r, hr, hstep⟩ := bind_eq_ok.mp hstep
  obtain ⟨rfl, rfl⟩ := Prod.mk.inj (Except.ok.inj hstep)
  rcases follows_packetize hfollows hr with ⟨hnone, hsame⟩ | ⟨out, n, hsome, hlt, hown, hfollows'⟩
  · refine Or.inl ⟨?_, ⟨p, by rw [hsame], hfollows⟩, hindex⟩
    rw [hnone]
    rfl
  · have hcarrier : carrierIndex p a = a.trackIndex.toNat := by
      unfold carrierIndex
      split_ifs with htables
      · have hlast := hrouted (by omega) htables
        rw [hfollows.length_eq]
        omega
      · rfl
    rw [hcarrier] at hown hfollows'
    refine Or.inr ⟨_, n, ?_, hown, ⟨_, rfl, hfollows'⟩, hindex⟩
    rw [hsome]
    rfl

theorem advances_queue {trackIndex : ℤ} {accessUnit : ABuffer} (h : Routes tracks counters s)
    (hstep : step s (.queue trackIndex accessUnit) = .ok (s', out)) :
    Advances tracks counters s' out := by
  obtain ⟨⟨p, hp, hfollows⟩, hindex⟩ := h
  obtain ⟨s₁, henqueue, hstep⟩ := bind_eq_ok.mp hstep
  obtain ⟨rfl, rfl⟩ := Prod.mk.inj (Except.ok.inj hstep)
  unfold enqueue at henqueue
  split at henqueue
  · cases henqueue
  rw [hp] at henqueue
  split at henqueue
  · cases henqueue
  · rename_i hnone _
    cases hnone
  rename_i info packetizer hinfo hsome
  cases hsome
  obtain ⟨r, hr, henqueue⟩ := bind_eq_ok.mp henqueue
  cases henqueue
  refine Or.inl ⟨rfl, ⟨_, rfl, follows_extractCSD hfollows hr⟩, ?_⟩
  intro info' hmem
  rcases List.mem_or_eq_of_mem_set hmem with hmem | rfl
  · exact hindex info' hmem
  · exact hindex info (List.mem_of_getElem? hinfo)

theorem advances_pass {r : Round} (h : Routes tracks counters s)
    (hrouted : Routed tracks s (.pass r)) (hstep : step s (.pass r) = .ok (s', out)) :
    Advances tracks counters s' out := by
  have hroutes := h
  obtain ⟨⟨p, hp, hfollows⟩, hindex⟩ := h
  obtain ⟨⟨s₁, result, sent⟩, hpass, hstep⟩ := bind_eq_ok.mp hstep
  obtain ⟨rfl, rfl⟩ := Prod.mk.inj (Except.ok.inj hstep)
  unfold MediaSender.pass at hpass
  split at hpass
  · cases hpass
    exact Or.inl ⟨rfl, hroutes⟩
  rename_i trackIndex minTimeUs hmin
  have htarget := hrouted trackIndex minTimeUs hmin
  rw [hp] at hpass
  split at hpass
  · cases hpass
  · rename_i hnone _
    cases hnone
  rename_i info packetizer hinfo hsome
  cases hsome
  split at hpass
  · cases hpass
  rename_i accessUnit rest _
  obtain ⟨packetized, hpacketized, hpass⟩ := bind_eq_ok.mp hpass
  have hzero := hindex info (List.mem_of_getElem? hinfo)
  have hcarrier : carrierIndex p (s.packetizeArgs info accessUnit r) = trackIndex := by
    unfold carrierIndex
    by_cases hdue : s.tablesDue r.timeUs
    · rw [if_pos ((emitsTables_packetizeArgs s info accessUnit r).mpr hdue), hfollows.length_eq]
      rw [if_pos hdue] at htarget
      omega
    · rw [if_neg fun htables => hdue ((emitsTables_packetizeArgs s info accessUnit r).mp htables)]
      rw [if_neg hdue] at htarget
      rw [htarget, show (s.packetizeArgs info accessUnit r).trackIndex = 0 from hzero]
      rfl
  dsimp only at hpass
  rcases follows_packetize hfollows hpacketized with
    ⟨hnone, -⟩ | ⟨packets, n, hsome, -, hown, hfollows'⟩
  · rw [hnone] at hpass
    cases hpass
  · rw [hsome] at hpass
    cases hpass
    rw [hcarrier] at hown hfollows'
    refine Or.inr ⟨_, n, rfl, hown, ⟨_, rfl, hfollows'⟩, ?_⟩
    intro info' hmem
    rcases List.mem_or_eq_of_mem_set hmem with hmem | rfl
    · exact hindex info' hmem
    · exact hzero

theorem advances_step {i : Input} (h : Routes tracks counters s) (hrouted : Routed tracks s i)
    (hstep : step s i = .ok (s', out)) : Advances tracks counters s' out := by
  cases i with
  | packetize a => exact advances_packetize h hrouted hstep
  | queue trackIndex accessUnit => exact advances_queue h hstep
  | pass r => exact advances_pass h hrouted hstep

theorem onOwnTracks_of_routes {past inputs : List Input} (h : Routes tracks counters s)
    (hmeets : Machine.Meets step (fun _ => Routed tracks) past s inputs) :
    OnOwnTracks tracks counters (Machine.outputs step s inputs) := by
  induction inputs generalizing past s counters with
  | nil => exact OnOwnTracks.nil counters
  | cons i inputs ih =>
      cases hi : step s i with
      | error e =>
          rw [Machine.outputs_cons_of_error hi]
          exact OnOwnTracks.nil counters
      | ok next =>
          obtain ⟨hrouted, hrest⟩ := (Machine.meets_cons_of_ok hi inputs).mp hmeets
          rw [Machine.outputs_cons_of_ok hi]
          rcases advances_step h hrouted hi with ⟨hnone, hroutes⟩ | ⟨o, n, hone, hown, hroutes⟩
          · rw [hnone, List.nil_append]
            exact ih hroutes hrest
          · rw [hone, List.singleton_append]
            exact OnOwnTracks.cons hown (ih hroutes hrest)

end Steps

/-! ## Calls of the sender as runs -/

/-- The first `k` passes of the loop. -/
def passes (rounds : ℕ → Round) (k : ℕ) : List Input :=
  (List.range k).map fun j => Input.pass (rounds j)

theorem passes_succ (rounds : ℕ → Round) (k : ℕ) :
    passes rounds (k + 1) = .pass (rounds 0) :: passes (fun j => rounds (j + 1)) k := by
  rw [passes, List.range_succ_eq_map, List.map_cons, List.map_map]
  rfl

theorem step_pass {s s' : MediaSender} {r : Round} {result : Option ℤ} {sent : List Sent}
    (h : s.pass r = .ok (s', result, sent)) : step s (.pass r) = .ok (s', sent) := by
  unfold step
  dsimp only
  rw [h, ok_bind]
  rfl

theorem loop_run {s s' : MediaSender} {rounds : ℕ → Round} {err : ℤ} {sent : List Sent}
    (h : s.loop rounds = .ok (s', err, sent)) :
    ∃ k, Machine.final step s (passes rounds k) = .ok s' ∧
      Machine.outputs step s (passes rounds k) = sent := by
  fun_induction MediaSender.loop s rounds generalizing s' sent with
  | case1 => cases h
  | case2 s rounds s₁ err₁ sent₁ hpass =>
      cases h
      have hstep := step_pass hpass
      refine ⟨1, ?_, ?_⟩
      · rw [passes_succ, Machine.final_cons_of_ok hstep]
        rfl
      · rw [passes_succ, Machine.outputs_cons_of_ok hstep]
        exact List.append_nil _
  | case3 => cases h
  | case4 s rounds s₁ sent₁ hpass s₂ err₂ more hloop ih =>
      cases h
      have hstep := step_pass hpass
      obtain ⟨k, hfinal, houtputs⟩ := ih hloop
      refine ⟨k + 1, ?_, ?_⟩
      · rw [passes_succ, Machine.final_cons_of_ok hstep, hfinal]
      · rw [passes_succ, Machine.outputs_cons_of_ok hstep, houtputs]

/-- What `queueAccessUnit` does is done by its beginning and some passes of its loop. -/
theorem queueAccessUnit_run {s s' : MediaSender} {trackIndex : ℤ} {accessUnit : ABuffer}
    {rounds : ℕ → Round} {err : ℤ} {sent : List Sent} (hmode : s.mMode = .MODE_TRANSPORT_STREAM)
    (hindex : trackIndex < s.mTrackInfos.length)
    (h : s.queueAccessUnit trackIndex accessUnit rounds = .ok (s', err, sent)) :
    ∃ k, Machine.final step s (.queue trackIndex accessUnit :: passes rounds k) = .ok s' ∧
      Machine.outputs step s (.queue trackIndex accessUnit :: passes rounds k) = sent := by
  unfold queueAccessUnit at h
  rw [if_neg (by rw [hmode]; decide), if_neg (by omega)] at h
  obtain ⟨s₁, henqueue, h⟩ := bind_eq_ok.mp h
  have hstep : step s (.queue trackIndex accessUnit) = .ok (s₁, []) := by
    unfold step
    dsimp only
    rw [henqueue, ok_bind]
    rfl
  obtain ⟨k, hfinal, houtputs⟩ := loop_run h
  refine ⟨k, ?_, ?_⟩
  · rw [Machine.final_cons_of_ok hstep, hfinal]
  · rw [Machine.outputs_cons_of_ok hstep, houtputs, List.nil_append]

/-! ## The start of a run -/

theorem addTracks_ok {p p' : TSPacketizer} {infos infos' : List TrackInfo}
    (h : addTracks p infos = (OK, p', infos')) (hsound : Sound p)
    (hzero : ∀ t ∈ p.mTracks, t.mContinuityCounter = 0) :
    Sound p' ∧ (∀ t ∈ p'.mTracks, t.mContinuityCounter = 0) ∧
      ∀ info ∈ infos', info.mPacketizerTrackIndex = 0 := by
  induction infos generalizing p infos' with
  | nil =>
      cases h
      exact ⟨hsound, hzero, by simp⟩
  | cons info infos ih =>
      unfold addTracks at h
      have hsound' := sound_addTrack hsound info.mFormat
      rcases addTrack_cases p info.mFormat with ⟨hneg, -⟩ | ⟨PID, streamType, start, stop, -, -, -,
        heq⟩
      · dsimp only at h
        rw [if_pos hneg] at h
        have herr := congrArg Prod.fst h
        dsimp only at herr
        rw [herr] at hneg
        exact absurd hneg (by decide)
      · rw [heq] at h hsound'
        dsimp only at h hsound'
        rw [if_neg (by decide)] at h
        obtain ⟨herr, hrest⟩ := Prod.mk.inj h
        obtain ⟨hp, hinfos⟩ := Prod.mk.inj hrest
        obtain ⟨hsoundLast, hzeroLast, hindex⟩ := ih
          (Prod.ext herr (Prod.ext hp (rfl : (addTracks _ infos).2.2 = _))) hsound' (by
            intro t ht
            rcases List.mem_append.mp ht with ht | ht
            · exact hzero t ht
            · rw [List.mem_singleton.mp ht]
              rfl)
        refine ⟨hsoundLast, hzeroLast, ?_⟩
        rw [← hinfos]
        intro info' hmem
        rcases List.mem_cons.mp hmem with rfl | hmem
        · rfl
        · exact hindex info' hmem

theorem routes_of_started {formats : List (MediaFormat × BitVec 32)} {tracks : List Track}
    {s : MediaSender} (h : Started formats tracks s) : Routes tracks (fun _ => 0) s := by
  obtain ⟨flags, p₀, p, hnew, hadd, hp, rfl⟩ := h.accepted
  have hzero : ∀ t ∈ p₀.mTracks, t.mContinuityCounter = 0 := by
    unfold TSPacketizer.new at hnew
    split at hnew
    · split at hnew
      · cases hnew
      · cases hnew
        simp
    · cases hnew
      simp
  obtain ⟨hsound, hzero', hindex⟩ := addTracks_ok hadd (sound_new hnew) hzero
  refine ⟨⟨p, hp, hsound, rfl, ?_⟩, hindex⟩
  intro i t ht
  exact hzero' t (List.mem_of_getElem? ht)

/-- A sender whose tracks were all accepted starts so. -/
theorem started_initAsync {formats : List (MediaFormat × BitVec 32)} {s s' : MediaSender}
    (hmode : s.mMode = .MODE_UNDEFINED) (hprev : s.mPrevTimeUs = -1)
    (hinfos : s.mTrackInfos =
      formats.map fun f => ⟨f.1, TSPacketizer.isAudio f.1.mime, f.2, [], -1⟩)
    (h : s.initAsync OK = .ok (OK, s')) : ∃ tracks, Started formats tracks s' := by
  unfold initAsync at h
  rw [if_neg (by rw [hmode]; decide)] at h
  obtain ⟨p₀, hnew, h⟩ := bind_eq_ok.mp h
  obtain ⟨err, p, infos, hadd⟩ : ∃ err p infos, addTracks p₀ s.mTrackInfos = (err, p, infos) :=
    ⟨_, _, _, rfl⟩
  rw [hadd] at h
  dsimp only at h
  by_cases herr : err = OK
  · rw [if_pos herr, if_neg (by decide)] at h
    obtain ⟨-, rfl⟩ := Prod.mk.inj (Except.ok.inj h)
    rw [herr, hinfos] at hadd
    exact ⟨p.mTracks, ⟨0, p₀, p, hnew, hadd, rfl, rfl⟩, rfl, hprev⟩
  · rw [if_neg herr, if_pos herr] at h
    exact absurd (Prod.mk.inj (Except.ok.inj h)).1 herr

/-! ## Every unit on its own track -/

/-- In a run whose steps are all routed, the packets of every unit carry the PID, the stream ID
and the continuity counter of the track the unit was queued for. -/
theorem units_on_own_tracks {formats : List (MediaFormat × BitVec 32)} {tracks : List Track}
    {s : MediaSender} (hstarted : Started formats tracks s) {inputs : List Input}
    (hrouted : Machine.Meets step (fun _ => Routed tracks) [] s inputs) :
    OnOwnTracks tracks (fun _ => 0) (Machine.outputs step s inputs) :=
  onOwnTracks_of_routes (routes_of_started hstarted) hrouted

/-! ## An audio and a video track -/

/-- The first packet of the unit shows the PID of the track. -/
theorem first_pid {tracks : List Track} {counter n : ℕ} {o : Sent}
    (h : OwnPackets tracks counter n o) :
    (parse ((o.packets.drop (188 * leadingPackets o.args)).take 188)).map Packet.pid =
      tracks[o.trackIndex]?.map Track.mPID := by
  obtain ⟨track, leading, packets, ts, payload, pes, htrack, hflatten, hleading, hlength, -, hparse,
    hcarries, hpes, -⟩ := h
  have hskip : leading.flatten.length = 188 * leadingPackets o.args := by
    rw [length_flatten_packets fun p hp => hlength p (List.mem_append_left packets hp), hleading]
  rw [hflatten, List.flatten_append, List.drop_left' hskip, htrack]
  cases packets with
  | nil =>
      cases hparse
      rw [← hcarries.payload_eq] at hpes
      cases hpes
  | cons q packets =>
      rw [List.mapM_cons] at hparse
      obtain ⟨t, ht, hparse⟩ := Option.bind_eq_some_iff.mp hparse
      obtain ⟨rest, -, hparse⟩ := Option.bind_eq_some_iff.mp hparse
      cases hparse
      rw [List.flatten_cons, List.take_left' (hlength q (by simp)), ht, Option.map_some,
        hcarries.pid_eq t List.mem_cons_self]
      rfl

def aacFormat : MediaFormat := ⟨some MIMETYPE_AUDIO_AAC, [], some 1, none, none⟩

def twoFormats : List (MediaFormat × BitVec 32) := [(aacFormat, 0), (avcFormat, 0)]

def twoTracks : List Track :=
  [Track.new aacFormat 0x1100 0x0f 0xc0, Track.new avcFormat 0x1011 0x1b 0xe0]

/-- A sender of an audio and a video track. -/
def twoTrackSender : MediaSender :=
  ⟨.MODE_TRANSPORT_STREAM, [⟨aacFormat, true, 0, [], 0⟩, ⟨avcFormat, false, 0, [], 0⟩],
    some ⟨0, twoTracks, [], 0, 0⟩, -1⟩

theorem started_twoTrackSender : Started twoFormats twoTracks twoTrackSender :=
  ⟨⟨0, ⟨0, [], [], 0, 0⟩, ⟨0, twoTracks, [], 0, 0⟩, rfl, rfl, rfl, rfl⟩, rfl, rfl⟩

/-- A short unit for one of the tracks. -/
def shortArgs (trackIndex : ℤ) (flags : BitVec 32) : Args :=
  ⟨trackIndex, ⟨[1, 2, 3], 100, false⟩, flags, none, 0, 0, 0⟩

def audioWithTables : List Input := [.packetize (shortArgs 0 EMIT_PAT_AND_PMT)]

/-- What the run sends: the track of the unit, and the PID of the unit's first packet. -/
theorem outputs_audioWithTables :
    (Machine.outputs step twoTrackSender audioWithTables).map (fun o => (o.trackIndex,
      (parse ((o.packets.drop (188 * leadingPackets o.args)).take 188)).map Packet.pid)) =
      [(0, some 0x1011)] := by
  decide +kernel

/-- With the tables, the audio unit goes out on the PID of the video track. -/
theorem audio_on_video_pid : ¬ ∀ (formats : List (MediaFormat × BitVec 32)) (tracks : List Track)
    (s : MediaSender) (inputs : List Input), Started formats tracks s →
      OnOwnTracks tracks (fun _ => 0) (Machine.outputs step s inputs) := by
  intro h
  have hown := h twoFormats twoTracks twoTrackSender audioWithTables started_twoTrackSender
  have hsent := outputs_audioWithTables
  generalize Machine.outputs step twoTrackSender audioWithTables = sent at hown hsent
  obtain ⟨o, rfl, ho⟩ := List.map_eq_singleton_iff.mp hsent
  cases hown with
  | cons own rest =>
      have hpid := first_pid own
      obtain ⟨hindex, hfound⟩ := Prod.mk.inj ho
      rw [hfound, hindex] at hpid
      exact absurd hpid (by decide)

/-- The first pass sends a unit of the last track, with the tables, and the second one of the first
track, without them; then a unit is packetized directly. -/
def routedPasses : List Input :=
  [.queue 0 ⟨[1, 2, 3], 200, false⟩, .queue 1 ⟨[4, 5], 100, false⟩, .pass ⟨0, 0, OK⟩,
    .queue 1 ⟨[6], 300, false⟩, .pass ⟨50000, 50000, OK⟩, .packetize (shortArgs 0 EMIT_PCR)]

theorem units_on_own_tracks_passes : OnOwnTracks twoTracks (fun _ => 0)
    (Machine.outputs step twoTrackSender routedPasses) :=
  units_on_own_tracks started_twoTrackSender (by decide +kernel)

example : (Machine.outputs step twoTrackSender routedPasses).map Sent.trackIndex = [1, 0, 0] := by
  decide +kernel

end MirrorCast.Ts
