import MirrorCast.Verification.Ts.Packetizing

/-! # The continuity counters of the stream -/

namespace MirrorCast.Ts

open Java MpegTs TSPacketizer

/-! ## Tables and clock references as packets -/

/-- The first 188 bytes of a filled table, behind its header. -/
theorem take_fillUp (b0 b1 b2 b3 : UInt8) (rest : List UInt8) :
    (fillUp (b0 :: b1 :: b2 :: b3 :: rest)).take 188 =
      b0 :: b1 :: b2 :: b3 ::
        (rest ++ List.replicate (188 - (b0 :: b1 :: b2 :: b3 :: rest).length) 0xff).take 184 :=
  rfl

theorem length_take_fillUp (bytes : List UInt8) : ((fillUp bytes).take 188).length = 188 := by
  have hlength := length_fillUp bytes
  rw [List.length_take]
  omega

theorem toByte_counter {counter : ℕ} (h : counter < 16) :
    toByte (counter : ℕ) < 16 ∧ (toByte (counter : ℕ)).toNat = counter := by
  have hbyte : (toByte (counter : ℕ)).toNat = counter := by
    rw [toNat_toByte]
    omega
  refine ⟨?_, hbyte⟩
  rw [UInt8.lt_iff_toNat_lt, hbyte]
  exact h

/-- The payload of the packet of a table. -/
def tablePayload (rest : List UInt8) : List UInt8 :=
  (rest ++ List.replicate (184 - rest.length) 0xff).take 184

/-- A table is one packet, with the PID and the counter of its header. -/
theorem parse_table {b1 b2 : UInt8} {counter : ℕ} (hcounter : counter < 16) (rest : List UInt8) :
    parse ((fillUp (0x47 :: b1 :: b2 :: (0x10 ||| toByte counter) :: rest)).take 188) =
      some ⟨b1 &&& 0x40 != 0, (b1 &&& 0x1f).toNat * 256 + b2.toNat, counter,
        tablePayload rest⟩ := by
  have hlength := length_take_fillUp (0x47 :: b1 :: b2 :: (0x10 ||| toByte counter) :: rest)
  obtain ⟨hlow, hbyte⟩ := toByte_counter hcounter
  obtain ⟨⟨-, hcontrol⟩, -, hnibble⟩ := counter_bits _ hlow
  have hfilled : 188 - (0x47 :: b1 :: b2 :: (0x10 ||| toByte counter) :: rest).length =
      184 - rest.length := by
    simp only [List.length_cons]
    omega
  rw [take_fillUp, hfilled] at hlength ⊢
  change _ = some (Packet.mk _ _ _ ((rest ++ List.replicate (184 - rest.length) 0xff).take 184))
  generalize (rest ++ _).take 184 = payload at hlength ⊢
  simp only [parse, hlength, hcontrol, hnibble, hbyte]
  rfl

/-- A packet that is all adaptation field has no payload. -/
theorem parse_adaptation {b1 b2 : UInt8} {rest : List UInt8}
    (hlength : (0x47 :: b1 :: b2 :: 0x20 :: 0xb7 :: rest).length = 188) :
    parse (0x47 :: b1 :: b2 :: 0x20 :: 0xb7 :: rest) =
      some ⟨b1 &&& 0x40 != 0, (b1 &&& 0x1f).toNat * 256 + b2.toNat, 0, []⟩ := by
  have hpayload : parsePayload ((0x20 : UInt8) >>> 4 &&& 3) (0xb7 :: rest) = some [] := by
    have hcontrol : (0x20 : UInt8) >>> 4 &&& 3 = 2 := by decide
    have hadaptation : (0xb7 : UInt8).toNat = 183 := rfl
    simp only [List.length_cons] at hlength
    simp only [parsePayload, hcontrol, hadaptation]
    rw [if_neg (by decide), if_pos (by decide), if_neg (by omega), if_neg (by decide)]
  simp only [parse, hlength, hpayload]
  rfl

/-- A clock reference has the PCR PID. -/
theorem parse_pcr (nowUs : ℤ) :
    parse ((fillUp (pcrPacket nowUs)).take 188) = some ⟨true, PID_PCR, 0, []⟩ := by
  have hlength := length_take_fillUp (pcrPacket nowUs)
  unfold pcrPacket at hlength ⊢
  rw [take_fillUp, List.cons_append, List.take_succ_cons] at hlength ⊢
  rw [parse_adaptation hlength]
  rfl

/-! ## The PIDs of the tracks -/

/-- The PIDs of the tracks differ, and those of each media kind count up from the first one. -/
structure PidsCount (s : TSPacketizer) : Prop where
  nodup : (s.mTracks.map Track.mPID).Nodup
  range : ∀ t ∈ s.mTracks,
    t.isVideo = true ∧ 0x1011 ≤ t.mPID ∧ t.mPID < 0x1011 + s.mTracks.countP Track.isVideo ∨
      t.isAudio = true ∧ 0x1100 ≤ t.mPID ∧ t.mPID < 0x1100 + s.mTracks.countP Track.isAudio

theorem pids_of_keys {xs ys : List Track} (h : xs.map key = ys.map key) :
    xs.map Track.mPID = ys.map Track.mPID := by
  have hmap := congrArg (List.map fun k => k.2.1) h
  rwa [List.map_map, List.map_map] at hmap

theorem PidsCount.of_keys {s s' : TSPacketizer} (h : PidsCount s)
    (hkeys : s'.mTracks.map key = s.mTracks.map key) : PidsCount s' := by
  have hcount (p : Option (List Char) → Bool) :
      (s'.mTracks.countP fun t => p t.mFormat.mime) =
        s.mTracks.countP fun t => p t.mFormat.mime := by
    have hmap := congrArg (List.countP fun k => p k.1.mime) hkeys
    rwa [List.countP_map, List.countP_map] at hmap
  refine ⟨pids_of_keys hkeys ▸ h.nodup, fun t ht => ?_⟩
  have hmem : key t ∈ s.mTracks.map key := hkeys ▸ List.mem_map_of_mem ht
  obtain ⟨t₀, ht₀, hkey⟩ := List.mem_map.mp hmem
  simp only [key, Prod.mk.injEq] at hkey
  have hrange := h.range t₀ ht₀
  rw [hkey.2.1] at hrange
  unfold Track.isVideo Track.isAudio at hrange ⊢
  rwa [hkey.1, ← hcount, ← hcount] at hrange

theorem PidsCount.bounds {s : TSPacketizer} (h : PidsCount s) (hsound : Sound s) {t : Track}
    (ht : t ∈ s.mTracks) :
    t.isVideo = true ∧ 0x1011 ≤ t.mPID ∧ t.mPID < 0x1021 ∨
      t.isAudio = true ∧ 0x1100 ≤ t.mPID ∧ t.mPID < 0x1121 := by
  have hvideo := hsound.video_le.trans hsound.avc_le
  have haudio := hsound.audio_le.trans (Nat.add_le_add hsound.aac_le hsound.pcm_le)
  rcases h.range t ht with ⟨hkind, hlo, hhi⟩ | ⟨hkind, hlo, hhi⟩
  · exact Or.inl ⟨hkind, hlo, hhi.trans_le (Nat.add_le_add_left hvideo _)⟩
  · exact Or.inr ⟨hkind, hlo, hhi.trans_le (Nat.add_le_add_left haudio _)⟩

/-- The PIDs of the tables, the clock and the tracks differ. -/
theorem PidsCount.distinct {s : TSPacketizer} (h : PidsCount s) (hsound : Sound s) :
    (0 :: PID_PMT :: PID_PCR :: s.mTracks.map Track.mPID).Nodup := by
  have habove : ∀ pid ∈ s.mTracks.map Track.mPID, 0x1000 < pid := by
    intro pid hpid
    obtain ⟨t, ht, rfl⟩ := List.mem_map.mp hpid
    have hbounds := h.bounds hsound ht
    omega
  have hnot (pid : ℕ) (hle : pid ≤ 0x1000) : pid ∉ s.mTracks.map Track.mPID :=
    fun hmem => absurd (habove pid hmem) (by omega)
  refine List.nodup_cons.mpr ⟨?_, List.nodup_cons.mpr ⟨?_, List.nodup_cons.mpr ⟨?_, h.nodup⟩⟩⟩
  · simpa [PID_PMT, PID_PCR] using hnot 0 (by decide)
  · simpa [PID_PMT, PID_PCR] using hnot PID_PMT (by decide)
  · exact hnot PID_PCR (by decide)

/-- A track that is added gets the PID behind those of its kind. -/
theorem addTrack_pid {s : TSPacketizer} (hsound : Sound s) (format : MediaFormat) :
    (s.addTrack format).2 = s ∨
      ∃ t, (s.addTrack format).2 = { s with mTracks := s.mTracks ++ [t] } ∧
        t.mContinuityCounter = 0 ∧
        (t.isVideo = true ∧ t.isAudio = false ∧
            t.mPID = 0x1011 + s.mTracks.countP Track.isVideo ∧ t.mPID < 0x1021 ∨
          t.isAudio = true ∧ t.isVideo = false ∧
            t.mPID = 0x1100 + s.mTracks.countP Track.isAudio ∧ t.mPID < 0x1121) := by
  rcases addTrack_cases s format with ⟨-, heq⟩ | ⟨PID, streamType, start, stop, hPID, hkind,
    hfits, heq⟩
  · exact Or.inl (by rw [heq])
  refine Or.inr ⟨_, by rw [heq], rfl, ?_⟩
  have hvideoCount := hsound.video_le
  have haudioCount := hsound.audio_le
  have haac := hsound.aac_le
  have hpcm := hsound.pcm_le
  rcases kind_of_mime hPID hkind with ⟨hv, ha, rfl, rfl, rfl, rfl⟩ | ⟨hv, ha, rfl, htype⟩
  · refine Or.inl ⟨hv, ha, ?_, ?_⟩
    · simp only [Track.new, ha, hv, Bool.false_and, Bool.true_and, Bool.false_or]
    · simp only [Track.new, ha, hv, Bool.false_and, Bool.true_and, Bool.false_or]
      omega
  · refine Or.inr ⟨ha, hv, ?_, ?_⟩
    · simp only [Track.new, ha, hv, Bool.false_and, Bool.true_and, Bool.or_false]
    · simp only [Track.new, ha, hv, Bool.false_and, Bool.true_and, Bool.or_false]
      rcases htype with ⟨rfl, rfl, rfl⟩ | ⟨rfl, rfl, rfl⟩ <;> omega

theorem PidsCount.addTrack {s : TSPacketizer} (h : PidsCount s) (hsound : Sound s)
    (format : MediaFormat) : PidsCount (s.addTrack format).2 := by
  rcases addTrack_pid hsound format with heq | ⟨t, heq, -, hkind⟩
  · rw [heq]
    exact h
  rw [heq]
  have hvideo := hsound.video_le.trans hsound.avc_le
  have hnew : t.mPID ∉ s.mTracks.map Track.mPID := by
    intro hmem
    obtain ⟨t₀, ht₀, hsame⟩ := List.mem_map.mp hmem
    have hold := h.range t₀ ht₀
    change s.mTracks.countP Track.isVideo ≤ 16 at hvideo
    omega
  constructor
  · rw [List.map_append, List.map_singleton, List.nodup_append]
    refine ⟨h.nodup, List.nodup_cons.mpr ⟨List.not_mem_nil, List.nodup_nil⟩, ?_⟩
    rintro pid hpid _ hlast rfl
    exact hnew (List.mem_singleton.mp hlast ▸ hpid)
  · intro t' ht'
    simp only [List.countP_append, List.countP_singleton]
    rcases List.mem_append.mp ht' with hold | hlast
    · rcases h.range t' hold with ⟨hv, hlo, hhi⟩ | ⟨ha, hlo, hhi⟩
      · exact Or.inl ⟨hv, hlo, by omega⟩
      · exact Or.inr ⟨ha, hlo, by omega⟩
    · rw [List.mem_singleton.mp hlast]
      rcases hkind with ⟨hv, -, hpid, -⟩ | ⟨ha, -, hpid, -⟩
      · exact Or.inl ⟨hv, by omega, by rw [if_pos hv]; omega⟩
      · exact Or.inr ⟨ha, by omega, by rw [if_pos ha]; omega⟩

/-! ## The counters to come -/

/-- The counters that come next, once `ts` are out. -/
def after (next : ℕ → ℕ) (ts : List Packet) (pid : ℕ) : ℕ := next pid + (ofPid pid ts).length

theorem after_append (next : ℕ → ℕ) (ts us : List Packet) :
    after next (ts ++ us) = after (after next ts) us := by
  funext pid
  simp only [after, ofPid_append, List.length_append, Nat.add_assoc]

/-- The next packet of each PID gets the counter `next` says. The counters of the tables are
counted up before they are used, those of the tracks afterwards. -/
structure Expects (next : ℕ → ℕ) (s : TSPacketizer) : Prop where
  sound : Sound s
  pids : PidsCount s
  pat : s.mPATContinuityCounter < 16 ∧ next 0 % 16 = (s.mPATContinuityCounter + 1) % 16
  pmt : s.mPMTContinuityCounter < 16 ∧ next PID_PMT % 16 = (s.mPMTContinuityCounter + 1) % 16
  tracks : ∀ t ∈ s.mTracks, t.mContinuityCounter = next t.mPID % 16
  fresh : ∀ pid, 0x1011 ≤ pid → pid ∉ s.mTracks.map Track.mPID → next pid % 16 = 0

variable {next : ℕ → ℕ} {s s' : TSPacketizer} {a : Args} {ps : List (List UInt8)}

theorem Expects.pid_ge (h : Expects next s) {t : Track} (ht : t ∈ s.mTracks) :
    0x1011 ≤ t.mPID := by
  have hrange := h.pids.range t ht
  omega

/-- Clock references are not counted. -/
theorem Expects.clock (h : Expects next s) (a : Args) :
    ∃ ts, (clockPackets a).mapM parse = some ts ∧
      (∀ pid, pid ≠ PID_PCR → GoesOn pid (next pid) ts) ∧ Expects (after next ts) s := by
  have hclock : ∃ ts, (clockPackets a).mapM parse = some ts ∧ ∀ p ∈ ts, p.pid = PID_PCR := by
    unfold clockPackets
    split
    · refine ⟨_, by rw [List.mapM_cons, parse_pcr]; rfl, fun p hp => ?_⟩
      rw [List.mem_singleton.mp hp]
    · exact ⟨[], rfl, nofun⟩
  obtain ⟨ts, hparse, hpid⟩ := hclock
  have hnone (pid : ℕ) (hne : pid ≠ PID_PCR) : ofPid pid ts = [] :=
    ofPid_eq_nil fun p hp heq => hne (heq.symm.trans (hpid p hp))
  have hsame (pid : ℕ) (hne : pid ≠ PID_PCR) : after next ts pid = next pid := by
    rw [after, hnone pid hne]
    rfl
  refine ⟨ts, hparse, fun pid hne => goesOn_of_ofPid_eq_nil (hnone pid hne) _, h.sound, h.pids,
    ?_, ?_, fun t ht => ?_, fun pid hge hnew => ?_⟩
  · rw [hsame 0 (by decide)]
    exact h.pat
  · rw [hsame PID_PMT (by decide)]
    exact h.pmt
  · have hge := h.pid_ge ht
    rw [hsame t.mPID (by rw [PID_PCR]; omega)]
    exact h.tracks t ht
  · rw [hsame pid (by rw [PID_PCR]; omega)]
    exact h.fresh pid hge hnew

theorem nextCounter_lt {counter : ℕ} (h : counter < 16) : nextCounter counter < 16 := by
  rw [nextCounter_eq h]
  exact Nat.mod_lt _ (by decide)

theorem goesOn_singleton {pid counter : ℕ} {p : Packet}
    (h : p.pid = pid → p.counter = counter % 16) : GoesOn pid counter [p] := by
  intro k q hq
  obtain ⟨hmem, hpid⟩ := List.mem_filter.mp (List.mem_of_getElem? hq)
  obtain rfl := List.mem_singleton.mp hmem
  have hk : k < (ofPid pid [q]).length := (List.getElem?_eq_some_iff.mp hq).1
  have hle : (ofPid pid [q]).length ≤ 1 := List.length_filter_le _ [q]
  obtain rfl : k = 0 := by omega
  exact h (beq_iff_eq.mp hpid)

theorem parse_PAT {counter : ℕ} (hcounter : counter < 16) :
    parse ((fillUp (PAT counter)).take 188) =
      some ⟨true, 0, counter, tablePayload ((PAT counter).drop 4)⟩ :=
  parse_table hcounter _

theorem parse_PMT {counter : ℕ} {info : List (List UInt8)} {tracks : List Track}
    {table : List UInt8} (hcounter : counter < 16) (h : PMT counter info tracks = .ok table) :
    parse ((fillUp table).take 188) =
      some ⟨true, PID_PMT, counter, tablePayload (table.drop 4)⟩ := by
  unfold PMT at h
  dsimp only at h
  split at h
  · cases h
  · obtain ⟨streams, -, h⟩ := bind_eq_ok.mp h
    cases h
    exact parse_table hcounter _

/-- The tables are counted up before they are written. -/
theorem Expects.tables (h : Expects next s) (htables : Tables s a s' ps) :
    ∃ ts, ps.mapM parse = some ts ∧ (∀ pid, GoesOn pid (next pid) ts) ∧
      Expects (after next ts) s' := by
  have hprepared := htables.prepared
  have hsound : Sound s' := sound_of_keys h.sound hprepared.info_eq hprepared.keys_eq
    (hprepared.soundTracks h.sound.tracks)
  have hpids := h.pids.of_keys hprepared.keys_eq
  have hkept := pids_of_keys hprepared.keys_eq
  cases htables with
  | omitted =>
      refine ⟨[], rfl, fun pid => goesOn_of_ofPid_eq_nil rfl _, ?_⟩
      have hsame : after next [] = next := funext fun pid => Nat.add_zero _
      rwa [hsame]
  | written htables hfinal htable =>
      have hpat := parse_PAT (nextCounter_lt h.pat.1)
      have hpmt := parse_PMT (nextCounter_lt h.pmt.1) htable
      generalize tablePayload ((PAT _).drop 4) = patPayload at hpat
      generalize tablePayload (_ : List UInt8) = pmtPayload at hpmt
      have hpatCounter := nextCounter_eq h.pat.1
      have hpmtCounter := nextCounter_eq h.pmt.1
      refine ⟨[⟨true, 0, nextCounter s.mPATContinuityCounter, patPayload⟩,
        ⟨true, PID_PMT, nextCounter s.mPMTContinuityCounter, pmtPayload⟩],
        by rw [List.mapM_cons, hpat, List.mapM_cons, hpmt]; rfl, fun pid => ?_, ?_⟩
      · change GoesOn pid (next pid) ([_] ++ [_])
        refine .append (goesOn_singleton ?_) (goesOn_singleton ?_)
        · rintro rfl
          exact hpatCounter.trans h.pat.2.symm
        · rintro rfl
          exact hpmtCounter.trans h.pmt.2.symm
      have hsame (pid : ℕ) (hge : 0x1011 ≤ pid) : after next
          [⟨true, 0, nextCounter s.mPATContinuityCounter, patPayload⟩,
            ⟨true, PID_PMT, nextCounter s.mPMTContinuityCounter, pmtPayload⟩] pid = next pid := by
        rw [after, ofPid_eq_nil]
        · rfl
        · intro p hp
          simp only [List.mem_cons, List.not_mem_nil, or_false] at hp
          rcases hp with rfl | rfl
          · exact (by omega : 0 ≠ pid)
          · exact (by rw [PID_PMT]; omega : PID_PMT ≠ pid)
      refine ⟨hsound, hpids, ⟨nextCounter_lt h.pat.1, ?_⟩, ⟨nextCounter_lt h.pmt.1, ?_⟩,
        fun t ht => ?_, fun pid hge hnew => ?_⟩
      · change (next 0 + 1) % 16 = (nextCounter s.mPATContinuityCounter + 1) % 16
        have hnext := h.pat.2
        omega
      · change (next PID_PMT + 1) % 16 = (nextCounter s.mPMTContinuityCounter + 1) % 16
        have hnext := h.pmt.2
        omega
      · obtain ⟨k, hk⟩ := List.getElem?_of_mem ht
        obtain ⟨t₀, ht₀, hmade⟩ := getElem_of_mapM_ok hfinal hk
        have hmem := List.mem_of_getElem? ht₀
        rw [(makeFinalize_eq_ok hmade).1]
        dsimp only
        rw [hsame _ (h.pid_ge hmem)]
        exact h.tracks t₀ hmem
      · rw [hsame pid hge]
        exact h.fresh pid hge (hkept ▸ hnew)

/-- The packets of a unit take the counters of their track, which then counts on. -/
theorem Expects.unit (h : Expects next s) {i n : ℕ} {carrier : Track} {ts : List Packet}
    {unitStart : Bool} {payload : List UInt8} (hcarrier : s.mTracks[i]? = some carrier)
    (hcarries : Carries carrier.mPID carrier.mContinuityCounter unitStart ts payload)
    (hlength : ts.length = n) {s' : TSPacketizer} (hsound : Sound s')
    (hs' : s' = { s with
      mTracks := s.mTracks.set i
        { carrier with mContinuityCounter := (carrier.mContinuityCounter + n) % 16 } }) :
    (∀ pid, GoesOn pid (next pid) ts) ∧ Expects (after next ts) s' := by
  have hmem := List.mem_of_getElem? hcarrier
  have hcounter := h.tracks carrier hmem
  have hothers (pid : ℕ) (hne : pid ≠ carrier.mPID) : ofPid pid ts = [] :=
    ofPid_eq_nil fun p hp heq => hne (heq.symm.trans (hcarries.pid_eq p hp))
  have hsame (pid : ℕ) (hne : pid ≠ carrier.mPID) : after next ts pid = next pid := by
    rw [after, hothers pid hne]
    rfl
  have hown : after next ts carrier.mPID = next carrier.mPID + n := by
    rw [after, ofPid_eq_self hcarries.pid_eq, hlength]
  have hkeys : s'.mTracks.map key = s.mTracks.map key := by
    rw [hs']
    exact map_set_of_eq hcarrier rfl
  have hge := h.pid_ge hmem
  refine ⟨fun pid => ?_, hsound, h.pids.of_keys hkeys, ?_, ?_, fun t ht => ?_,
    fun pid hpid hnew => ?_⟩
  · by_cases hpid : pid = carrier.mPID
    · rw [hpid]
      exact hcarries.goesOn (by omega)
    · exact goesOn_of_ofPid_eq_nil (hothers pid hpid) _
  · rw [hsame 0 (by omega), hs']
    exact h.pat
  · rw [hsame PID_PMT (by rw [PID_PMT]; omega), hs']
    exact h.pmt
  · obtain ⟨k, hk⟩ := List.getElem?_of_mem ht
    rw [hs', List.getElem?_set] at hk
    split_ifs at hk with hik hbound
    · cases hk
      dsimp only
      rw [hown]
      omega
    · have hne : t.mPID ≠ carrier.mPID := by
        intro heq
        have hlt : i < (s.mTracks.map Track.mPID).length := by
          rw [List.length_map]
          exact (List.getElem?_eq_some_iff.mp hcarrier).1
        refine hik ((List.getElem?_inj hlt h.pids.nodup).mp ?_)
        rw [List.getElem?_map, List.getElem?_map, hcarrier, hk, Option.map_some,
          Option.map_some, heq]
      rw [hsame t.mPID hne]
      exact h.tracks t (List.mem_of_getElem? hk)
  · rw [pids_of_keys hkeys] at hnew
    rw [hsame pid fun heq => hnew (heq ▸ List.mem_map_of_mem hmem)]
    exact h.fresh pid hpid hnew

/-- The bytes a call hands out. -/
def emitted (r : Packetized) : List UInt8 := r.packets.getD []

/-- `next` accounts for the bytes: they are packets with the counters it says, and from then on
it says what comes next. -/
def Accounts (next : ℕ → ℕ) (bytes : List UInt8) (s' : TSPacketizer) : Prop :=
  ∃ (packets : List (List UInt8)) (ts : List Packet), bytes = packets.flatten ∧
    packets.mapM parse = some ts ∧
    (∀ pid, pid ≠ PID_PCR → GoesOn pid (next pid) ts) ∧ Expects (after next ts) s'

theorem Expects.packetize (h : Expects next s) {r : Packetized} (hr : s.packetize a = .ok r) :
    Accounts next (emitted r) r.packetizer := by
  have hrange : ∀ t ∈ s.mTracks, TrackInRange t := fun t ht => (h.sound.tracks t ht).range
  have hresult := result_packetize hrange hr
  have hsound := sound_outcome h.sound hresult.outcome
  cases hresult with
  | rejected =>
      have hsame : after next [] = next := funext fun pid => Nat.add_zero _
      exact ⟨[], [], rfl, rfl, fun pid _ => goesOn_of_ofPid_eq_nil rfl _, hsame.symm ▸ h⟩
  | @emitted s₁ track carrier unit header tables packets ts _ _ _ _ htables _ _ hcarrier _ _
      hparse hcarries =>
      obtain ⟨front, hfront, hgo₁, h₁⟩ := h.tables htables
      obtain ⟨clock, hclock, hgo₂, h₂⟩ := h₁.clock a
      obtain ⟨hgo₃, h₃⟩ := h₂.unit hcarrier hcarries (length_eq_of_mapM_parse hparse) hsound rfl
      refine ⟨tables ++ clockPackets a ++ packets, front ++ clock ++ ts, rfl,
        mapM_parse_append (mapM_parse_append hfront hclock) hparse, fun pid hpid => ?_, ?_⟩
      · refine .append (.append (hgo₁ pid) (hgo₂ pid hpid)) ?_
        have hgo := hgo₃ pid
        rwa [← after_append] at hgo
      · rw [after_append, after_append]
        exact h₃

/-! ## Runs -/

theorem Accounts.nothing (h : Expects next s) : Accounts next [] s := by
  have hsame : after next [] = next := funext fun pid => Nat.add_zero _
  exact ⟨[], [], rfl, rfl, fun pid _ => goesOn_of_ofPid_eq_nil rfl _, hsame.symm ▸ h⟩

theorem Expects.extractCSD (h : Expects next s) {trackIndex : ℤ} {r : ℤ × TSPacketizer}
    (hr : s.extractCSDIfNecessary trackIndex = .ok r) : Expects next r.2 := by
  have hkeys := keys_extractCSD hr
  have hcounters := map_extractCSD
    (f := fun t => (t.mPID, t.mContinuityCounter)) (fun t => by
      obtain ⟨hkey, hcounter, -⟩ := extractCSDIfNecessary_keeps t
      simp only [key, Prod.mk.injEq] at hkey
      rw [hkey.2.1, hcounter]) hr
  refine ⟨sound_extractCSD h.sound hr, h.pids.of_keys hkeys, ?_, ?_, fun t ht => ?_,
    fun pid hge hnew => h.fresh pid hge (pids_of_keys hkeys ▸ hnew)⟩
  · rcases extractCSD_eq_ok hr with heq | heq
    · exact heq ▸ h.pat
    · exact heq ▸ h.pat
  · rcases extractCSD_eq_ok hr with heq | heq
    · exact heq ▸ h.pmt
    · exact heq ▸ h.pmt
  · have hmem : (t.mPID, t.mContinuityCounter) ∈
        s.mTracks.map fun t => (t.mPID, t.mContinuityCounter) :=
      hcounters ▸ List.mem_map_of_mem ht
    obtain ⟨t₀, ht₀, hsame⟩ := List.mem_map.mp hmem
    obtain ⟨hpid, hcounter⟩ := Prod.mk.inj hsame
    rw [← hpid, ← hcounter]
    exact h.tracks t₀ ht₀

/-- A track that is added starts at counter 0, and no packet has had its PID. -/
theorem Expects.addTrack (h : Expects next s) (format : MediaFormat) :
    Expects next (s.addTrack format).2 := by
  have hsound := sound_addTrack h.sound format
  have hpids := h.pids.addTrack h.sound format
  rcases addTrack_pid h.sound format with heq | ⟨t, heq, hzero, hkind⟩
  · rw [heq]
    exact h
  rw [heq] at hsound hpids ⊢
  have hnew : t.mPID ∉ s.mTracks.map Track.mPID := by
    have hnodup := hpids.nodup
    rw [List.map_append, List.map_singleton, List.nodup_append] at hnodup
    exact fun hmem => hnodup.2.2 _ hmem _ (List.mem_singleton_self _) rfl
  refine ⟨hsound, hpids, h.pat, h.pmt, fun t' ht' => ?_, fun pid hge hnone => ?_⟩
  · rcases List.mem_append.mp ht' with hold | hlast
    · exact h.tracks t' hold
    · rw [List.mem_singleton.mp hlast, hzero, h.fresh t.mPID (by omega) hnew]
  · rw [List.map_append, List.mem_append, not_or] at hnone
    exact h.fresh pid hge hnone.1

theorem Expects.accounts {c : Call} {out : List Packetized} (h : Expects next s)
    (hcall : call s c = .ok (s', out)) : Accounts next (out.flatMap emitted) s' := by
  cases c with
  | addTrack format =>
      obtain ⟨rfl, rfl⟩ := Prod.mk.inj (Except.ok.inj hcall)
      exact .nothing (h.addTrack format)
  | extractCSDIfNecessary trackIndex =>
      obtain ⟨r, hr, hcall⟩ := bind_eq_ok.mp hcall
      obtain ⟨rfl, rfl⟩ := Prod.mk.inj (Except.ok.inj hcall)
      exact .nothing (h.extractCSD hr)
  | packetize a =>
      obtain ⟨r, hr, hcall⟩ := bind_eq_ok.mp hcall
      obtain ⟨rfl, rfl⟩ := Prod.mk.inj (Except.ok.inj hcall)
      rw [List.flatMap_singleton]
      exact h.packetize hr

/-- The bytes of a run are packets whose counters go on as `next` says. -/
theorem Expects.outputs (h : Expects next s) (calls : List Call) :
    ∃ (packets : List (List UInt8)) (ts : List Packet),
      (Machine.outputs call s calls).flatMap emitted = packets.flatten ∧
        packets.mapM parse = some ts ∧ ∀ pid, pid ≠ PID_PCR → GoesOn pid (next pid) ts := by
  induction calls generalizing s next with
  | nil => exact ⟨[], [], rfl, rfl, fun pid _ => goesOn_of_ofPid_eq_nil rfl _⟩
  | cons c calls ih =>
      cases hcall : call s c with
      | error e =>
          rw [Machine.outputs_cons_of_error hcall]
          exact ⟨[], [], rfl, rfl, fun pid _ => goesOn_of_ofPid_eq_nil rfl _⟩
      | ok result =>
          obtain ⟨xs, ts, hbytes, hparse, hgo, hafter⟩ := h.accounts hcall
          obtain ⟨ys, us, hrest, hparse', hgo'⟩ := ih hafter
          rw [Machine.outputs_cons_of_ok hcall, List.flatMap_append, hbytes, hrest]
          exact ⟨xs ++ ys, ts ++ us, List.flatten_append.symm,
            mapM_parse_append hparse hparse', fun pid hpid => (hgo pid hpid).append (hgo' pid hpid)⟩

/-- A new packetizer: the tables start at counter 1, tracks at 0. -/
theorem expects_new {flags : BitVec 32} (h : TSPacketizer.new flags = .ok s) :
    Expects (fun pid => if pid = 0 ∨ pid = PID_PMT then 1 else 0) s := by
  have hempty : s.mTracks = [] ∧ s.mPATContinuityCounter = 0 ∧ s.mPMTContinuityCounter = 0 := by
    unfold TSPacketizer.new at h
    split_ifs at h <;> cases h <;> exact ⟨rfl, rfl, rfl⟩
  obtain ⟨htracks, hpat, hpmt⟩ := hempty
  refine ⟨sound_new h, ⟨?_, ?_⟩, ?_, ?_, ?_, fun pid hge _ => ?_⟩
  · rw [htracks]
    exact List.nodup_nil
  · rw [htracks]
    exact nofun
  · rw [hpat]
    decide
  · rw [hpmt]
    decide
  · rw [htracks]
    exact nofun
  · rw [if_neg (by rw [PID_PMT]; omega)]

theorem Expects.final (h : Expects next s) {calls : List Call}
    (hfinal : Machine.final call s calls = .ok s') : ∃ next', Expects next' s' :=
  Machine.final_invariant (fun s => ∃ next, Expects next s)
    (fun _ _ _ _ ⟨_, h⟩ hcall => by
      obtain ⟨-, ts, -, -, -, hafter⟩ := h.accounts hcall
      exact ⟨_, hafter⟩) ⟨_, h⟩ hfinal

/-- The PIDs of the tables, the clock and the tracks differ after any calls, and in all that the
calls emit the counters of each PID but that of the clock go up by one modulo 16. -/
theorem counters_continuous {flags : BitVec 32} (hnew : TSPacketizer.new flags = .ok s)
    (calls : List Call) :
    (∀ s', Machine.final call s calls = .ok s' →
      (0 :: PID_PMT :: PID_PCR :: s'.mTracks.map Track.mPID).Nodup) ∧
    ∃ (packets : List (List UInt8)) (ts : List Packet),
      (Machine.outputs call s calls).flatMap emitted = packets.flatten ∧
        packets.mapM parse = some ts ∧ ∀ pid, pid ≠ PID_PCR → ContinuousCounters pid ts := by
  have hexpects := expects_new hnew
  constructor
  · intro s' hfinal
    obtain ⟨next', h⟩ := hexpects.final hfinal
    exact h.pids.distinct h.sound
  · obtain ⟨packets, ts, hbytes, hparse, hgo⟩ := hexpects.outputs calls
    exact ⟨packets, ts, hbytes, hparse, fun pid hpid => (hgo pid hpid).continuous⟩

/-- Two units with the tables and the clock, with the codec data extracted between them. -/
def twoUnits : List Call :=
  [.addTrack avcFormat,
    .packetize
      ⟨0, ⟨List.replicate 400 7, 100, false⟩, EMIT_PAT_AND_PMT ||| EMIT_PCR, none, 0, 0, 0⟩,
    .extractCSDIfNecessary 0,
    .packetize ⟨0, ⟨List.replicate 200 7, 200, false⟩, EMIT_PAT_AND_PMT, none, 0, 0, 0⟩]

theorem counters_continuous_twoUnits :
    ((Machine.outputs call ⟨0, [], [], 0, 0⟩ twoUnits).flatMap emitted).length = 188 * 10 ∧
      (∀ s', Machine.final call ⟨0, [], [], 0, 0⟩ twoUnits = .ok s' →
        (0 :: PID_PMT :: PID_PCR :: s'.mTracks.map Track.mPID).Nodup) ∧
      ∃ (packets : List (List UInt8)) (ts : List Packet),
        (Machine.outputs call ⟨0, [], [], 0, 0⟩ twoUnits).flatMap emitted = packets.flatten ∧
          packets.mapM parse = some ts ∧
            ∀ pid, pid ≠ PID_PCR → ContinuousCounters pid ts := by
  have hnew : TSPacketizer.new 0 = .ok ⟨0, [], [], 0, 0⟩ := rfl
  exact ⟨by decide +kernel, counters_continuous hnew twoUnits⟩

end MirrorCast.Ts
