import Mathlib.Data.Int.ConditionallyCompleteOrder
import MirrorCast.Library.Arrivals
import MirrorCast.Program.MediaSender

/-! # The access units of all tracks go out in the order of their times -/

namespace MirrorCast.MediaSender

open Java Arrivals

/-! ## The track that is served -/

theorem minTrackIndex_eq_none {infos : List TrackInfo} {i : ℕ} {best : Option (ℕ × ℤ)}
    (h : minTrackIndex i best infos = none) :
    (∃ info ∈ infos, info.mAccessUnits = []) ∨ infos = [] := by
  induction infos generalizing i best with
  | nil => exact Or.inr rfl
  | cons info infos ih =>
      refine Or.inl ?_
      rw [minTrackIndex] at h
      split at h
      · rename_i hempty
        exact ⟨info, List.mem_cons_self, hempty⟩
      · rcases ih h with ⟨info', hmem, hempty⟩ | rfl
        · exact ⟨info', List.mem_cons_of_mem info hmem, hempty⟩
        · cases h

/-- No queue is empty, and none starts earlier than that of the track found. -/
theorem minTrackIndex_eq_some {infos : List TrackInfo} {i k : ℕ} {t : ℤ}
    {best : Option (ℕ × ℤ)} (h : minTrackIndex k best infos = some (i, t)) :
    (∀ info ∈ infos, ∃ unit rest, info.mAccessUnits = unit :: rest ∧ t ≤ unit.timeUs) ∧
      (∀ j t', best = some (j, t') → t ≤ t') ∧
      (best = some (i, t) ∨ ∃ j info unit rest, i = k + j ∧ infos[j]? = some info ∧
        info.mAccessUnits = unit :: rest ∧ unit.timeUs = t) := by
  induction infos generalizing k best with
  | nil =>
      rw [minTrackIndex] at h
      refine ⟨by simp, ?_, Or.inl h⟩
      rintro j t' rfl
      obtain ⟨-, rfl⟩ := Prod.mk.inj (Option.some.inj h)
      exact le_rfl
  | cons info infos ih =>
      rw [minTrackIndex] at h
      split at h
      · cases h
      rename_i unit rest hunits
      obtain ⟨hall, hbest, hfound⟩ := ih h
      have hlater (hfound : ∃ j info' unit' rest', i = k + 1 + j ∧ infos[j]? = some info' ∧
          info'.mAccessUnits = unit' :: rest' ∧ unit'.timeUs = t) :
          ∃ j info' unit' rest', i = k + j ∧ (info :: infos)[j]? = some info' ∧
            info'.mAccessUnits = unit' :: rest' ∧ unit'.timeUs = t := by
        obtain ⟨j, info', unit', rest', rfl, hget, hinfo⟩ := hfound
        exact ⟨j + 1, info', unit', rest', by omega, hget, hinfo⟩
      have hhere (hsome : (k, unit.timeUs) = (i, t)) :
          ∃ j info' unit' rest', i = k + j ∧ (info :: infos)[j]? = some info' ∧
            info'.mAccessUnits = unit' :: rest' ∧ unit'.timeUs = t := by
        obtain ⟨rfl, rfl⟩ := Prod.mk.inj hsome
        exact ⟨0, info, unit, rest, rfl, rfl, hunits, rfl⟩
      cases best with
      | none =>
          have hle := hbest k unit.timeUs rfl
          refine ⟨List.forall_mem_cons.mpr ⟨⟨unit, rest, hunits, hle⟩, hall⟩, by simp, ?_⟩
          rcases hfound with hsome | hfound
          · exact Or.inr (hhere (Option.some.inj hsome))
          · exact Or.inr (hlater hfound)
      | some b =>
          obtain ⟨j, t'⟩ := b
          by_cases hlt : unit.timeUs < t'
          · simp only [if_pos hlt] at hbest hfound
            have hle := hbest k unit.timeUs rfl
            refine ⟨List.forall_mem_cons.mpr ⟨⟨unit, rest, hunits, hle⟩, hall⟩, ?_, ?_⟩
            · rintro j' t'' ⟨⟩
              omega
            · rcases hfound with hsome | hfound
              · exact Or.inr (hhere (Option.some.inj hsome))
              · exact Or.inr (hlater hfound)
          · simp only [if_neg hlt] at hbest hfound
            have hle := hbest j t' rfl
            refine ⟨List.forall_mem_cons.mpr ⟨⟨unit, rest, hunits, by omega⟩, hall⟩, ?_, ?_⟩
            · rintro j' t'' ⟨⟩
              exact hle
            · rcases hfound with hsome | hfound
              · exact Or.inl hsome
              · exact Or.inr (hlater hfound)

/-! ## What a call does to the queues -/

/-- The units that wait on track `i`. -/
def queue (s : MediaSender) (i : ℕ) : List ABuffer :=
  (s.mTrackInfos[i]?.map TrackInfo.mAccessUnits).getD []

/-- The tracks of the sender. -/
def tracks (s : MediaSender) : Set ℕ := {i | i < s.mTrackInfos.length}

theorem queue_of_getElem? {s : MediaSender} {i : ℕ} {info : TrackInfo}
    (h : s.mTrackInfos[i]? = some info) : s.queue i = info.mAccessUnits := by
  rw [queue, h]
  rfl

theorem queue_set {s s' : MediaSender} {i j : ℕ} {info info' : TrackInfo}
    (hinfo : s.mTrackInfos[i]? = some info) (hset : s'.mTrackInfos = s.mTrackInfos.set i info') :
    s'.queue j = if j = i then info'.mAccessUnits else s.queue j := by
  have hi := (List.getElem?_eq_some_iff.mp hinfo).1
  by_cases hj : j = i
  · rw [if_pos hj, hj, queue, hset, List.getElem?_set_self hi]
    rfl
  · rw [if_neg hj, queue, queue, hset, List.getElem?_set_ne (Ne.symm hj)]

/-- The units that went out, each with its track. -/
def units (sent : List Sent) : List (ℕ × ABuffer) :=
  sent.map fun o => (o.trackIndex, o.args.accessUnit)

/-- A pass ends the loop because a queue is empty, or takes out the least first unit. -/
theorem pass_cases {s s' : MediaSender} {r : Round} {result : Option ℤ} {sent : List Sent}
    (h : s.pass r = .ok (s', result, sent)) :
    minTrackIndex 0 none s.mTrackInfos = none ∧ s' = s ∧ result = some OK ∧ sent = [] ∨
      ∃ i t info accessUnit rest, minTrackIndex 0 none s.mTrackInfos = some (i, t) ∧
        s.mTrackInfos[i]? = some info ∧ info.mAccessUnits = accessUnit :: rest ∧
        s'.mTrackInfos = s.mTrackInfos.set i { info with mAccessUnits := rest } ∧
        units sent = [(i, accessUnit)] ∧ result = if r.err = OK then none else some r.err := by
  unfold pass at h
  split at h
  · rename_i hnone
    cases h
    exact Or.inl ⟨hnone, rfl, rfl, rfl⟩
  rename_i i t hmin
  split at h
  · cases h
  · cases h
  rename_i info packetizer hinfo _
  split at h
  · cases h
  rename_i accessUnit rest hunits
  obtain ⟨packetized, -, h⟩ := bind_eq_ok.mp h
  dsimp only at h
  split at h
  · cases h
  · cases h
    exact Or.inr ⟨i, t, info, accessUnit, rest, hmin, hinfo, hunits, rfl, rfl, rfl⟩

/-- No queue that could go on is left: one is empty. -/
def Drained (s : MediaSender) : Prop :=
  s.mTrackInfos ≠ [] → ∃ info ∈ s.mTrackInfos, info.mAccessUnits = []

theorem merged_loop {s s' : MediaSender} {rounds : ℕ → Round} {err : ℤ} {sent : List Sent}
    {given done : List (ℕ × ABuffer)}
    (hsorted : ∀ i, (onTrack i given).Pairwise fun x y => x.timeUs ≤ y.timeUs)
    (h : Merged s.tracks ABuffer.timeUs given done s.queue)
    (hloop : s.loop rounds = .ok (s', err, sent)) (herr : err = OK) :
    Merged s'.tracks ABuffer.timeUs given (done ++ units sent) s'.queue ∧
      s'.mTrackInfos.length = s.mTrackInfos.length ∧ s'.Drained := by
  fun_induction MediaSender.loop s rounds generalizing s' done sent with
  | case1 => cases hloop
  | case2 s rounds s₁ err₁ sent₁ hpass =>
      cases hloop
      rcases pass_cases hpass with ⟨hnone, rfl, -, rfl⟩ |
        ⟨i, t, info, unit, rest, -, -, -, -, -, hresult⟩
      · refine ⟨by simpa [units] using h, rfl, fun hne => ?_⟩
        exact (minTrackIndex_eq_none hnone).resolve_right hne
      · split at hresult
        · cases hresult
        · rename_i hne
          exact absurd ((Option.some.inj hresult).symm.trans herr) hne
  | case3 => cases hloop
  | case4 s rounds s₁ sent₁ hpass s₂ err₂ more hloop' ih =>
      cases hloop
      rcases pass_cases hpass with ⟨-, -, hresult, -⟩ |
        ⟨i, t, info, unit, rest, hmin, hinfo, hunits, hset, hsent, -⟩
      · cases hresult
      obtain ⟨hall, -, hfound⟩ := minTrackIndex_eq_some hmin
      have hleast : unit.timeUs = t := by
        obtain ⟨j, info', unit', rest', hi, hget, hunits', htime⟩ := hfound.resolve_left nofun
        rw [Nat.zero_add] at hi
        rw [← hi, hinfo] at hget
        cases hget
        rw [hunits] at hunits'
        cases hunits'
        exact htime
      have htracks : s₁.tracks = s.tracks := by
        rw [tracks, tracks, hset, List.length_set]
      have hnext : Merged s₁.tracks ABuffer.timeUs given (done ++ [(i, unit)]) s₁.queue := by
        rw [htracks]
        have hqueue : s.queue i = unit :: rest := (queue_of_getElem? hinfo).trans hunits
        refine h.send (List.getElem?_eq_some_iff.mp hinfo).1 hsorted hqueue ?_ ?_ ?_
        · intro j hj
          have hget : s.mTrackInfos[j]? = some (s.mTrackInfos.get ⟨j, hj⟩) :=
            List.getElem?_eq_getElem hj
          obtain ⟨unit', rest', hunits', hle⟩ := hall _ (List.mem_of_getElem? hget)
          exact ⟨unit', rest', (queue_of_getElem? hget).trans hunits', by omega⟩
        · rw [queue_set hinfo hset, if_pos rfl]
        · intro j hj
          rw [queue_set hinfo hset, if_neg hj]
      obtain ⟨hmerged, hlength, hdrained⟩ := ih hnext hloop'
      refine ⟨?_, ?_, hdrained⟩
      · rw [units, List.map_append, ← units, ← units, hsent, ← List.append_assoc]
        exact hmerged
      · rw [hlength, hset, List.length_set]

/-- What `enqueue` puts at the end of the queue of its track. -/
theorem enqueue_cases {s s' : MediaSender} {trackIndex : ℤ} {accessUnit : ABuffer}
    (h : s.enqueue trackIndex accessUnit = .ok s') :
    0 ≤ trackIndex ∧ ∃ info, s.mTrackInfos[trackIndex.toNat]? = some info ∧
      s'.mTrackInfos = s.mTrackInfos.set trackIndex.toNat
        { info with mAccessUnits := info.mAccessUnits ++ [accessUnit] } := by
  unfold enqueue at h
  split at h
  · cases h
  rename_i hnonneg
  split at h
  · cases h
  · cases h
  rename_i info packetizer hinfo _
  obtain ⟨⟨err, packetizer'⟩, -, h⟩ := bind_eq_ok.mp h
  cases h
  exact ⟨by omega, info, hinfo, rfl⟩

/-! ## Runs of calls -/

/-- A call of `queueAccessUnit`, with what the passes of its loop meet. -/
structure Call where
  trackIndex : ℤ
  accessUnit : ABuffer
  rounds : ℕ → Round

/-- The calls are made one after the other, and each returns OK. -/
inductive Calls : MediaSender → List Call → List Sent → MediaSender → Prop where
  | nil (s : MediaSender) : Calls s [] [] s
  | cons {s s' s'' : MediaSender} {c : Call} {cs : List Call} {sent more : List Sent}
      (call : s.queueAccessUnit c.trackIndex c.accessUnit c.rounds = .ok (s', OK, sent))
      (rest : Calls s' cs more s'') : Calls s (c :: cs) (sent ++ more) s''

/-- The units given, each with its track. -/
def given (calls : List Call) : List (ℕ × ABuffer) :=
  calls.map fun c => (c.trackIndex.toNat, c.accessUnit)

theorem merged_queueAccessUnit {s s' : MediaSender} {c : Call} {sent : List Sent}
    {before done : List (ℕ × ABuffer)}
    (hsorted : ∀ i, (onTrack i (before ++ given [c])).Pairwise fun x y => x.timeUs ≤ y.timeUs)
    (h : Merged s.tracks ABuffer.timeUs before done s.queue)
    (hcall : s.queueAccessUnit c.trackIndex c.accessUnit c.rounds = .ok (s', OK, sent)) :
    Merged s'.tracks ABuffer.timeUs (before ++ given [c]) (done ++ units sent) s'.queue ∧
      0 ≤ c.trackIndex ∧ c.trackIndex < s.mTrackInfos.length ∧
      s'.mTrackInfos.length = s.mTrackInfos.length ∧ s'.Drained := by
  unfold queueAccessUnit at hcall
  split at hcall
  · cases hcall
  split at hcall
  · cases hcall
  rename_i hlt
  obtain ⟨s₁, henqueue, hloop⟩ := bind_eq_ok.mp hcall
  obtain ⟨hnonneg, info, hinfo, hset⟩ := enqueue_cases henqueue
  have hlength : s₁.mTrackInfos.length = s.mTrackInfos.length := by rw [hset, List.length_set]
  have hgiven : Merged s₁.tracks ABuffer.timeUs (before ++ given [c]) done s₁.queue := by
    rw [show s₁.tracks = s.tracks by rw [tracks, tracks, hlength]]
    refine h.give ?_ ?_ ?_
    · intro y hy
      have hi := hsorted c.trackIndex.toNat
      rw [onTrack_append, List.pairwise_append] at hi
      exact hi.2.2 y hy c.accessUnit (by simp [given])
    · rw [queue_set hinfo hset, if_pos rfl, queue_of_getElem? hinfo]
    · intro j hj
      rw [queue_set hinfo hset, if_neg hj]
  obtain ⟨hmerged, hsame, hdrained⟩ := merged_loop hsorted hgiven hloop rfl
  exact ⟨hmerged, hnonneg, by omega, hsame.trans hlength, hdrained⟩

theorem merged_calls {s s' : MediaSender} {calls : List Call} {sent : List Sent}
    {before done : List (ℕ × ABuffer)} (hcalls : Calls s calls sent s')
    (hsorted : ∀ i, (onTrack i (before ++ given calls)).Pairwise fun x y => x.timeUs ≤ y.timeUs)
    (h : Merged s.tracks ABuffer.timeUs before done s.queue) :
    Merged s'.tracks ABuffer.timeUs (before ++ given calls) (done ++ units sent) s'.queue ∧
      (∀ c ∈ calls, 0 ≤ c.trackIndex ∧ c.trackIndex < s.mTrackInfos.length) ∧
      s'.mTrackInfos.length = s.mTrackInfos.length ∧ (calls ≠ [] → s'.Drained) := by
  induction hcalls generalizing before done with
  | nil s => exact ⟨by simpa [given, units] using h, by simp, rfl, by simp⟩
  | @cons s s₁ s' c cs sent more call rest ih =>
      have hcons : before ++ given (c :: cs) = before ++ given [c] ++ given cs := by simp [given]
      rw [hcons] at hsorted ⊢
      have hfirst (i : ℕ) : (onTrack i (before ++ given [c])).Pairwise
          fun x y => x.timeUs ≤ y.timeUs := by
        have hi := hsorted i
        rw [onTrack_append] at hi
        exact (List.pairwise_append.mp hi).1
      obtain ⟨hmerged, hnonneg, hlt, hlength, hdrained⟩ := merged_queueAccessUnit hfirst h call
      obtain ⟨hmerged', htracks, hlength', hdrained'⟩ := ih hsorted hmerged
      refine ⟨?_, List.forall_mem_cons.mpr ⟨⟨hnonneg, hlt⟩, ?_⟩, hlength'.trans hlength, ?_⟩
      · rw [units, List.map_append, ← units, ← units, ← List.append_assoc]
        exact hmerged'
      · rw [← hlength]
        exact htracks
      · intro _
        cases rest with
        | nil => exact hdrained
        | cons => exact hdrained' (List.cons_ne_nil _ _)

/-- From empty queues, whatever the number of tracks and the order of the calls: when the times
given do not decrease on any track, those that went out do not decrease at all; on every track the
units that went out, followed by those that wait, are the units given; and after each call some
queue is empty. -/
theorem queueAccessUnit_merges {s s' : MediaSender} {calls : List Call} {sent : List Sent}
    (hempty : ∀ info ∈ s.mTrackInfos, info.mAccessUnits = [])
    (hsorted : ∀ i, (onTrack i (given calls)).Pairwise fun x y => x.timeUs ≤ y.timeUs)
    (hcalls : Calls s calls sent s') :
    (units sent).Pairwise (fun e e' => e.2.timeUs ≤ e'.2.timeUs) ∧
      (∀ i, onTrack i (given calls) = onTrack i (units sent) ++ s'.queue i) ∧
      (∀ c ∈ calls, 0 ≤ c.trackIndex ∧ c.trackIndex < s'.mTrackInfos.length) ∧
      (calls ≠ [] → ∃ i ∈ s'.tracks, s'.queue i = []) := by
  have hstart : Merged s.tracks ABuffer.timeUs [] [] s.queue := by
    refine .empty fun i => ?_
    cases hinfo : s.mTrackInfos[i]? with
    | none => rw [queue, hinfo]; rfl
    | some info => rw [queue_of_getElem? hinfo, hempty info (List.mem_of_getElem? hinfo)]
  obtain ⟨hmerged, htracks, hlength, hdrained⟩ := merged_calls hcalls hsorted hstart
  refine ⟨hmerged.ordered, hmerged.split, hlength ▸ htracks, fun hne => ?_⟩
  obtain ⟨c, hc⟩ := List.exists_mem_of_ne_nil calls hne
  have hpos := htracks c hc
  have hsome : s'.mTrackInfos ≠ [] := by
    intro hnil
    rw [hnil, List.length_nil] at hlength
    omega
  obtain ⟨info, hmem, hnone⟩ := hdrained hne hsome
  obtain ⟨i, hi, hget⟩ := List.mem_iff_getElem.mp hmem
  refine ⟨i, hi, ?_⟩
  rw [queue_of_getElem? (List.getElem?_eq_some_iff.mpr ⟨hi, hget⟩), hnone]

/-! ## Two audio tracks -/

def audioFormat : MediaFormat := ⟨some TSPacketizer.MIMETYPE_AUDIO_AAC, [], some 1, none, none⟩

/-- A sender of two audio tracks, with these units waiting on the first. -/
def audioSender (first : TSPacketizer.Track) (waiting : List ABuffer) : MediaSender :=
  ⟨.MODE_TRANSPORT_STREAM, [⟨audioFormat, true, 0, waiting, 0⟩, ⟨audioFormat, true, 0, [], 1⟩],
    some ⟨0, [first, .new audioFormat 0x1101 0x0f 0xc1], [], 0, 0⟩, -1⟩

def audioTrack : TSPacketizer.Track := .new audioFormat 0x1100 0x0f 0xc0

/-- A unit for each track, the later one first. -/
def audioCalls : List Call :=
  [⟨0, ⟨[1, 2, 3], 50, false⟩, fun _ => ⟨0, 0, OK⟩⟩, ⟨1, ⟨[4, 5], 30, false⟩, fun _ => ⟨0, 0, OK⟩⟩]

theorem calls_audioCalls : ∃ sent s', Calls (audioSender audioTrack []) audioCalls sent s' := by
  have hfirst : (audioSender audioTrack []).queueAccessUnit 0 ⟨[1, 2, 3], 50, false⟩
      (fun _ => ⟨0, 0, OK⟩) =
      .ok (audioSender audioTrack.extractCSDIfNecessary [⟨[1, 2, 3], 50, false⟩], OK, []) := by
    decide +kernel
  have hsecond : ((audioSender audioTrack.extractCSDIfNecessary
      [⟨[1, 2, 3], 50, false⟩]).queueAccessUnit 1 ⟨[4, 5], 30, false⟩
        fun _ => ⟨0, 0, OK⟩).toOption.map (fun y => y.2.1) = some OK := by
    decide +kernel
  generalize hresult : (audioSender audioTrack.extractCSDIfNecessary
    [⟨[1, 2, 3], 50, false⟩]).queueAccessUnit 1 ⟨[4, 5], 30, false⟩ _ = result at hsecond
  cases result with
  | error e => cases hsecond
  | ok result =>
      obtain ⟨s', err, sent⟩ := result
      obtain rfl : err = OK := Option.some.inj hsecond
      exact ⟨_, s', .cons hfirst (.cons hresult (.nil s'))⟩

theorem audioCalls_merge : ∃ sent s', Calls (audioSender audioTrack []) audioCalls sent s' ∧
    (units sent).Pairwise (fun e e' => e.2.timeUs ≤ e'.2.timeUs) ∧
      (∀ i, onTrack i (given audioCalls) = onTrack i (units sent) ++ s'.queue i) ∧
      (∀ c ∈ audioCalls, 0 ≤ c.trackIndex ∧ c.trackIndex < s'.mTrackInfos.length) ∧
      (audioCalls ≠ [] → ∃ i ∈ s'.tracks, s'.queue i = []) := by
  obtain ⟨sent, s', hcalls⟩ := calls_audioCalls
  refine ⟨sent, s', hcalls, queueAccessUnit_merges (by decide) ?_ hcalls⟩
  intro i
  by_cases h0 : 0 = i
  · rw [← h0]
    decide
  · by_cases h1 : 1 = i
    · rw [← h1]
      decide
    · simp [onTrack, given, audioCalls, h0, h1]

end MirrorCast.MediaSender
