import Mathlib.Data.List.InsertIdx
import MirrorCast.Library.Timers
import MirrorCast.Program.PlaybackSession.Extracting

/-! # Pulling samples between pauses -/

namespace MirrorCast.PlaybackSession

open Java

namespace ExtractorSession

variable {s t : ExtractorSession}

/-- The timer for the next sample. -/
def timer (s : ExtractorSession) : Timer ℤ :=
  ⟨s.mPullExtractorPending, s.mPullExtractorGeneration, s.pullMessages.map PullMessage.GENERATION⟩

/-! ## What the handlers do with the timer -/

@[simp] theorem timer_throw (e : JavaException) : (s.throw e).timer = s.timer := rfl

@[simp] theorem timer_setFirstSampleTime (sampleTimeUs nowUs : ℤ) :
    (s.setFirstSampleTime sampleTimeUs nowUs).timer = s.timer := by
  unfold setFirstSampleTime
  split <;> rfl

theorem timer_postPull (hidle : s.mPullExtractorPending = false) (delayUs : ℤ) :
    (s.postPull delayUs).timer = s.timer.start := by
  simp [postPull, timer, Timer.start, hidle]

theorem timer_schedulePullExtractor (sampleTimeUs nowUs : ℤ) :
    (s.schedulePullExtractor sampleTimeUs nowUs).timer = s.timer.start := by
  unfold schedulePullExtractor
  split
  · rename_i hpending
    simp [timer, Timer.start, hpending]
  · rename_i hidle
    rw [Bool.not_eq_true] at hidle
    split
    · have hsame := timer_setFirstSampleTime (s := s) sampleTimeUs nowUs
      have hidle' : (s.setFirstSampleTime sampleTimeUs nowUs).mPullExtractorPending = false := by
        rw [← hidle]
        exact congrArg Timer.pending hsame
      rw [timer_postPull hidle', hsame]
    · exact timer_postPull hidle _

theorem timer_onPause : s.onPause.timer =
    s.timer.renew (int32 (s.mPullExtractorGeneration + 1)) := by
  unfold onPause
  dsimp only
  split
  · rfl
  · split <;> rfl

theorem timer_onResume (sampleTimeUs nowUs : ℤ) :
    (s.onResume sampleTimeUs nowUs).timer = s.timer.start := by
  rw [← timer_schedulePullExtractor sampleTimeUs nowUs]
  unfold onResume
  dsimp only
  split
  · rfl
  · split <;> rfl

/-- The next sample is waited for unless there is none or an exception was thrown. -/
theorem timer_onPullExtractor (sample : Sample) (nowUs : ℤ) :
    (s.onPullExtractor sample nowUs).timer = s.timer ∨
      (s.onPullExtractor sample nowUs).timer = s.timer.start := by
  unfold onPullExtractor
  split
  · exact Or.inl rfl
  · split
    · exact Or.inl rfl
    · split
      · exact Or.inl rfl
      · dsimp only
        split
        · exact Or.inl rfl
        · exact Or.inr (timer_schedulePullExtractor _ _)

/-- A message of the current generation resets the timer. -/
theorem timer_onPull (generation : ℤ) (sample : Sample) (nowUs : ℤ) :
    let expired := { s.timer with
      pending := if generation = s.mPullExtractorGeneration then false else s.timer.pending }
    (s.onPull generation sample nowUs).timer = expired ∨
      (s.onPull generation sample nowUs).timer = expired.start := by
  unfold onPull
  by_cases hcurrent : generation = s.mPullExtractorGeneration
  · rw [if_neg (not_not.mpr hcurrent), if_pos hcurrent]
    exact timer_onPullExtractor sample nowUs
  · rw [if_pos hcurrent, if_neg hcurrent]
    exact Or.inl rfl

theorem timer_pull (i : ℕ) (sample : Sample) (nowUs : ℤ) :
    (s.onMessageReceived (.WHAT_PULL_EXTRACTOR_SAMPLE i sample nowUs)).timer = s.timer.expire i ∨
      (s.onMessageReceived (.WHAT_PULL_EXTRACTOR_SAMPLE i sample nowUs)).timer =
        (s.timer.expire i).start := by
  have hgenerations : s.timer.outstanding[i]? =
      s.pullMessages[i]?.map PullMessage.GENERATION := List.getElem?_map
  cases hi : s.pullMessages[i]? with
  | none =>
      rw [hi] at hgenerations
      simp only [onMessageReceived, Timer.expire, hgenerations, hi, Option.map_none, true_or]
  | some msg =>
      have herase : s.timer.outstanding.eraseIdx i =
          (s.pullMessages.eraseIdx i).map PullMessage.GENERATION :=
        List.eraseIdx_map _ _ _
      rw [hi] at hgenerations
      simp only [onMessageReceived, Timer.expire, hgenerations, hi, Option.map_some, herase]
      exact timer_onPull msg.GENERATION sample nowUs

/-! ## Runs -/

/-- A `WHAT_PAUSE` is handled only while no message is pending. -/
def PausesIdle (s : ExtractorSession) (event : ExtractorEvent) : Prop :=
  s.exception = none → event = .WHAT_PAUSE → s.mPullExtractorPending = false

theorem single_onMessageReceived {event : ExtractorEvent} (hsingle : s.timer.Single)
    (hpause : event = .WHAT_PAUSE → s.mPullExtractorPending = false) :
    (s.onMessageReceived event).timer.Single := by
  cases event with
  | WHAT_PAUSE =>
      rw [onMessageReceived, timer_onPause]
      exact hsingle.renew (hpause rfl) _
  | WHAT_RESUME sampleTimeUs nowUs =>
      rw [onMessageReceived, timer_onResume]
      exact hsingle.start
  | WHAT_PULL_EXTRACTOR_SAMPLE i sample nowUs =>
      rcases timer_pull (s := s) i sample nowUs with h | h
      · rw [h]
        exact hsingle.expire i
      · rw [h]
        exact (hsingle.expire i).start
  | other mTracks => exact hsingle

theorem single_step (_ : List ExtractorEvent) (s : ExtractorSession) (event : ExtractorEvent)
    (t : ExtractorSession) (out : List Unit) (hsingle : s.timer.Single)
    (hpause : PausesIdle s event) (h : step s event = .ok (t, out)) : t.timer.Single := by
  cases h
  split
  · exact hsingle
  · rename_i halive
    exact single_onMessageReceived hsingle (hpause (Option.not_isSome_iff_eq_none.mp halive))

/-- From one pause while a message is pending on, the session waits for a message that never
comes. -/
theorem pause_stalls (hsingle : s.timer.Single) (hpending : s.mPullExtractorPending = true) :
    ¬ (s.onMessageReceived .WHAT_PAUSE).timer.Live := by
  rw [onMessageReceived, timer_onPause]
  apply hsingle.not_live_renew hpending
  intro hsame
  have hmod := int32_emod (s.mPullExtractorGeneration + 1)
  rw [show int32 (s.mPullExtractorGeneration + 1) = s.mPullExtractorGeneration from hsame] at hmod
  omega

/-- A session that handles no pause while a message is pending does not stall. -/
theorem pending_outstanding {mTracks : List PulledTrack} {trackMap : List (ℤ × ℤ)}
    {events : List ExtractorEvent}
    (hpauses : Machine.Meets step (fun _ => PausesIdle) [] (new mTracks trackMap) events)
    (h : Machine.final step (new mTracks trackMap) events = .ok s)
    (hpending : s.mPullExtractorPending = true) :
    ∃ msg ∈ s.pullMessages, msg.GENERATION = s.mPullExtractorGeneration := by
  have hnew : (new mTracks trackMap).timer.Single := Timer.Single.idle 0
  have hsingle : s.timer.Single :=
    Machine.final_of_meets (fun s : ExtractorSession => s.timer.Single) single_step hnew hpauses h
  exact List.mem_map.mp (hsingle.live hpending)

/-- A file without samples is played to its end, paused and played again. -/
def replay : List ExtractorEvent :=
  [.WHAT_RESUME (-1) 5, .WHAT_PULL_EXTRACTOR_SAMPLE 0 ⟨.ok (-1), -1, -1, -1⟩ 9, .WHAT_PAUSE,
    .WHAT_RESUME (-1) 12]

theorem pending_outstanding_replay : ∃ s, Machine.final step (new [] []) replay = .ok s ∧
    s.mPullExtractorPending = true ∧
      ∃ msg ∈ s.pullMessages, msg.GENERATION = s.mPullExtractorGeneration := by
  have hpauses : Machine.Meets step (fun _ => PausesIdle) [] (new [] []) replay := by
    refine ⟨nofun, fun _ _ h => ?_⟩
    cases h
    refine ⟨nofun, fun _ _ h => ?_⟩
    cases h
    refine ⟨fun _ _ => rfl, fun _ _ h => ?_⟩
    cases h
    exact ⟨nofun, fun _ _ _ => trivial⟩
  exact ⟨_, rfl, rfl, pending_outstanding hpauses rfl rfl⟩

/-- The session is resumed and paused before the first sample is due. -/
theorem pending_outstanding_fails : ¬ ∀ (mTracks : List PulledTrack) (trackMap : List (ℤ × ℤ))
    (events : List ExtractorEvent) (s : ExtractorSession),
    Machine.final step (new mTracks trackMap) events = .ok s → s.mPullExtractorPending = true →
      ∃ msg ∈ s.pullMessages, msg.GENERATION = s.mPullExtractorGeneration := by
  intro h
  have hcounter := h [] [] [.WHAT_RESUME 0 5, .WHAT_PAUSE] _ rfl rfl
  revert hcounter
  decide

end ExtractorSession

end MirrorCast.PlaybackSession
