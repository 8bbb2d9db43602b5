import MirrorCast.Verification.Playback.Stages

/-! # What the threads of a track do -/

namespace MirrorCast.PlaybackSession.Mirroring

open Java

namespace Slot

variable {slot slot' : Slot} {word ms : List TrackMessage} {stage : Stage}

/-! ## The puller -/

theorem ne_quit_of_head? {m : PullerMessage} (hfirst : slot.puller.messages.head? = some m) :
    slot.puller ≠ Looper.new.quit := by
  intro hquit
  rw [hquit] at hfirst
  cases hfirst

theorem harmless_pullerAt {m : PullerMessage} {p : PullerPoint}
    (hfirst : slot.puller.messages.head? = some m) (hpoint : slot.puller.point ≠ some .quit)
    (hp : p ≠ .quit) : Harmless slot (slot.pullerAt p) := by
  refine ⟨rfl, rfl, id, rfl, rfl, rfl, ?_, fun h => absurd h (ne_quit_of_head? hfirst), .rfl, id, id⟩
  simp [pullerAt, hpoint, hp]

/-- The first message of the puller is gone. -/
theorem harmless_pullerDone {m : PullerMessage} (hfirst : slot.puller.messages.head? = some m)
    (hpoint : slot.puller.point ≠ some .quit) (hstop : m ≠ .WHAT_STOP) (hstart : m ≠ .WHAT_START) :
    Harmless slot slot.pullerDone := by
  refine ⟨rfl, rfl, id, rfl, rfl, rfl, ?_, fun h => absurd h (ne_quit_of_head? hfirst),
    Looper.mem_done_iff_of_ne hfirst hstop.symm,
    .imp_left (Looper.mem_done_iff_of_ne hfirst hstart.symm).mpr, id⟩
  simp [pullerDone, hpoint]

theorem fits_pullerAt {m : PullerMessage} {p : PullerPoint} (h : slot.Fits)
    (hfirst : slot.puller.messages.head? = some m) (hp : p.handles m)
    (hreleased : p = .notifyStopped → slot.released = true) : (slot.pullerAt p).Fits := by
  refine ⟨Looper.fits_goTo hfirst hp, h.converter, h.notify, ?_⟩
  rintro ⟨⟩
  exact hreleased rfl

theorem Fits.pullerDone (h : slot.Fits) : slot.pullerDone.Fits :=
  ⟨Looper.fits_of_point rfl, h.converter, h.notify, by simp [Slot.pullerDone]⟩

theorem Untouched.pullerDone (h : slot.Untouched) : slot.pullerDone.Untouched :=
  ⟨fun _ hm => h.messages _ (List.mem_of_mem_tail hm), h.responded, h.waiting, h.encoded, h.notify⟩

/-- Pausing and resuming leave the stage as it is, also that of a track that is not started. -/
theorem At.setPaused {m : PullerMessage} (hfits : slot.Fits) (h : slot.At word stage)
    (hpoint : slot.puller.point ≠ some .quit) (hfirst : slot.puller.messages.head? = some m)
    (hstop : m ≠ .WHAT_STOP) (hstart : m ≠ .WHAT_START) (mPaused : Bool) :
    Kept slot ({ slot with mPaused }.pullerDone) ∧
      ({ slot with mPaused }.pullerDone).At word stage := by
  have hdone := harmless_pullerDone hfirst hpoint hstop hstart
  have hslot : Harmless slot ({ slot with mPaused }.pullerDone) :=
    ⟨rfl, rfl, id, rfl, rfl, rfl, hdone.quit, hdone.ceased, hdone.stop, hdone.start, id⟩
  have hfits' := hfits.pullerDone
  refine ⟨hslot.kept ⟨hfits'.1, hfits'.2, hfits'.3, hfits'.4⟩, hslot.at_ ?_ h⟩
  rintro rfl
  have huntouched := h.2.2.1.pullerDone
  exact ⟨huntouched.1, huntouched.2, huntouched.3, huntouched.4, huntouched.5⟩

/-- The puller begins with a message. -/
theorem At.onPullerMessage {m : PullerMessage} (hfits : slot.Fits) (h : slot.At word stage)
    (hpoint : slot.puller.point = none) (hfirst : slot.puller.messages.head? = some m) :
    Kept slot (slot.onPullerMessage m) ∧ (slot.onPullerMessage m).At word stage := by
  have hnot : slot.puller.point ≠ some .quit := by simp [hpoint]
  have hidle : stage = .idle → m = .WHAT_PAUSE ∨ m = .WHAT_RESUME := by
    rintro rfl
    exact h.2.2.1.messages m (List.mem_of_head? hfirst)
  cases m with
  | WHAT_START =>
      have hpost : Harmless slot slot.schedulePull := harmless_postPuller (by simp)
      have hfirst' : slot.schedulePull.puller.messages.head? = some .WHAT_START :=
        Looper.head?_post hfirst
      have hslot := hpost.trans (harmless_pullerAt hfirst' (mt hpost.quit.mp hnot)
        (p := .postResponse) (by decide))
      refine ⟨hslot.kept (fits_pullerAt (hfits.postPuller _) hfirst' trivial (by simp)),
        hslot.at_ ?_ h⟩
      intro hstage
      simpa using hidle hstage
  | WHAT_STOP =>
      have hslot : Harmless slot ({ slot with released := true }.pullerAt .notifyStopped) := by
        have hat := harmless_pullerAt hfirst hnot (p := .notifyStopped) (by decide)
        exact ⟨rfl, rfl, fun _ => rfl, rfl, rfl, rfl, hat.quit, hat.ceased, .rfl, id, id⟩
      refine ⟨hslot.kept ⟨Looper.fits_goTo hfirst trivial, hfits.converter, hfits.notify,
        fun _ => rfl⟩, hslot.at_ ?_ h⟩
      intro hstage
      simpa using hidle hstage
  | WHAT_PULL generation =>
      have hidle : stage ≠ .idle := fun hstage => by simpa using hidle hstage
      unfold Slot.onPullerMessage
      dsimp only
      split
      · have hslot := harmless_pullerDone hfirst hnot (by simp) (by simp)
        exact ⟨hslot.kept hfits.pullerDone, hslot.at_ (absurd · hidle) h⟩
      · have hslot := harmless_pullerAt hfirst hnot (p := .doPull slot.released) (by simp)
        exact ⟨hslot.kept (fits_pullerAt hfits hfirst trivial (by simp)),
          hslot.at_ (absurd · hidle) h⟩
  | WHAT_PAUSE => exact h.setPaused hfits hnot hfirst (by simp) (by simp) true
  | WHAT_RESUME => exact h.setPaused hfits hnot hfirst (by simp) (by simp) false

theorem doPull_eq_ok {released ok : Bool} {pulled : Pulled}
    (h : slot.doPull released pulled = .ok (slot', ok)) :
    ∃ waiting, slot' = { slot with waiting } := by
  unfold doPull at h
  split at h
  · cases h
  split at h
  · cases h
    exact ⟨_, rfl⟩
  split at h
  · cases h
  split at h <;> cases h <;> exact ⟨_, rfl⟩

/-- What the puller posts when it has stopped comes behind what the codec has put out. -/
theorem At.notifyStopped (h : slot.At word .stopping) (hreleased : slot.released = true)
    (mPullGeneration : ℤ) :
    ({ slot with mPullGeneration }.pullerAt .quit).At
      (word ++ [TrackMessage.WHAT_MEDIA_PULLER_STOPPED]) .stopped := by
  obtain ⟨hhas, -, -, hshuts, hunits⟩ := h
  refine ⟨hhas, ⟨hreleased, .inl rfl⟩, hshuts, word, [], rfl, hunits, by simp, ?_⟩
  change 0 + slot.notify.toList.length ≤ 1
  cases slot.notify <;> simp

/-- The puller that has reported that it has stopped quits. -/
theorem At.quit (h : slot.At word stage) (hpoint : slot.puller.point = some .quit)
    (hstop : .WHAT_STOP ∈ slot.puller.messages) :
    { slot with puller := slot.puller.quit.done }.At word stage := by
  have hceased : slot.Ceased → { slot with puller := slot.puller.quit.done }.Ceased :=
    fun hceased => ⟨hceased.released, .inr rfl⟩
  cases stage with
  | idle => simpa using h.2.2.1.messages _ hstop
  | starting => exact absurd hstop h.2.1.stop
  | running => exact absurd hstop h.2.1.stop
  | stopping => exact absurd hpoint h.2.2.1.2
  | stopped => exact ⟨h.1, hceased h.2.1, h.2.2⟩
  | ending => exact ⟨h.1, hceased h.2.1, h.2.2⟩
  | gone => exact ⟨h.1, hceased h.2.1, h.2.2⟩

/-- The puller goes on with a message. -/
theorem At.onPullerPoint {p : PullerPoint} {m : PullerMessage} {pulled : Pulled}
    (hfits : slot.Fits) (h : slot.At word stage) (hpoint : slot.puller.point = some p)
    (hfirst : slot.puller.messages.head? = some m) (hp : p.handles m)
    (hrun : slot.onPullerPoint pulled p = .ok (slot', ms)) :
    Kept slot slot' ∧ (ms = [] ∧ slot'.At word stage ∨
      stage = .stopping ∧ ms = [.WHAT_MEDIA_PULLER_STOPPED] ∧ slot'.At (word ++ ms) .stopped) := by
  have hmem : m ∈ slot.puller.messages := List.mem_of_head? hfirst
  have hidle : stage = .idle → m = .WHAT_PAUSE ∨ m = .WHAT_RESUME := by
    rintro rfl
    exact h.2.2.1.messages m hmem
  cases p with
  | postResponse =>
      cases m <;> try exact hp.elim
      cases hrun
      have hstop : .WHAT_STOP ∈ slot.puller.done.messages ↔ .WHAT_STOP ∈ slot.puller.messages :=
        Looper.mem_done_iff_of_ne hfirst (by decide)
      have hslot : Harmless slot ({ slot with responded := true }.pullerDone) := by
        refine ⟨rfl, rfl, id, rfl, rfl, rfl, ?_, fun h => absurd h (ne_quit_of_head? hfirst), hstop,
          fun _ => .inr rfl, id⟩
        simp [pullerDone, hpoint]
      have hfits' := hfits.pullerDone
      refine ⟨hslot.kept ⟨hfits'.1, hfits'.2, hfits'.3, hfits'.4⟩, .inl ⟨rfl, hslot.at_ ?_ h⟩⟩
      intro hstage
      simpa using hidle hstage
  | doPull released =>
      cases m <;> try exact hp.elim
      have hidle : stage ≠ .idle := fun hstage => by simpa using hidle hstage
      have hnot : slot.puller.point ≠ some .quit := by simp [hpoint]
      obtain ⟨⟨slot₁, ok⟩, hpull, hrun⟩ := bind_eq_ok.mp hrun
      obtain ⟨waiting, rfl⟩ := doPull_eq_ok hpull
      have hwaiting : Harmless slot { slot with waiting } :=
        ⟨rfl, rfl, id, rfl, rfl, rfl, .rfl, id, .rfl, id, id⟩
      have hfits' : { slot with waiting }.Fits := ⟨hfits.1, hfits.2, hfits.3, hfits.4⟩
      have hkept : ∀ {p : PullerPoint}, p ≠ .quit → p ≠ .notifyStopped →
          (∀ generation, p.handles (.WHAT_PULL generation)) →
          Kept slot ({ slot with waiting }.pullerAt p) ∧
            ({ slot with waiting }.pullerAt p).At word stage := by
        intro p hquit hstopped hp
        have hslot : Harmless slot ({ slot with waiting }.pullerAt p) :=
          hwaiting.trans (harmless_pullerAt hfirst hnot hquit)
        exact ⟨hslot.kept (fits_pullerAt hfits' hfirst (hp _) fun h => absurd h hstopped),
          hslot.at_ (absurd · hidle) h⟩
      dsimp only at hrun
      split at hrun
      · cases hrun
        obtain ⟨hslot, hat⟩ := @hkept .schedulePull (by simp) (by simp) fun _ => trivial
        exact ⟨hslot, .inl ⟨rfl, hat⟩⟩
      split at hrun
      · cases hrun
        obtain ⟨hslot, hat⟩ := @hkept .notifyPullSuccess (by simp) (by simp) fun _ => trivial
        exact ⟨hslot, .inl ⟨rfl, hat⟩⟩
      · cases hrun
        have hslot : Harmless slot ({ slot with waiting }.pullerDone) :=
          hwaiting.trans (harmless_pullerDone hfirst hnot (by simp) (by simp))
        exact ⟨hslot.kept hfits'.pullerDone, .inl ⟨rfl, hslot.at_ (absurd · hidle) h⟩⟩
  | notifyPullSuccess =>
      cases m <;> try exact hp.elim
      cases hrun
      have hnot : slot.puller.point ≠ some .quit := by simp [hpoint]
      have hpost : Harmless slot (slot.postConverter .WHAT_MEDIA_PULLER_NOTIFY) :=
        harmless_postConverter
      have hslot := hpost.trans (harmless_pullerAt hfirst hnot (p := .schedulePull) (by simp))
      refine ⟨hslot.kept (fits_pullerAt (hfits.postConverter _) hfirst trivial (by simp)),
        .inl ⟨rfl, hslot.at_ ?_ h⟩⟩
      intro hstage
      simpa using hidle hstage
  | schedulePull =>
      cases m <;> try exact hp.elim
      cases hrun
      have hpost : Harmless slot slot.schedulePull := harmless_postPuller (by simp)
      have hnot : slot.puller.point ≠ some .quit := by simp [hpoint]
      have hslot := hpost.trans (harmless_pullerDone (Looper.head?_post hfirst)
        (mt hpost.quit.mp hnot) (by simp) (by simp))
      refine ⟨hslot.kept (hfits.postPuller _).pullerDone, .inl ⟨rfl, hslot.at_ ?_ h⟩⟩
      intro hstage
      simpa using hidle hstage
  | notifyStopped =>
      cases m <;> try exact hp.elim
      cases hrun
      have hkept : Kept slot ({ slot with
          mPullGeneration := int32 (slot.mPullGeneration + 1) }.pullerAt .quit) :=
        ⟨⟨Looper.fits_goTo hfirst trivial, hfits.converter, hfits.notify, by simp [pullerAt]⟩, id,
          rfl, rfl⟩
      have hceased : ¬ slot.Ceased := by
        rintro ⟨-, hquit | hquit⟩
        · simp [hpoint] at hquit
        · exact ne_quit_of_head? hfirst hquit
      refine ⟨hkept, .inr ?_⟩
      cases stage with
      | idle => simpa using hidle rfl
      | starting => exact absurd hmem h.2.1.stop
      | running => exact absurd hmem h.2.1.stop
      | stopping => exact ⟨rfl, rfl, h.notifyStopped (hfits.released hpoint) _⟩
      | stopped => exact absurd h.2.1 hceased
      | ending => exact absurd h.2.1 hceased
      | gone => exact absurd h.2.1 hceased
  | quit =>
      cases m <;> try exact hp.elim
      cases hrun
      exact ⟨⟨⟨Looper.fits_of_point rfl, hfits.converter, hfits.notify, by simp⟩, id, rfl, rfl⟩,
        .inl ⟨rfl, h.quit hpoint hmem⟩⟩

/-- What the puller does leaves the stage as it is, but for the end of a track that was told to
stop. -/
theorem At.runPuller {pulled : Pulled} (hfits : slot.Fits) (h : slot.At word stage)
    (hrun : slot.runPuller pulled = .ok (slot', ms)) :
    Kept slot slot' ∧ (ms = [] ∧ slot'.At word stage ∨
      stage = .stopping ∧ ms = [.WHAT_MEDIA_PULLER_STOPPED] ∧ slot'.At (word ++ ms) .stopped) := by
  unfold Slot.runPuller at hrun
  split at hrun
  · rename_i p hpoint
    obtain ⟨m, hfirst, hp⟩ := hfits.puller p hpoint
    exact h.onPullerPoint hfits hpoint hfirst hp hrun
  · rename_i m rest hpoint hmessages
    cases hrun
    obtain ⟨hkept, hat⟩ := h.onPullerMessage hfits hpoint (m := m) (by simp [hmessages])
    exact ⟨hkept, .inl ⟨rfl, hat⟩⟩
  · cases hrun
    exact ⟨(Harmless.refl slot).kept hfits, .inl ⟨rfl, h⟩⟩

/-! ## The converter and the codec -/

/-- The converter changes what is its own. -/
theorem At.ofEncoder {converter : Looper ConverterMessage ConverterPoint} {mNumFramesToDrop : ℤ}
    {waiting encoded : ℕ} {released : Bool} (hfits : slot.Fits) (h : slot.At word stage)
    (hconverter : converter.Fits ConverterPoint.handles)
    (hreleased : slot.released = true → released = true)
    (hshuts : slot.Shuts → .WHAT_SHUTDOWN ∈ converter.messages ∨ converter.quitting = true)
    (hidle : slot.Untouched → waiting = 0 ∧ encoded = 0) :
    Kept slot { slot with converter, mNumFramesToDrop, waiting, encoded, released } ∧
      { slot with converter, mNumFramesToDrop, waiting, encoded, released }.At word stage := by
  have hslot : Harmless slot
      { slot with converter, mNumFramesToDrop, waiting, encoded, released } :=
    ⟨rfl, rfl, hreleased, rfl, rfl, rfl, .rfl, id, .rfl, id, hshuts⟩
  refine ⟨hslot.kept ⟨hfits.puller, hconverter, hfits.notify, hreleased ∘ hfits.released⟩,
    hslot.at_ ?_ h⟩
  rintro rfl
  have huntouched := h.2.2.1
  obtain ⟨hwaiting, hencoded⟩ := hidle huntouched
  exact ⟨huntouched.messages, huntouched.responded, hwaiting, hencoded, huntouched.notify⟩

theorem At.ofConverter {converter : Looper ConverterMessage ConverterPoint} {mNumFramesToDrop : ℤ}
    {released : Bool} (hfits : slot.Fits) (h : slot.At word stage)
    (hconverter : converter.Fits ConverterPoint.handles)
    (hreleased : slot.released = true → released = true)
    (hshuts : slot.Shuts → .WHAT_SHUTDOWN ∈ converter.messages ∨ converter.quitting = true) :
    Kept slot { slot with converter, mNumFramesToDrop, released } ∧
      { slot with converter, mNumFramesToDrop, released }.At word stage :=
  h.ofEncoder hfits hconverter hreleased hshuts fun hidle => ⟨hidle.waiting, hidle.encoded⟩

theorem fits_done (slot : Slot) : slot.converter.done.Fits ConverterPoint.handles :=
  Looper.fits_of_point rfl

/-- The first message of the converter is gone. -/
theorem shuts_done {m : ConverterMessage} (hfirst : slot.converter.messages.head? = some m)
    (hm : m ≠ .WHAT_SHUTDOWN) (h : slot.Shuts) :
    .WHAT_SHUTDOWN ∈ slot.converter.done.messages ∨ slot.converter.done.quitting = true :=
  h.imp_left (Looper.mem_done_iff_of_ne hfirst hm.symm).mpr

/-- The converter begins with a message. -/
theorem At.onConverterMessage {m : ConverterMessage} (hfits : slot.Fits) (h : slot.At word stage)
    (hfirst : slot.converter.messages.head? = some m)
    (hrun : slot.onConverterMessage m = .ok slot') : Kept slot slot' ∧ slot'.At word stage := by
  unfold Slot.onConverterMessage at hrun
  cases m with
  | WHAT_MEDIA_PULLER_NOTIFY =>
      dsimp only at hrun
      split at hrun
      · cases hrun
        exact h.ofConverter hfits (fits_done slot) id (shuts_done hfirst (by decide))
      · cases hrun
        exact h.ofConverter hfits (Looper.fits_goTo hfirst trivial) id id
  | WHAT_REQUEST_IDR_FRAME =>
      dsimp only at hrun
      split at hrun
      · cases hrun
      · cases hrun
        exact h.ofConverter hfits (fits_done slot) id (shuts_done hfirst (by decide))
  | WHAT_SHUTDOWN =>
      cases hrun
      exact h.ofConverter hfits (Looper.fits_goTo hfirst trivial) (fun _ => rfl) id
  | WHAT_DROP_A_FRAME =>
      cases hrun
      exact h.ofConverter hfits (fits_done slot) id (shuts_done hfirst (by decide))

/-- An image or a buffer is encoded, and there was one. -/
theorem At.doEncode (hfits : slot.Fits) (h : slot.At word stage)
    (hfirst : slot.converter.messages.head? = some .WHAT_MEDIA_PULLER_NOTIFY)
    (hrun : slot.doEncode = .ok slot') : Kept slot slot' ∧ slot'.At word stage := by
  have hshuts := @shuts_done slot _ hfirst (by decide)
  unfold Slot.doEncode at hrun
  split at hrun
  · cases hrun
    exact h.ofConverter hfits (fits_done slot) id hshuts
  rename_i hwaiting
  split at hrun
  · cases hrun
  dsimp only at hrun
  split at hrun
  · cases hrun
    exact h.ofEncoder hfits hfits.converter id id fun hidle => absurd hidle.waiting hwaiting
  · cases hrun
    exact h.ofEncoder hfits (fits_done slot) id hshuts fun hidle => absurd hidle.waiting hwaiting

/-- What the converter does leaves the stage as it is. -/
theorem At.runConverter (hfits : slot.Fits) (h : slot.At word stage)
    (hrun : slot.runConverter = .ok (slot', ms)) :
    Kept slot slot' ∧ counted ms = [] ∧ slot'.At word stage := by
  unfold Slot.runConverter at hrun
  split at hrun
  · rename_i p hpoint
    obtain ⟨m, hfirst, hp⟩ := hfits.converter p hpoint
    cases p with
    | doEncode =>
        cases m <;> try exact hp.elim
        obtain ⟨slot₁, hencode, hrun⟩ := bind_eq_ok.mp hrun
        cases hrun
        obtain ⟨hkept, hat⟩ := h.doEncode hfits hfirst hencode
        exact ⟨hkept, rfl, hat⟩
    | notifyShutdownCompleted =>
        cases m <;> try exact hp.elim
        cases hrun
        have hslot : Kept slot (slot.converterAt .quit) ∧ (slot.converterAt .quit).At word stage :=
          h.ofConverter hfits (Looper.fits_goTo hfirst trivial) id id
        exact ⟨hslot.1, rfl, hslot.2⟩
    | quit =>
        cases hrun
        have hslot : Kept slot { slot with converter := slot.converter.quit.done } ∧
            { slot with converter := slot.converter.quit.done }.At word stage :=
          h.ofConverter hfits (Looper.fits_of_point rfl) id fun _ => .inr rfl
        exact ⟨hslot.1, rfl, hslot.2⟩
  · rename_i m rest hpoint hmessages
    obtain ⟨slot₁, hmessage, hrun⟩ := bind_eq_ok.mp hrun
    cases hrun
    obtain ⟨hkept, hat⟩ := h.onConverterMessage hfits (by simp [hmessages]) hmessage
    exact ⟨hkept, rfl, hat⟩
  · cases hrun
    exact ⟨(Harmless.refl slot).kept hfits, rfl, h⟩

theorem isUnit_append {m : TrackMessage} (hms : ∀ m ∈ ms, m.IsUnit) (hm : m.IsUnit) :
    ∀ m' ∈ ms ++ [m], m'.IsUnit := by
  intro m' hm'
  rcases List.mem_append.mp hm' with hm' | hm'
  · exact hms m' hm'
  · rwa [List.mem_singleton.mp hm']

/-- The callback of a codec that was not released takes its next access unit. -/
theorem At.taken (h : slot.At word stage) (hreleased : ¬ slot.released = true)
    (hencoded : ¬ slot.encoded ≤ slot.outputs) (outputs : ℕ) (notify : Option TrackMessage) :
    { slot with outputs, notify }.At word stage := by
  cases stage with
  | idle => exact absurd (h.2.2.1.encoded.trans_le (Nat.zero_le _)) hencoded
  | starting => exact ⟨h.1, ⟨h.2.1.1, h.2.1.2⟩, h.2.2⟩
  | running => exact ⟨h.1, ⟨h.2.1.1, h.2.1.2⟩, h.2.2⟩
  | stopping => exact h
  | stopped => exact absurd h.2.1.released hreleased
  | ending => exact absurd h.2.1.released hreleased
  | gone => exact absurd h.2.1.released hreleased

theorem Late.posted {m : TrackMessage} (h : slot.Late ms) (hnotify : slot.notify = some m)
    (hm : m.IsUnit) : { slot with notify := none }.Late (ms ++ [m]) := by
  obtain ⟨number, rfl⟩ := hm
  simpa [Late, numbers, hnotify] using h

/-- The callback posts its access unit. -/
theorem At.posted {m : TrackMessage} (h : slot.At word stage) (hnotify : slot.notify = some m)
    (hm : m.IsUnit) : { slot with notify := none }.At (word ++ [m]) stage := by
  cases stage with
  | idle => simp [h.2.2.1.notify] at hnotify
  | starting =>
      obtain ⟨hhas, hlive, hstart, hunits⟩ := h
      exact ⟨hhas, ⟨hlive.1, hlive.2⟩, hstart, isUnit_append hunits hm⟩
  | running =>
      obtain ⟨hhas, hlive, hunits⟩ := h
      exact ⟨hhas, ⟨hlive.1, hlive.2⟩, isUnit_append hunits hm⟩
  | stopping =>
      obtain ⟨hhas, hquitting, hstop, hshuts, hunits⟩ := h
      exact ⟨hhas, hquitting, hstop, hshuts, isUnit_append hunits hm⟩
  | stopped =>
      obtain ⟨hhas, hceased, hshuts, units, late, rfl, hunits, hlate, hfew⟩ := h
      exact ⟨hhas, ⟨hceased.1, hceased.2⟩, hshuts, units, late ++ [m], by simp, hunits,
        isUnit_append hlate hm, hfew.posted hnotify hm⟩
  | ending =>
      obtain ⟨hhas, hceased, hshuts, units, late, rfl, hunits, hlate, hfew⟩ := h
      refine ⟨hhas, ⟨hceased.1, hceased.2⟩, hshuts, units, late ++ [m], by simp, hunits, ?_, ?_⟩
      · intro m' hm'
        rcases List.mem_append.mp hm' with hm' | hm'
        · exact hlate m' hm'
        · exact .inr (List.mem_singleton.mp hm' ▸ hm)
      · rw [← List.append_assoc]
        exact hfew.posted hnotify hm
  | gone =>
      obtain ⟨hnone, hceased, hshuts, hunits, hfew⟩ := h
      exact ⟨hnone, ⟨hceased.1, hceased.2⟩, hshuts, isUnit_append hunits hm, hfew.posted hnotify hm⟩

/-- What the codec does leaves the stage as it is. -/
theorem At.output {o : Output} (hfits : slot.Fits) (h : slot.At word stage) (ho : o ≠ .endOfStream)
    (hrun : slot.output o = .ok (slot', ms)) :
    slot'.Fits ∧ (slot.Shuts → slot'.Shuts) ∧ Conserves slot slot' ms ∧
      (∀ m ∈ ms, m.IsUnit) ∧ slot'.At (word ++ ms) stage := by
  have hsame : slot.Fits ∧ (slot.Shuts → slot.Shuts) ∧ Conserves slot slot [] ∧
      (∀ m ∈ ([] : List TrackMessage), m.IsUnit) ∧ slot.At (word ++ []) stage :=
    ⟨hfits, id, ((Harmless.refl slot).kept hfits).conserves rfl, by simp, by simpa using h⟩
  unfold Slot.output at hrun
  split at hrun
  · rename_i m hnotify
    cases hrun
    have hm := hfits.notify m hnotify
    refine ⟨⟨hfits.puller, hfits.converter, by simp, hfits.released⟩, id, ⟨[], by simp, ?_⟩,
      List.forall_mem_singleton.mpr hm, h.posted hnotify hm⟩
    rw [hnotify]
    rfl
  rename_i hnotify
  split at hrun
  · cases hrun
    exact hsame
  rename_i hreleased
  cases o with
  | codecConfig =>
      cases hrun
      exact hsame
  | formatChanged hasCsd =>
      cases hasCsd with
      | false => cases hrun
      | true =>
          cases hrun
          exact hsame
  | endOfStream => exact absurd rfl ho
  | accessUnit =>
      dsimp only at hrun
      split at hrun
      · cases hrun
        exact hsame
      rename_i hencoded
      split at hrun
      · cases hrun
      cases hrun
      refine ⟨⟨hfits.puller, hfits.converter, ?_, hfits.released⟩, id,
        ⟨[slot.outputs], List.range_succ, ?_⟩, by simp, ?_⟩
      · rintro _ ⟨⟩
        exact ⟨_, rfl⟩
      · rw [hnotify]
        rfl
      · rw [List.append_nil]
        exact h.taken hreleased hencoded _ _

end Slot

end MirrorCast.PlaybackSession.Mirroring
