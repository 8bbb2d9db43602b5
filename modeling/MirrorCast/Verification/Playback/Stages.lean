import MirrorCast.Program.PlaybackSession.Mirroring

/-! # The life of a track and its threads -/

namespace MirrorCast.PlaybackSession.Mirroring

open Java

/-- How far a track is. -/
inductive Stage where
  | idle
  /-- The session waits for its puller. -/
  | starting
  | running
  /-- The puller and the converter were told to stop. -/
  | stopping
  /-- The puller has stopped. -/
  | stopped
  /-- The track has stopped, and the session has yet to hear of it. -/
  | ending
  | gone
  deriving DecidableEq, Repr

/-- The track was told to stop. -/
def Stage.Told (stage : Stage) : Prop :=
  stage = .stopping ∨ stage = .stopped ∨ stage = .ending ∨ stage = .gone

def TrackMessage.IsUnit (m : TrackMessage) : Prop := ∃ number, m = .WHAT_ACCESS_UNIT number

/-- The messages that a track cares for: that its converter has shut down is none of them. -/
def counted (ms : List TrackMessage) : List TrackMessage :=
  ms.filter (· ≠ .WHAT_SHUTDOWN_COMPLETED)

/-- The numbers of the access units among some messages. -/
def numbers (word : List TrackMessage) : List ℕ :=
  word.filterMap fun
    | .WHAT_ACCESS_UNIT number => some number
    | _ => none

theorem numbers_append (xs ys : List TrackMessage) : numbers (xs ++ ys) = numbers xs ++ numbers ys :=
  List.filterMap_append

def PullerPoint.handles : PullerPoint → PullerMessage → Prop
  | .postResponse, .WHAT_START => True
  | .doPull _, .WHAT_PULL _ => True
  | .notifyPullSuccess, .WHAT_PULL _ => True
  | .schedulePull, .WHAT_PULL _ => True
  | .notifyStopped, .WHAT_STOP => True
  | .quit, .WHAT_STOP => True
  | _, _ => False

def ConverterPoint.handles : ConverterPoint → ConverterMessage → Prop
  | .doEncode, .WHAT_MEDIA_PULLER_NOTIFY => True
  | .notifyShutdownCompleted, .WHAT_SHUTDOWN => True
  | .quit, .WHAT_SHUTDOWN => True
  | _, _ => False

namespace Slot

/-- The handlers at work are those of the first messages, the callback at work has an access unit,
and a puller that is to report that it has stopped has stopped its source. -/
structure Fits (slot : Slot) : Prop where
  puller : slot.puller.Fits PullerPoint.handles
  converter : slot.converter.Fits ConverterPoint.handles
  notify : ∀ m, slot.notify = some m → m.IsUnit
  released : slot.puller.point = some .notifyStopped → slot.released = true

/-- The puller was not told to stop. -/
structure Live (slot : Slot) : Prop where
  quitting : slot.puller.quitting = false
  stop : .WHAT_STOP ∉ slot.puller.messages

/-- Nothing was pulled. -/
structure Untouched (slot : Slot) : Prop where
  messages : ∀ m ∈ slot.puller.messages, m = .WHAT_PAUSE ∨ m = .WHAT_RESUME
  responded : slot.responded = false
  waiting : slot.waiting = 0
  encoded : slot.encoded = 0
  notify : slot.notify = none

/-- The puller has reported that it has stopped, and has quit or does next. -/
structure Ceased (slot : Slot) : Prop where
  released : slot.released = true
  puller : slot.puller.point = some .quit ∨ slot.puller = Looper.new.quit

/-- The converter has quit or will. -/
def Shuts (slot : Slot) : Prop :=
  .WHAT_SHUTDOWN ∈ slot.converter.messages ∨ slot.converter.quitting = true

def Has (slot : Slot) (hasConverter mStarted : Bool) : Prop :=
  slot.track = some ⟨⟨!slot.isVideo, hasConverter⟩, mStarted⟩

/-- All that comes behind the stopping of a puller: the access unit of a callback that was at work
then. -/
def Late (slot : Slot) (ms : List TrackMessage) : Prop :=
  (numbers ms).length + slot.notify.toList.length ≤ 1

/-- A slot at a stage, with the messages of its track that are on the way to the session. -/
def At (slot : Slot) (word : List TrackMessage) : Stage → Prop
  | .idle => slot.Has true false ∧ slot.Live ∧ slot.Untouched ∧ word = []
  | .starting => slot.Has true false ∧ slot.Live ∧
      (.WHAT_START ∈ slot.puller.messages ∨ slot.responded = true) ∧ ∀ m ∈ word, m.IsUnit
  | .running => slot.Has true true ∧ slot.Live ∧ ∀ m ∈ word, m.IsUnit
  | .stopping => slot.Has true true ∧ slot.puller.quitting = false ∧
      (.WHAT_STOP ∈ slot.puller.messages ∧ slot.puller.point ≠ some .quit) ∧ slot.Shuts ∧
      ∀ m ∈ word, m.IsUnit
  | .stopped => slot.Has true true ∧ slot.Ceased ∧ slot.Shuts ∧
      ∃ units late, word = units ++ .WHAT_MEDIA_PULLER_STOPPED :: late ∧
        (∀ m ∈ units, m.IsUnit) ∧ (∀ m ∈ late, m.IsUnit) ∧ slot.Late late
  | .ending => slot.Has false false ∧ slot.Ceased ∧ slot.Shuts ∧
      ∃ units late, word = units ++ .WHAT_STOPPED :: late ∧ (∀ m ∈ units, m.IsUnit) ∧
        (∀ m ∈ late, m = .WHAT_MEDIA_PULLER_STOPPED ∨ m.IsUnit) ∧ slot.Late (units ++ late)
  | .gone => slot.track = none ∧ slot.Ceased ∧ slot.Shuts ∧ (∀ m ∈ word, m.IsUnit) ∧
      slot.Late word

variable {slot slot' : Slot} {word ms : List TrackMessage} {stage : Stage}

theorem fits_new (mIsAudio : Bool) : (new mIsAudio).Fits :=
  ⟨Looper.fits_of_point rfl, Looper.fits_of_point rfl, by simp [new], by simp [new]⟩

theorem fits_unused : unused.Fits :=
  ⟨Looper.fits_of_point rfl, Looper.fits_of_point rfl, by simp [unused, new], fun _ => rfl⟩

theorem at_new (mIsAudio : Bool) : (new mIsAudio).At [] .idle := by
  refine ⟨?_, ⟨rfl, by simp [new]⟩, ⟨by simp [new], rfl, rfl, rfl, rfl⟩, rfl⟩
  simp [Has, new]

theorem at_unused : unused.At [] .gone :=
  ⟨rfl, ⟨rfl, .inr rfl⟩, .inr rfl, by simp, by simp [Late, numbers, unused, new]⟩

/-! ## Changes that leave the stage as it is -/

/-- The slot changes, but not in what its stage says. -/
structure Harmless (slot slot' : Slot) : Prop where
  track : slot'.track = slot.track
  isVideo : slot'.isVideo = slot.isVideo
  released : slot.released = true → slot'.released = true
  outputs : slot'.outputs = slot.outputs
  notify : slot'.notify = slot.notify
  quitting : slot'.puller.quitting = slot.puller.quitting
  quit : slot'.puller.point = some .quit ↔ slot.puller.point = some .quit
  ceased : slot.puller = Looper.new.quit → slot'.puller = Looper.new.quit
  stop : .WHAT_STOP ∈ slot'.puller.messages ↔ .WHAT_STOP ∈ slot.puller.messages
  start : .WHAT_START ∈ slot.puller.messages ∨ slot.responded = true →
    .WHAT_START ∈ slot'.puller.messages ∨ slot'.responded = true
  shuts : slot.Shuts → slot'.Shuts

theorem Harmless.refl (slot : Slot) : Harmless slot slot :=
  ⟨rfl, rfl, id, rfl, rfl, rfl, .rfl, id, .rfl, id, id⟩

namespace Harmless

theorem has (h : Harmless slot slot') {hasConverter mStarted : Bool}
    (hhas : slot.Has hasConverter mStarted) : slot'.Has hasConverter mStarted := by
  rw [Has, h.track, h.isVideo]
  exact hhas

theorem live (h : Harmless slot slot') (hlive : slot.Live) : slot'.Live where
  quitting := h.quitting.trans hlive.quitting
  stop := mt h.stop.mp hlive.stop

theorem toCeased (h : Harmless slot slot') (hceased : slot.Ceased) : slot'.Ceased where
  released := h.released hceased.released
  puller := hceased.puller.imp h.quit.mpr h.ceased

theorem late (h : Harmless slot slot') (hlate : slot.Late ms) : slot'.Late ms := by
  rwa [Late, h.notify]

theorem trans {slot'' : Slot} (h : Harmless slot slot') (h' : Harmless slot' slot'') :
    Harmless slot slot'' where
  track := h'.track.trans h.track
  isVideo := h'.isVideo.trans h.isVideo
  released := h'.released ∘ h.released
  outputs := h'.outputs.trans h.outputs
  notify := h'.notify.trans h.notify
  quitting := h'.quitting.trans h.quitting
  quit := h'.quit.trans h.quit
  ceased := h'.ceased ∘ h.ceased
  stop := h'.stop.trans h.stop
  start := h'.start ∘ h.start
  shuts := h'.shuts ∘ h.shuts

theorem at_ (h : Harmless slot slot') (hidle : stage = .idle → slot'.Untouched)
    (hat : slot.At word stage) : slot'.At word stage := by
  cases stage with
  | idle => exact ⟨h.has hat.1, h.live hat.2.1, hidle rfl, hat.2.2.2⟩
  | starting => exact ⟨h.has hat.1, h.live hat.2.1, h.start hat.2.2.1, hat.2.2.2⟩
  | running => exact ⟨h.has hat.1, h.live hat.2.1, hat.2.2⟩
  | stopping =>
      obtain ⟨hhas, hquitting, ⟨hstop, hpoint⟩, hshuts, hunits⟩ := hat
      exact ⟨h.has hhas, h.quitting.trans hquitting, ⟨h.stop.mpr hstop, mt h.quit.mp hpoint⟩,
        h.shuts hshuts, hunits⟩
  | stopped =>
      obtain ⟨hhas, hceased, hshuts, units, late, hword, hunits, hlate, hfew⟩ := hat
      exact ⟨h.has hhas, h.toCeased hceased, h.shuts hshuts, units, late, hword, hunits, hlate,
        h.late hfew⟩
  | ending =>
      obtain ⟨hhas, hceased, hshuts, units, late, hword, hunits, hlate, hfew⟩ := hat
      exact ⟨h.has hhas, h.toCeased hceased, h.shuts hshuts, units, late, hword, hunits, hlate,
        h.late hfew⟩
  | gone =>
      obtain ⟨hnone, hceased, hshuts, hunits, hfew⟩ := hat
      exact ⟨h.track.trans hnone, h.toCeased hceased, h.shuts hshuts, hunits, h.late hfew⟩

end Harmless

/-! ### Messages are posted -/

theorem harmless_postPuller {m : PullerMessage} (hm : m ≠ .WHAT_STOP) :
    Harmless slot (slot.postPuller m) := by
  refine ⟨rfl, rfl, id, rfl, rfl, Looper.quitting_post, by simp [postPuller], ?_,
    Looper.mem_post_iff_of_ne hm.symm, .imp_left Looper.mem_post_of_mem, id⟩
  intro hquit
  have hpost : slot.puller.post m = slot.puller := by
    refine Looper.post_of_quitting ?_
    rw [hquit]
    rfl
  exact hpost.trans hquit

theorem shuts_postConverter_of_shuts {m : ConverterMessage} (h : slot.Shuts) :
    (slot.postConverter m).Shuts :=
  h.imp Looper.mem_post_of_mem Looper.quitting_post.trans

theorem harmless_postConverter {m : ConverterMessage} : Harmless slot (slot.postConverter m) :=
  ⟨rfl, rfl, id, rfl, rfl, rfl, .rfl, id, .rfl, id, shuts_postConverter_of_shuts⟩

theorem Fits.postPuller (h : slot.Fits) (m : PullerMessage) : (slot.postPuller m).Fits :=
  ⟨h.puller.post m, h.converter, h.notify, by simpa [Slot.postPuller] using h.released⟩

theorem Fits.postConverter (h : slot.Fits) (m : ConverterMessage) : (slot.postConverter m).Fits :=
  ⟨h.puller, h.converter.post m, h.notify, h.released⟩

theorem Untouched.postPuller {m : PullerMessage} (h : slot.Untouched)
    (hm : m = .WHAT_PAUSE ∨ m = .WHAT_RESUME) : (slot.postPuller m).Untouched :=
  ⟨fun _ hmem => (Looper.mem_post hmem).elim (h.messages _) fun heq => heq ▸ hm,
    h.responded, h.waiting, h.encoded, h.notify⟩

theorem Untouched.postConverter {m : ConverterMessage} (h : slot.Untouched) :
    (slot.postConverter m).Untouched :=
  ⟨h.messages, h.responded, h.waiting, h.encoded, h.notify⟩

theorem At.postPuller {m : PullerMessage} (h : slot.At word stage)
    (hm : m = .WHAT_PAUSE ∨ m = .WHAT_RESUME) : (slot.postPuller m).At word stage := by
  refine (harmless_postPuller ?_).at_ ?_ h
  · rintro rfl
    simp at hm
  · rintro rfl
    exact h.2.2.1.postPuller hm

theorem At.postConverter {m : ConverterMessage} (h : slot.At word stage) :
    (slot.postConverter m).At word stage := by
  refine harmless_postConverter.at_ ?_ h
  rintro rfl
  exact h.2.2.1.postConverter

/-- What the session does to a slot that leaves its track at its stage. -/
structure Mild (slot slot' : Slot) : Prop where
  fits : slot.Fits → slot'.Fits
  at_ : ∀ {word stage}, slot.At word stage → slot'.At word stage
  shuts : slot.Shuts → slot'.Shuts
  track : slot'.track = slot.track
  outputs : slot'.outputs = slot.outputs
  notify : slot'.notify = slot.notify

theorem Mild.refl (slot : Slot) : Mild slot slot := ⟨id, id, id, rfl, rfl, rfl⟩

theorem mild_postPuller {m : PullerMessage} (hm : m = .WHAT_PAUSE ∨ m = .WHAT_RESUME) :
    Mild slot (slot.postPuller m) :=
  ⟨fun h => h.postPuller m, fun h => h.postPuller hm, id, rfl, rfl, rfl⟩

theorem mild_postConverter {m : ConverterMessage} : Mild slot (slot.postConverter m) :=
  ⟨fun h => h.postConverter m, At.postConverter, shuts_postConverter_of_shuts, rfl, rfl, rfl⟩

theorem mild_pause (slot : Slot) : Mild slot slot.pause := by
  unfold Slot.pause
  split
  · exact mild_postPuller (.inl rfl)
  · exact .refl slot

theorem mild_resume (slot : Slot) : Mild slot slot.resume := by
  unfold Slot.resume
  split
  · exact mild_postPuller (.inr rfl)
  · exact .refl slot

theorem mild_requestIDRFrame (slot : Slot) : Mild slot slot.requestIDRFrame := by
  unfold Slot.requestIDRFrame
  split
  · exact mild_postConverter
  · exact .refl slot

theorem mild_shutdownConverter (slot : Slot) : Mild slot slot.shutdownConverter := by
  unfold Slot.shutdownConverter
  split
  · exact mild_postConverter
  · exact .refl slot

/-- What a thread leaves as it is whatever the stage. -/
structure Kept (slot slot' : Slot) : Prop where
  fits : slot'.Fits
  shuts : slot.Shuts → slot'.Shuts
  outputs : slot'.outputs = slot.outputs
  notify : slot'.notify = slot.notify

theorem Harmless.kept (h : Harmless slot slot') (hfits : slot'.Fits) : Kept slot slot' :=
  ⟨hfits, h.shuts, h.outputs, h.notify⟩

/-- The access units that the codec puts out are posted or with its callback. -/
def Conserves (slot slot' : Slot) (ms : List TrackMessage) : Prop :=
  ∃ new, List.range slot'.outputs = List.range slot.outputs ++ new ∧
    numbers slot.notify.toList ++ new = numbers ms ++ numbers slot'.notify.toList

theorem Kept.conserves (h : Kept slot slot') (hms : numbers ms = []) : Conserves slot slot' ms :=
  ⟨[], by rw [h.outputs, List.append_nil], by rw [h.notify, hms, List.append_nil, List.nil_append]⟩

/-! ## What the session does -/

theorem shuts_postConverter : (slot.postConverter .WHAT_SHUTDOWN).Shuts := by
  cases hquitting : slot.converter.quitting with
  | false => exact .inl (Looper.mem_post_self hquitting)
  | true => exact .inr (Looper.quitting_post.trans hquitting)

/-- The converter of a track that was started is told to shut down, for the first time or again. -/
theorem At.shuts (h : slot.At word stage) (hstage : stage = .running ∨ stage.Told) :
    slot.shutdownConverter.Shuts := by
  have hposted : ∀ {mStarted : Bool}, slot.Has true mStarted → slot.shutdownConverter.Shuts := by
    intro mStarted hhas
    rw [Has] at hhas
    have hposts : slot.shutdownConverter = slot.postConverter .WHAT_SHUTDOWN := by
      simp [Slot.shutdownConverter, hhas]
    rw [hposts]
    exact shuts_postConverter
  cases stage with
  | idle => simp [Stage.Told] at hstage
  | starting => simp [Stage.Told] at hstage
  | running => exact hposted h.1
  | stopping => exact hposted h.1
  | stopped => exact hposted h.1
  | ending => exact (mild_shutdownConverter slot).shuts h.2.2.1
  | gone => exact (mild_shutdownConverter slot).shuts h.2.2.1

theorem stopPuller_of_started {hasConverter : Bool} (h : slot.Has hasConverter true) :
    slot.stopPuller = (slot.postPuller .WHAT_STOP, []) := by
  rw [Has] at h
  simp [Slot.stopPuller, h]

theorem stopPuller_of_stopped {hasConverter : Bool} (h : slot.Has hasConverter false) :
    slot.stopPuller = (slot, [.WHAT_MEDIA_PULLER_STOPPED]) := by
  rw [Has] at h
  simp [Slot.stopPuller, h]

theorem stopPuller_of_none (h : slot.track = none) : slot.stopPuller = (slot, []) := by
  simp [Slot.stopPuller, h]

/-- To tell the puller to stop changes nothing else. -/
theorem kept_stopPuller (h : slot.Fits) :
    Kept slot slot.stopPuller.1 ∧ ∀ m ∈ slot.stopPuller.2, m = .WHAT_MEDIA_PULLER_STOPPED := by
  have hsame : Kept slot slot := (Harmless.refl slot).kept h
  unfold Slot.stopPuller
  split
  · exact ⟨hsame, by simp⟩
  split
  · exact ⟨⟨h.postPuller _, id, rfl, rfl⟩, by simp⟩
  · exact ⟨hsame, by simp⟩

theorem Ceased.postPuller (h : slot.Ceased) (m : PullerMessage) : (slot.postPuller m).Ceased := by
  refine ⟨h.released, h.puller.imp (Looper.point_post.trans ·) fun hquit => ?_⟩
  have hpost : slot.puller.post m = slot.puller := by
    refine Looper.post_of_quitting ?_
    rw [hquit]
    rfl
  exact hpost.trans hquit

/-- A puller that was not told to stop does not quit. -/
theorem Live.point_ne_quit (h : slot.Live) (hfits : slot.Fits) :
    slot.puller.point ≠ some .quit := by
  intro hquit
  obtain ⟨m, hfirst, hm⟩ := hfits.puller .quit hquit
  cases m <;> try exact hm.elim
  exact h.stop (List.mem_of_head? hfirst)

/-- The puller of a track that was started is told to stop, for the first time or again. -/
theorem At.stopPuller (hfits : slot.Fits) (h : slot.At word stage)
    (hstage : stage = .running ∨ stage.Told) (hshuts : slot.Shuts) :
    ∃ stage', stage'.Told ∧ (stage = .gone ↔ stage' = .gone) ∧
      slot.stopPuller.1.At (word ++ slot.stopPuller.2) stage' := by
  cases stage with
  | idle => simp [Stage.Told] at hstage
  | starting => simp [Stage.Told] at hstage
  | running =>
      obtain ⟨hhas, hlive, hunits⟩ := h
      rw [stopPuller_of_started hhas, List.append_nil]
      have hpoint := hlive.point_ne_quit hfits
      exact ⟨.stopping, by simp [Stage.Told], by simp, hhas,
        Looper.quitting_post.trans hlive.quitting,
        ⟨Looper.mem_post_self hlive.quitting, by simpa [Slot.postPuller] using hpoint⟩, hshuts,
        hunits⟩
  | stopping =>
      obtain ⟨hhas, hquitting, ⟨hstop, hpoint⟩, -, hunits⟩ := h
      rw [stopPuller_of_started hhas, List.append_nil]
      exact ⟨.stopping, by simp [Stage.Told], by simp, hhas, Looper.quitting_post.trans hquitting,
        ⟨Looper.mem_post_of_mem hstop, by simpa [Slot.postPuller] using hpoint⟩, hshuts, hunits⟩
  | stopped =>
      obtain ⟨hhas, hceased, -, hword⟩ := h
      rw [stopPuller_of_started hhas, List.append_nil]
      exact ⟨.stopped, by simp [Stage.Told], by simp, hhas, hceased.postPuller _, hshuts, hword⟩
  | ending =>
      obtain ⟨hhas, hceased, -, units, late, rfl, hunits, hlate, hfew⟩ := h
      rw [stopPuller_of_stopped hhas]
      refine ⟨.ending, by simp [Stage.Told], by simp, hhas, hceased, hshuts, units,
        late ++ [.WHAT_MEDIA_PULLER_STOPPED], by simp, hunits, ?_, ?_⟩
      · intro m hm
        rcases List.mem_append.mp hm with hm | hm
        · exact hlate m hm
        · exact .inl (List.mem_singleton.mp hm)
      · simpa [Late, numbers] using hfew
  | gone =>
      obtain ⟨hnone, hceased, -, hword⟩ := h
      rw [stopPuller_of_none hnone, List.append_nil]
      exact ⟨.gone, by simp [Stage.Told], .rfl, hnone, hceased, hshuts, hword⟩

/-- A message that is no access unit comes first: those before it were handled. -/
theorem eq_of_append_cons {m first : TrackMessage} {units late : List TrackMessage}
    (h : m :: word = units ++ first :: late) (hunits : ∀ m ∈ units, m.IsUnit) (hm : ¬ m.IsUnit) :
    units = [] ∧ m = first ∧ word = late := by
  cases units with
  | nil =>
      obtain ⟨rfl, rfl⟩ := List.cons.inj h
      exact ⟨rfl, rfl, rfl⟩
  | cons unit units =>
      obtain ⟨rfl, -⟩ := List.cons.inj h
      exact absurd (hunits _ List.mem_cons_self) hm

/-- A message that is no access unit is handled only when the puller has stopped. -/
theorem At.over {m : TrackMessage} (h : slot.At (m :: word) stage) (hm : ¬ m.IsUnit) :
    stage = .stopped ∧ m = .WHAT_MEDIA_PULLER_STOPPED ∨ stage = .ending ∧ m = .WHAT_STOPPED := by
  cases stage with
  | idle => simp [At] at h
  | starting => exact absurd (h.2.2.2 _ List.mem_cons_self) hm
  | running => exact absurd (h.2.2 _ List.mem_cons_self) hm
  | stopping => exact absurd (h.2.2.2.2 _ List.mem_cons_self) hm
  | stopped =>
      obtain ⟨-, -, -, units, late, hword, hunits, -⟩ := h
      exact .inl ⟨rfl, (eq_of_append_cons hword hunits hm).2.1⟩
  | ending =>
      obtain ⟨-, -, -, units, late, hword, hunits, -⟩ := h
      exact .inr ⟨rfl, (eq_of_append_cons hword hunits hm).2.1⟩
  | gone => exact absurd (h.2.2.2.1 _ List.mem_cons_self) hm

/-- No codec reaches the end of its stream. -/
theorem At.not_eos (h : slot.At (.WHAT_EOS :: word) stage) : False := by
  obtain ⟨-, hm⟩ | ⟨-, hm⟩ := h.over (by rintro ⟨number, ⟨⟩⟩) <;> cases hm

theorem Fits.ofTrack (h : slot.Fits) (track : Option Track) (responded : Bool) :
    { slot with track, responded }.Fits :=
  ⟨h.puller, h.converter, h.notify, h.released⟩

/-- The track hears that its puller has stopped: before that the session has handled all that the
codec had posted. -/
theorem At.onMediaPullerStopped (h : slot.At (.WHAT_MEDIA_PULLER_STOPPED :: word) stage) :
    stage = .stopped ∧ slot.onMediaPullerStopped.1.At (word ++ [.WHAT_STOPPED]) .ending := by
  have hnot : ¬ TrackMessage.WHAT_MEDIA_PULLER_STOPPED.IsUnit := by
    rintro ⟨number, ⟨⟩⟩
  obtain ⟨rfl, -⟩ | ⟨-, hm⟩ := h.over hnot
  swap
  · cases hm
  obtain ⟨hhas, hceased, hshuts, units, late, hword, hunits, hlate, hfew⟩ := h
  obtain ⟨rfl, -, rfl⟩ := eq_of_append_cons hword hunits hnot
  refine ⟨rfl, ?_, ⟨hceased.1, hceased.2⟩, hshuts, word, [], rfl, hlate, by simp, ?_⟩
  · rw [Has] at hhas
    simp [Has, Slot.onMediaPullerStopped, hhas]
  · rw [List.append_nil]
    exact hfew

/-- The session hears that the track has stopped, and forgets it and what the track is still to
hear. -/
theorem At.onStopped (h : slot.At (.WHAT_STOPPED :: word) stage) :
    stage = .ending ∧ { slot with track := none }.At
      (word.filter (· ≠ TrackMessage.WHAT_MEDIA_PULLER_STOPPED)) .gone := by
  have hnot : ¬ TrackMessage.WHAT_STOPPED.IsUnit := by
    rintro ⟨number, ⟨⟩⟩
  obtain ⟨-, hm⟩ | ⟨rfl, -⟩ := h.over hnot
  · cases hm
  obtain ⟨-, hceased, hshuts, units, late, hword, hunits, hlate, hfew⟩ := h
  obtain ⟨rfl, -, rfl⟩ := eq_of_append_cons hword hunits hnot
  refine ⟨rfl, rfl, ⟨hceased.1, hceased.2⟩, hshuts, ?_, ?_⟩
  · intro m hm
    obtain ⟨hm, hne⟩ := List.mem_filter.mp hm
    exact (hlate m hm).resolve_left (by simpa using hne)
  · refine (Nat.add_le_add_right ?_ _).trans hfew
    exact ((List.filter_sublist).filterMap _).length_le

theorem Late.of_cons {m : TrackMessage} (h : slot.Late (m :: ms)) : slot.Late ms :=
  (Nat.add_le_add_right (((List.sublist_cons_self m ms).filterMap _).length_le) _).trans h

/-- An access unit is handled. -/
theorem At.onAccessUnit {number : ℕ} (h : slot.At (.WHAT_ACCESS_UNIT number :: word) stage) :
    stage ≠ .idle ∧ slot.At word stage := by
  have htail : ∀ {us : List TrackMessage}, (∀ m ∈ .WHAT_ACCESS_UNIT number :: us, m.IsUnit) →
      ∀ m ∈ us, m.IsUnit := fun h m hm => h m (List.mem_cons_of_mem _ hm)
  cases stage with
  | idle => simp [At] at h
  | starting =>
      obtain ⟨hhas, hlive, hstart, hunits⟩ := h
      exact ⟨by decide, hhas, hlive, hstart, htail hunits⟩
  | running =>
      obtain ⟨hhas, hlive, hunits⟩ := h
      exact ⟨by decide, hhas, hlive, htail hunits⟩
  | stopping =>
      obtain ⟨hhas, hquitting, hstop, hshuts, hunits⟩ := h
      exact ⟨by decide, hhas, hquitting, hstop, hshuts, htail hunits⟩
  | stopped =>
      obtain ⟨hhas, hceased, hshuts, units, late, hword, hunits, hlate, hfew⟩ := h
      cases units with
      | nil => simp at hword
      | cons unit units =>
          obtain ⟨rfl, rfl⟩ := List.cons.inj hword
          exact ⟨by decide, hhas, hceased, hshuts, units, late, rfl, htail hunits, hlate, hfew⟩
  | ending =>
      obtain ⟨hhas, hceased, hshuts, units, late, hword, hunits, hlate, hfew⟩ := h
      cases units with
      | nil => simp at hword
      | cons unit units =>
          obtain ⟨rfl, rfl⟩ := List.cons.inj hword
          exact ⟨by decide, hhas, hceased, hshuts, units, late, rfl, htail hunits, hlate,
            hfew.of_cons⟩
  | gone =>
      obtain ⟨hnone, hceased, hshuts, hunits, hfew⟩ := h
      exact ⟨by decide, hnone, hceased, hshuts, htail hunits, hfew.of_cons⟩

/-- Only a track that is gone is not there. -/
theorem At.track_eq_none_iff (h : slot.At word stage) : slot.track = none ↔ stage = .gone := by
  cases stage with
  | gone => exact iff_of_true h.1 rfl
  | _ => exact iff_of_false (by rw [h.1]; simp) (by simp)

/-- The puller of the track is told to start. -/
theorem At.start (h : slot.At word .idle) : (slot.postPuller .WHAT_START).At word .starting := by
  obtain ⟨hhas, hlive, -, rfl⟩ := h
  have hslot : Harmless slot (slot.postPuller .WHAT_START) := harmless_postPuller (by decide)
  exact ⟨hhas, hslot.live hlive, .inl (Looper.mem_post_self hlive.quitting), by simp⟩

/-- The puller has responded. -/
theorem At.started (h : slot.At word .starting) : slot.started.At word .running := by
  obtain ⟨hhas, hlive, -, hunits⟩ := h
  refine ⟨?_, ⟨hlive.1, hlive.2⟩, hunits⟩
  rw [Has] at hhas
  simp [Has, Slot.started, hhas]

end Slot

end MirrorCast.PlaybackSession.Mirroring
