import MirrorCast.Verification.Playback.Establishing
import MirrorCast.Verification.Playback.Threads

/-! # The tracks of a session over its runs -/

namespace MirrorCast.PlaybackSession.Mirroring

open Java RTPBase
open ANetworkSession (OK)

/-! ## What the queue holds for a track -/

def Message.ofTrack (i : ℕ) : Message → Option TrackMessage
  | .track j m => if j = i ∧ m ≠ .WHAT_SHUTDOWN_COMPLETED then some m else none
  | _ => none

/-- The messages of a track that wait. -/
def word (i : ℕ) (queue : List Message) : List TrackMessage := queue.filterMap (Message.ofTrack i)

/-- The looper still has to stop the track. -/
def Stops (i : ℕ) (queue : List Message) : Prop :=
  .task (.stopAsync i) ∈ queue ∨ .task (.stopPuller i) ∈ queue

/-- A message that does not concern the track. -/
structure Message.ApartFrom (i : ℕ) (m : Message) : Prop where
  ofTrack : m.ofTrack i = none
  stopAsync : m ≠ .task (.stopAsync i)
  stopPuller : m ≠ .task (.stopPuller i)

/-- Two queues hold the same for a track. -/
structure SameFor (i : ℕ) (xs ys : List Message) : Prop where
  word : word i xs = word i ys
  stopAsync : .task (.stopAsync i) ∈ xs ↔ .task (.stopAsync i) ∈ ys
  stopPuller : .task (.stopPuller i) ∈ xs ↔ .task (.stopPuller i) ∈ ys

@[simp] theorem word_nil (i : ℕ) : word i [] = [] := rfl

theorem word_append (i : ℕ) (xs ys : List Message) : word i (xs ++ ys) = word i xs ++ word i ys :=
  List.filterMap_append

theorem word_track_self {i : ℕ} {m : TrackMessage} (hm : m ≠ .WHAT_SHUTDOWN_COMPLETED)
    (queue : List Message) : word i (.track i m :: queue) = m :: word i queue := by
  simp [word, Message.ofTrack, hm]

theorem word_map_self (i : ℕ) (ms : List TrackMessage) :
    word i (ms.map (.track i)) = counted ms := by
  induction ms with
  | nil => rfl
  | cons m ms ih =>
      by_cases hm : m = .WHAT_SHUTDOWN_COMPLETED
      · simpa [word, Message.ofTrack, counted, hm] using ih
      · rw [List.map_cons, word_track_self hm, ih]
        simp [counted, hm]

theorem Message.Apart.apartFrom {m : Message} (h : m.Apart) (i : ℕ) : m.ApartFrom i := by
  refine ⟨?_, fun hm => h.2 _ hm trivial, fun hm => h.2 _ hm trivial⟩
  cases m with
  | track j tm => exact absurd rfl (h.1 j tm)
  | _ => rfl

theorem apartFrom_track_of_ne {i j : ℕ} (h : j ≠ i) (m : TrackMessage) :
    (Message.track j m).ApartFrom i :=
  ⟨by simp [Message.ofTrack, h], by simp, by simp⟩

theorem apartFrom_shutdown (i j : ℕ) : (Message.track j .WHAT_SHUTDOWN_COMPLETED).ApartFrom i :=
  ⟨by simp [Message.ofTrack], by simp, by simp⟩

theorem SameFor.refl (i : ℕ) (queue : List Message) : SameFor i queue queue := ⟨rfl, .rfl, .rfl⟩

theorem SameFor.trans {i : ℕ} {xs ys zs : List Message} (h : SameFor i xs ys)
    (h' : SameFor i ys zs) : SameFor i xs zs :=
  ⟨h.word.trans h'.word, h.stopAsync.trans h'.stopAsync, h.stopPuller.trans h'.stopPuller⟩

theorem SameFor.symm {i : ℕ} {xs ys : List Message} (h : SameFor i xs ys) : SameFor i ys xs :=
  ⟨h.word.symm, h.stopAsync.symm, h.stopPuller.symm⟩

theorem SameFor.stops {i : ℕ} {xs ys : List Message} (h : SameFor i xs ys) :
    Stops i xs ↔ Stops i ys :=
  or_congr h.stopAsync h.stopPuller

theorem sameFor_append {i : ℕ} {ms : List Message} (h : ∀ m ∈ ms, m.ApartFrom i)
    (queue : List Message) : SameFor i (queue ++ ms) queue := by
  have hword : word i ms = [] := List.filterMap_eq_nil_iff.mpr fun m hm => (h m hm).ofTrack
  refine ⟨by rw [word_append, hword, List.append_nil], ?_, ?_⟩
  · have hnot : .task (.stopAsync i) ∉ ms := fun hm => (h _ hm).stopAsync rfl
    simp [hnot]
  · have hnot : .task (.stopPuller i) ∉ ms := fun hm => (h _ hm).stopPuller rfl
    simp [hnot]

theorem sameFor_prepend {i : ℕ} {ms : List Message} (h : ∀ m ∈ ms, m.ApartFrom i)
    (queue : List Message) : SameFor i (ms ++ queue) queue := by
  have hword : word i ms = [] := List.filterMap_eq_nil_iff.mpr fun m hm => (h m hm).ofTrack
  refine ⟨by rw [word_append, hword, List.nil_append], ?_, ?_⟩
  · have hnot : .task (.stopAsync i) ∉ ms := fun hm => (h _ hm).stopAsync rfl
    simp [hnot]
  · have hnot : .task (.stopPuller i) ∉ ms := fun hm => (h _ hm).stopPuller rfl
    simp [hnot]

theorem sameFor_cons {i : ℕ} {m : Message} (h : m.ApartFrom i) (queue : List Message) :
    SameFor i (m :: queue) queue :=
  @sameFor_prepend i [m] (List.forall_mem_singleton.mpr h) queue

/-- Messages that do not concern the track are removed. -/
theorem sameFor_filter {i : ℕ} {p : Message → Bool} (h : ∀ m, p m = false → m.ApartFrom i)
    (queue : List Message) : SameFor i (queue.filter p) queue := by
  have hkeeps : ∀ m, ¬ m.ApartFrom i → p m = true := by
    intro m hm
    by_contra hp
    exact hm (h m ((Bool.not_eq_true _).mp hp))
  refine ⟨?_, ?_, ?_⟩
  · rw [word, List.filterMap_filter]
    refine List.filterMap_congr fun m _ => ?_
    cases hp : p m with
    | true => rfl
    | false => exact (h m hp).ofTrack.symm
  · have hp := hkeeps (.task (.stopAsync i)) fun hm => hm.stopAsync rfl
    simp [List.mem_filter, hp]
  · have hp := hkeeps (.task (.stopPuller i)) fun hm => hm.stopPuller rfl
    simp [List.mem_filter, hp]

/-! ## Access units -/

/-- The numbers of the access units that `MediaSender` was given. -/
def sent (i : ℕ) (effects : List Effect) : List ℕ :=
  effects.filterMap fun
    | .queueAccessUnit j number => if j = i then some number else none
    | _ => none

theorem sent_append (i : ℕ) (xs ys : List Effect) : sent i (xs ++ ys) = sent i xs ++ sent i ys :=
  List.filterMap_append

theorem numbers_counted (ms : List TrackMessage) : numbers (counted ms) = numbers ms := by
  rw [numbers, counted, List.filterMap_filter]
  refine List.filterMap_congr fun m _ => ?_
  cases m <;> rfl

namespace State

/-- How often the session did something. -/
def count (s : State) (e : Effect) : ℕ := s.effects.count e

theorem count_log_self (s : State) (e : Effect) : (s.log e).count e = s.count e + 1 := by
  simp [count, log]

theorem count_log_of_ne (s : State) {e e' : Effect} (h : e ≠ e') :
    (s.log e).count e' = s.count e' := by
  simp [count, log, h]

/-- The access units that a codec has put out: `MediaSender` was given the first of them in their
order, and unless the session is dead the others wait in theirs, the last perhaps with the callback
that is at work. -/
structure Accounted (s : State) (i : ℕ) : Prop where
  all : s.mWeAreDead = false →
    sent i s.effects ++ numbers (word i s.queue ++ (s.slots i).notify.toList) =
      List.range (s.slots i).outputs
  first : sent i s.effects <+: List.range (s.slots i).outputs

/-- A track is at a stage; `called` is whether `destroyAsync` was. -/
structure TrackAt (called : Bool) (s : State) (i : ℕ) (stage : Stage) : Prop where
  at_ : (s.slots i).At (word i s.queue) stage
  fits : (s.slots i).Fits
  accounted : s.Accounted i
  told : called = true → stage.Told ∨ Stops i s.queue
  untold : called = false → ¬ Stops i s.queue
  shuts : .task (.stopPuller i) ∈ s.queue → (s.slots i).Shuts

/-- How far the session is with its start. -/
inductive Progress (s : State) (stage : ℕ → Stage) : Prop where
  | before (hstarting : s.starting = []) (hcount : s.count .WHAT_SESSION_ESTABLISHED = 0)
      (hidle : ∀ i < s.tracks, stage i = .idle)
  | during (i : ℕ) (rest : List ℕ) (hstarting : s.starting = i :: rest)
      (hcount : s.count .WHAT_SESSION_ESTABLISHED = 0) (hnodup : (i :: rest).Nodup)
      (hlt : i < s.tracks) (hstage : stage i = .starting)
      (hrest : ∀ j ∈ rest, j < s.tracks ∧ stage j = .idle)
      (hothers : ∀ j < s.tracks, j ∉ i :: rest → stage j = .running)
  | after (hstarting : s.starting = []) (hcount : s.count .WHAT_SESSION_ESTABLISHED = 1)
      (hstages : ∀ i < s.tracks, stage i = .running ∨ (stage i).Told)

/-- The session has a sender until its last track is gone, and then it is destroyed. -/
def SenderAt (s : State) (stage : ℕ → Stage) : Prop :=
  s.mMediaSender = true ∧ s.count .WHAT_SESSION_DESTROYED = 0 ∧ (∃ i, stage i ≠ .gone) ∨
    s.mMediaSender = false ∧ s.count .WHAT_SESSION_DESTROYED = 1 ∧ ∀ i, stage i = .gone

/-- The tracks are at their stages. -/
structure Orderly (called : Bool) (s : State) (stage : ℕ → Stage) : Prop where
  trackAt : ∀ i, s.TrackAt called i (stage i)
  beyond : ∀ i, s.tracks ≤ i → stage i = .gone
  progress : s.Progress stage
  established : called = true → s.count .WHAT_SESSION_ESTABLISHED = 1
  untold : called = false → ∀ i < s.tracks, ¬ (stage i).Told
  made : 0 < s.tracks ∧ ∀ i, s.mVideoTrackIndex = some i → i < s.tracks
  sender : s.SenderAt stage

variable {s t : State} {called : Bool} {stage : ℕ → Stage} {i : ℕ} {queue : List Message}

/-- The access units are the same. -/
theorem Accounted.of_numbers (h : s.Accounted i)
    (hnumbers : numbers (word i t.queue) = numbers (word i s.queue))
    (houtputs : (t.slots i).outputs = (s.slots i).outputs)
    (hnotify : (t.slots i).notify = (s.slots i).notify)
    (hsent : sent i t.effects = sent i s.effects)
    (hdead : s.mWeAreDead = true → t.mWeAreDead = true) : t.Accounted i := by
  refine ⟨fun halive => ?_, ?_⟩
  · have halive' : s.mWeAreDead = false := by
      cases hs : s.mWeAreDead with
      | false => rfl
      | true => exact absurd (hdead hs) (by simp [halive])
    rw [hsent, numbers_append, hnumbers, hnotify, ← numbers_append, houtputs]
    exact h.all halive'
  · rw [hsent, houtputs]
    exact h.first

/-- Access units are put out and posted. -/
theorem Accounted.update (h : s.Accounted i) {slot : Slot} {ms : List TrackMessage}
    (hslot : Slot.Conserves (s.slots i) slot ms)
    (hqueue : word i t.queue = word i s.queue ++ counted ms) (ht : t.slots i = slot)
    (hsent : sent i t.effects = sent i s.effects) (hdead : t.mWeAreDead = s.mWeAreDead) :
    t.Accounted i := by
  obtain ⟨new, hrange, hnew⟩ := hslot
  refine ⟨fun halive => ?_, ?_⟩
  · have hall := h.all (hdead.symm.trans halive)
    rw [hsent, hqueue, ht, hrange, ← hall]
    simp only [numbers_append, numbers_counted, List.append_assoc]
    rw [hnew]
  · rw [hsent, ht, hrange]
    exact h.first.trans (List.prefix_append _ _)

/-- Nothing changes for a track but what its slot has that is not of its stage. -/
theorem TrackAt.of_slot {stage : Stage} (h : s.TrackAt called i stage)
    (hat : ∀ {word}, (s.slots i).At word stage → (t.slots i).At word stage)
    (hfits : (s.slots i).Fits → (t.slots i).Fits) (hshuts : (s.slots i).Shuts → (t.slots i).Shuts)
    (houtputs : (t.slots i).outputs = (s.slots i).outputs)
    (hnotify : (t.slots i).notify = (s.slots i).notify) (hqueue : SameFor i t.queue s.queue)
    (hsent : sent i t.effects = sent i s.effects)
    (hdead : s.mWeAreDead = true → t.mWeAreDead = true) : t.TrackAt called i stage where
  at_ := hqueue.word ▸ hat h.at_
  fits := hfits h.fits
  accounted := h.accounted.of_numbers (congrArg numbers hqueue.word) houtputs hnotify hsent hdead
  told hcalled := (h.told hcalled).imp_right hqueue.stops.mpr
  untold hcalled := mt hqueue.stops.mp (h.untold hcalled)
  shuts hmem := hshuts (h.shuts (hqueue.stopPuller.mp hmem))

theorem TrackAt.of_eq {stage : Stage} (h : s.TrackAt called i stage)
    (hslot : t.slots i = s.slots i) (hqueue : SameFor i t.queue s.queue)
    (hsent : sent i t.effects = sent i s.effects)
    (hdead : s.mWeAreDead = true → t.mWeAreDead = true) : t.TrackAt called i stage := by
  refine h.of_slot ?_ ?_ ?_ (by rw [hslot]) (by rw [hslot]) hqueue hsent hdead
  · exact fun hat => by rwa [hslot]
  · exact fun hfits => by rwa [hslot]
  · exact fun hshuts => by rwa [hslot]

/-- The session is as far if the same was done of what counts for that. -/
theorem Progress.of_count (h : s.Progress stage) (hstarting : t.starting = s.starting)
    (htracks : t.tracks = s.tracks)
    (hcount : t.count .WHAT_SESSION_ESTABLISHED = s.count .WHAT_SESSION_ESTABLISHED) :
    t.Progress stage := by
  cases h with
  | before hs hc hidle => exact .before (hstarting.trans hs) (hcount.trans hc) (htracks ▸ hidle)
  | during i rest hs hc hnodup hlt hstage hrest hothers =>
      exact .during i rest (hstarting.trans hs) (hcount.trans hc) hnodup (htracks ▸ hlt) hstage
        (htracks ▸ hrest) (htracks ▸ hothers)
  | after hs hc hstages =>
      exact .after (hstarting.trans hs) (hcount.trans hc) (htracks ▸ hstages)

/-- Nothing changes for the tracks. -/
theorem Orderly.of_eq (h : s.Orderly called stage) (hslots : t.slots = s.slots)
    (hstarting : t.starting = s.starting) (htracks : t.tracks = s.tracks)
    (hvideo : t.mVideoTrackIndex = s.mVideoTrackIndex)
    (hsender : t.mMediaSender = s.mMediaSender) (hqueue : ∀ i, SameFor i t.queue s.queue)
    (hsent : ∀ i, sent i t.effects = sent i s.effects)
    (hestablished : t.count .WHAT_SESSION_ESTABLISHED = s.count .WHAT_SESSION_ESTABLISHED)
    (hdestroyed : t.count .WHAT_SESSION_DESTROYED = s.count .WHAT_SESSION_DESTROYED)
    (hdead : s.mWeAreDead = true → t.mWeAreDead = true) : t.Orderly called stage where
  trackAt i := (h.trackAt i).of_eq (by rw [hslots]) (hqueue i) (hsent i) hdead
  beyond i := by
    rw [htracks]
    exact h.beyond i
  progress := h.progress.of_count hstarting htracks hestablished
  established := by
    rw [hestablished]
    exact h.established
  untold := by
    rw [htracks]
    exact h.untold
  made := by
    rw [hvideo, htracks]
    exact h.made
  sender := by
    rw [SenderAt, hsender, hdestroyed]
    exact h.sender

/-- A track stays at its stage or gets to one of a track that was told to stop: it was before, or
the session is established. -/
theorem Progress.update (h : s.Progress stage) {next : Stage}
    (hnext : next = stage i ∨
      next.Told ∧ ((stage i).Told ∨ s.count .WHAT_SESSION_ESTABLISHED = 1)) :
    s.Progress (Function.update stage i next) := by
  obtain rfl | ⟨htold, hbefore⟩ := hnext
  · rwa [Function.update_eq_self]
  have hne : ∀ {j : ℕ} {a : Stage}, s.count .WHAT_SESSION_ESTABLISHED = 0 → ¬ a.Told →
      stage j = a → Function.update stage i next j = a := by
    rintro j _ hcount ha rfl
    by_cases hj : j = i
    · subst hj
      obtain hbefore | hestablished := hbefore
      · exact absurd hbefore ha
      · simp [hcount] at hestablished
    · exact Function.update_of_ne hj _ _
  cases h with
  | before hs hcount hidle =>
      exact .before hs hcount fun j hj => hne hcount (by simp [Stage.Told]) (hidle j hj)
  | during j rest hs hcount hnodup hlt hstage hrest hothers =>
      refine .during j rest hs hcount hnodup hlt (hne hcount (by simp [Stage.Told]) hstage) ?_ ?_
      · exact fun k hk => ⟨(hrest k hk).1, hne hcount (by simp [Stage.Told]) (hrest k hk).2⟩
      · exact fun k hk hnot => hne hcount (by simp [Stage.Told]) (hothers k hk hnot)
  | after hs hcount hstages =>
      refine .after hs hcount fun j hj => ?_
      by_cases hji : j = i
      · subst hji
        rw [Function.update_self]
        exact .inr htold
      · rw [Function.update_of_ne hji]
        exact hstages j hj

/-- No track goes. -/
theorem SenderAt.update (h : s.SenderAt stage) {next : Stage}
    (hgone : stage i = .gone ↔ next = .gone) : s.SenderAt (Function.update stage i next) := by
  have hgone : ∀ j, stage j = .gone ↔ Function.update stage i next j = .gone := by
    intro j
    by_cases hj : j = i
    · subst hj
      rwa [Function.update_self]
    · rw [Function.update_of_ne hj]
  refine h.imp ?_ ?_
  · rintro ⟨hsender, hcount, j, hj⟩
    exact ⟨hsender, hcount, j, mt (hgone j).mpr hj⟩
  · rintro ⟨hsender, hcount, hall⟩
    exact ⟨hsender, hcount, fun j => (hgone j).mp (hall j)⟩

/-- One track changes. -/
theorem Orderly.changed (h : s.Orderly called stage) {next : Stage}
    (hself : t.TrackAt called i next) (hothers : ∀ j ≠ i, t.TrackAt called j (stage j))
    (hstarting : t.starting = s.starting) (htracks : t.tracks = s.tracks)
    (hvideo : t.mVideoTrackIndex = s.mVideoTrackIndex)
    (hestablished : t.count .WHAT_SESSION_ESTABLISHED = s.count .WHAT_SESSION_ESTABLISHED)
    (hnext : next = stage i ∨ next.Told ∧ ((stage i).Told ∨ called = true))
    (hgone : stage i = .gone → next = .gone)
    (hsender : t.SenderAt (Function.update stage i next)) :
    t.Orderly called (Function.update stage i next) := by
  have hprogress : s.Progress (Function.update stage i next) := by
    refine h.progress.update (hnext.imp_right (And.imp_right (Or.imp_right ?_)))
    exact h.established
  refine ⟨?_, ?_, hprogress.of_count hstarting htracks hestablished, ?_, ?_, ?_, hsender⟩
  · intro j
    by_cases hj : j = i
    · subst hj
      rwa [Function.update_self]
    · rw [Function.update_of_ne hj]
      exact hothers j hj
  · intro j hj
    rw [htracks] at hj
    by_cases hji : j = i
    · subst hji
      rw [Function.update_self, hgone (h.beyond j hj)]
    · rw [Function.update_of_ne hji]
      exact h.beyond j hj
  · rw [hestablished]
    exact h.established
  · intro hcalled j hj
    rw [htracks] at hj
    have huntold := h.untold hcalled j hj
    by_cases hji : j = i
    · subst hji
      rw [Function.update_self]
      obtain rfl | ⟨-, htold | htold⟩ := hnext
      · exact huntold
      · exact absurd htold huntold
      · simp [hcalled] at htold
    · rwa [Function.update_of_ne hji]
  · rw [hvideo, htracks]
    exact h.made

/-- One slot changes and with it the queue, and no track goes. -/
theorem Orderly.change (h : s.Orderly called stage) {slot : Slot} {next : Stage}
    (hqueue : ∀ j ≠ i, SameFor j queue s.queue)
    (hself : { s with slots := Function.update s.slots i slot, queue }.TrackAt called i next)
    (hnext : next = stage i ∨ next.Told ∧ ((stage i).Told ∨ called = true))
    (hgone : stage i = .gone ↔ next = .gone) :
    { s with slots := Function.update s.slots i slot, queue }.Orderly called
      (Function.update stage i next) := by
  refine h.changed hself ?_ rfl rfl rfl rfl hnext hgone.mp (h.sender.update hgone)
  intro j hj
  exact (h.trackAt j).of_eq (Function.update_of_ne hj _ _) (hqueue j hj) rfl id

/-- One slot changes, but not in what its stage says. -/
theorem Orderly.change_mild (h : s.Orderly called stage) {slot : Slot}
    (hslot : Slot.Mild (s.slots i) slot) (hqueue : ∀ j, SameFor j queue s.queue) :
    { s with slots := Function.update s.slots i slot, queue }.Orderly called stage := by
  have hself : { s with slots := Function.update s.slots i slot, queue }.TrackAt called i
      (stage i) := by
    refine (h.trackAt i).of_slot ?_ ?_ ?_ ?_ ?_ (hqueue i) rfl id
    · intro word hat
      simpa using hslot.at_ hat
    · simpa using hslot.fits
    · simpa using hslot.shuts
    · simpa using hslot.outputs
    · simpa using hslot.notify
  have hchange := h.change (fun j _ => hqueue j) hself (.inl rfl) .rfl
  rwa [Function.update_eq_self] at hchange

/-! ## The threads of a track -/

/-- A thread changes its slot and posts something. -/
theorem Orderly.update (h : s.Orderly called stage) {thread : Thread} {slot : Slot}
    {ms : List TrackMessage} {next : Stage} (hat : slot.At (word i s.queue ++ counted ms) next)
    (hfits : slot.Fits) (hshuts : (s.slots i).Shuts → slot.Shuts)
    (hconserves : Slot.Conserves (s.slots i) slot ms)
    (hnext : next = stage i ∨ next.Told ∧ (stage i).Told) (hgone : stage i = .gone ↔ next = .gone) :
    (s.update thread i (.ok (slot, ms))).Orderly called (Function.update stage i next) := by
  have hword : word i (s.queue ++ ms.map (.track i)) = word i s.queue ++ counted ms := by
    rw [word_append, word_map_self]
  have hself := h.trackAt i
  refine h.change ?_ ⟨?_, ?_, ?_, ?_, ?_, ?_⟩ (hnext.imp_right (And.imp_right .inl)) hgone
  · intro j hj
    refine sameFor_append ?_ s.queue
    intro m hm
    obtain ⟨tm, -, rfl⟩ := List.mem_map.mp hm
    exact apartFrom_track_of_ne (Ne.symm hj) tm
  · simpa [hword] using hat
  · simpa using hfits
  · exact hself.accounted.update hconserves hword (Function.update_self ..) rfl rfl
  · intro hcalled
    obtain rfl | ⟨htold, -⟩ := hnext
    · simpa [Stops] using hself.told hcalled
    · exact .inl htold
  · intro hcalled
    simpa [Stops] using hself.untold hcalled
  · intro hmem
    simpa using hshuts (hself.shuts (by simpa using hmem))

theorem netWord_map_track (isRTP : Bool) (i : ℕ) (ms : List TrackMessage) :
    netWord isRTP (ms.map (.track i)) = [] :=
  netWord_eq_nil (by simp) isRTP

theorem countP_map_track (i : ℕ) (ms : List TrackMessage) :
    (ms.map (Message.track i)).countP isInitOK = 0 := by
  refine List.countP_eq_zero.mpr fun m hm => ?_
  obtain ⟨tm, -, rfl⟩ := List.mem_map.mp hm
  simp [isInitOK]

theorem Handshake.update (h : s.Handshake) {thread : Thread} {slot : Slot}
    {ms : List TrackMessage} : (s.update thread i (.ok (slot, ms))).Handshake := by
  refine h.of_eq rfl rfl ?_ ?_
  · intro isRTP
    change netWord isRTP (s.queue ++ ms.map (.track i)) = _
    rw [netWord_append, netWord_map_track, List.append_nil]
  · change (s.queue ++ ms.map (Message.track i)).countP isInitOK + s.begun.toNat ≤ _
    rw [List.countP_append, countP_map_track, Nat.add_zero]

/-- What holds of a session in every run. -/
def Sound (called : Bool) (s : State) : Prop :=
  ∃ stage, s.Orderly called stage ∧ s.Handshake

/-- The threads of a track keep the session sound as long as they do not throw. -/
theorem Sound.puller (h : s.Sound called) {pulled : Pulled} {slot : Slot}
    {ms : List TrackMessage} (hrun : (s.slots i).runPuller pulled = .ok (slot, ms)) :
    (s.update (.puller i) i (.ok (slot, ms))).Sound called := by
  obtain ⟨stage, horderly, hhandshake⟩ := h
  have hself := horderly.trackAt i
  obtain ⟨hkept, ⟨rfl, hat⟩ | ⟨hstage, rfl, hat⟩⟩ := hself.at_.runPuller hself.fits hrun
  · refine ⟨_, horderly.update ?_ hkept.fits hkept.shuts (hkept.conserves rfl) (.inl rfl) .rfl,
      hhandshake.update⟩
    simpa [counted] using hat
  · refine ⟨_, horderly.update hat hkept.fits hkept.shuts (hkept.conserves rfl) (.inr ?_)
      (by simp [hstage]), hhandshake.update⟩
    simp [hstage, Stage.Told]

theorem Sound.converter (h : s.Sound called) {slot : Slot} {ms : List TrackMessage}
    (hrun : (s.slots i).runConverter = .ok (slot, ms)) :
    (s.update (.converter i) i (.ok (slot, ms))).Sound called := by
  obtain ⟨stage, horderly, hhandshake⟩ := h
  have hself := horderly.trackAt i
  obtain ⟨hkept, hms, hat⟩ := hself.at_.runConverter hself.fits hrun
  have hnumbers : numbers ms = [] := by
    rw [← numbers_counted, hms]
    rfl
  refine ⟨_, horderly.update ?_ hkept.fits hkept.shuts (hkept.conserves hnumbers) (.inl rfl) .rfl,
    hhandshake.update⟩
  rwa [hms, List.append_nil]

theorem Sound.output (h : s.Sound called) {o : Output} {slot : Slot} {ms : List TrackMessage}
    (ho : o ≠ .endOfStream) (hrun : (s.slots i).output o = .ok (slot, ms)) :
    (s.update (.output i) i (.ok (slot, ms))).Sound called := by
  obtain ⟨stage, horderly, hhandshake⟩ := h
  have hself := horderly.trackAt i
  obtain ⟨hfits, hshuts, hconserves, hunits, hat⟩ := hself.at_.output hself.fits ho hrun
  have hcounted : counted ms = ms := by
    refine List.filter_eq_self.mpr fun m hm => ?_
    obtain ⟨number, rfl⟩ := hunits m hm
    rfl
  exact ⟨_, horderly.update (hcounted.symm ▸ hat) hfits hshuts hconserves (.inl rfl) .rfl,
    hhandshake.update⟩

/-! ## What the session does to its tracks -/

/-- What the session still has to do stops no track. -/
theorem Orderly.todo (h : s.Orderly called stage) {tasks : List Task}
    (htasks : ∀ task ∈ tasks, ¬ task.IsStop) : (s.todo tasks).Orderly called stage := by
  refine h.of_eq rfl rfl rfl rfl rfl (fun i => sameFor_prepend ?_ s.queue) (fun _ => rfl) rfl rfl id
  intro m hm
  obtain ⟨task, htask, rfl⟩ := List.mem_map.mp hm
  refine Message.Apart.apartFrom ⟨by simp, ?_⟩ i
  rintro _ ⟨⟩
  exact htasks task htask

/-- The tracks were started and are to be stopped. -/
theorem Orderly.stopAsync (h : s.Orderly called stage)
    (hestablished : s.count .WHAT_SESSION_ESTABLISHED = 1) :
    (s.forTracks .stopAsync).Orderly true stage := by
  have hword : ∀ i, word i (s.forTracks .stopAsync).queue = word i s.queue := by
    intro i
    refine (word_append _ _ _).trans ?_
    have hnil : word i (((List.range s.tracks).map Task.stopAsync).map .task) = [] := by
      refine List.filterMap_eq_nil_iff.mpr fun m hm => ?_
      obtain ⟨task, -, rfl⟩ := List.mem_map.mp hm
      rfl
    rw [hnil, List.nil_append]
  have hpuller : ∀ i, .task (.stopPuller i) ∈ (s.forTracks .stopAsync).queue ↔
      .task (.stopPuller i) ∈ s.queue := by
    intro i
    simp [forTracks, State.todo]
  refine ⟨?_, h.beyond, h.progress.of_count rfl rfl rfl, fun _ => hestablished, by simp, h.made,
    h.sender⟩
  intro i
  have hself := h.trackAt i
  refine ⟨hword i ▸ hself.at_, hself.fits, ?_, ?_, by simp, fun hmem =>
    hself.shuts ((hpuller i).mp hmem)⟩
  · exact hself.accounted.of_numbers (congrArg numbers (hword i)) rfl rfl rfl id
  · intro _
    by_cases hi : i < s.tracks
    · exact .inr (.inl (by simp [forTracks, State.todo, hi]))
    · exact .inl (by simp [h.beyond i (Nat.le_of_not_lt hi), Stage.Told])

/-! ## The start of the tracks -/

theorem begun_of_count (h : s.count .WHAT_SESSION_ESTABLISHED = 1) : s.begun = true := by
  have hmem : .WHAT_SESSION_ESTABLISHED ∈ s.effects :=
    List.count_pos_iff.mp (Nat.lt_of_lt_of_eq Nat.one_pos h.symm)
  simp [State.begun, hmem]

/-- The puller of a track is told to start. -/
theorem TrackAt.start (h : s.TrackAt false i .idle) :
    (s.setSlot i ((s.slots i).postPuller .WHAT_START)).TrackAt false i .starting := by
  refine ⟨?_, ?_, h.accounted.of_numbers rfl ?_ ?_ rfl id, by simp, h.untold, ?_⟩
  · simpa [setSlot] using h.at_.start
  · simpa [setSlot] using h.fits.postPuller .WHAT_START
  · simp [setSlot, Slot.postPuller]
  · simp [setSlot, Slot.postPuller]
  · intro hmem
    exact absurd (.inr hmem) (h.untold rfl)

/-- The tracks of `starting` are idle, all others run: the first of them is started, or the
session is established. -/
theorem startNext_spec (htrackAt : ∀ i, s.TrackAt false i (stage i))
    (hbeyond : ∀ i, s.tracks ≤ i → stage i = .gone)
    (hcount : s.count .WHAT_SESSION_ESTABLISHED = 0) (hnodup : s.starting.Nodup)
    (hidle : ∀ j ∈ s.starting, j < s.tracks ∧ stage j = .idle)
    (hothers : ∀ j < s.tracks, j ∉ s.starting → stage j = .running)
    (hmade : 0 < s.tracks ∧ ∀ i, s.mVideoTrackIndex = some i → i < s.tracks)
    (hsender : s.SenderAt stage) :
    s.startNext.begun = true ∧ (∃ next, s.startNext.Orderly false next) ∧
      s.startNext.queue = s.queue ∧ s.startNext.rtp = s.rtp ∧ s.startNext.rtcp = s.rtcp := by
  unfold State.startNext
  split
  · rename_i hstarting
    have hestablished : (s.log .WHAT_SESSION_ESTABLISHED).count .WHAT_SESSION_ESTABLISHED = 1 := by
      rw [count_log_self, hcount]
    have hsent : ∀ i, sent i (s.log .WHAT_SESSION_ESTABLISHED).effects = sent i s.effects := by
      intro i
      exact (sent_append _ _ _).trans (List.append_nil _)
    have hrunning : ∀ j < s.tracks, stage j = .running := by
      intro j hj
      refine hothers j hj ?_
      rw [hstarting]
      exact List.not_mem_nil
    refine ⟨begun_of_count hestablished, ⟨stage, ?_, hbeyond, ?_, by simp, ?_, hmade, ?_⟩, rfl, rfl,
      rfl⟩
    · exact fun i => (htrackAt i).of_eq rfl (.refl i s.queue) (hsent i) id
    · exact .after hstarting hestablished fun j hj => .inl (hrunning j hj)
    · intro _ j hj
      rw [hrunning j hj]
      simp [Stage.Told]
    · rw [SenderAt, count_log_of_ne s (by decide)]
      exact hsender
  · rename_i i rest hstarting
    rw [hstarting] at hidle hothers hnodup
    obtain ⟨hlt, hi⟩ := hidle i List.mem_cons_self
    have hself := htrackAt i
    rw [hi] at hself
    have htrack : (s.slots i).track = some ⟨⟨!(s.slots i).isVideo, true⟩, false⟩ := hself.at_.1
    rw [htrack]
    dsimp only
    rw [if_neg (by simp)]
    have hbegun : (s.setSlot i ((s.slots i).postPuller .WHAT_START)).begun = true := by
      simp [State.begun, State.setSlot, hstarting]
    have hne : ∀ j ∈ rest, j ≠ i := by
      rintro j hj rfl
      exact (List.nodup_cons.mp hnodup).1 hj
    refine ⟨hbegun, ⟨Function.update stage i .starting, ?_, ?_, ?_, by simp, ?_, hmade, ?_⟩, rfl,
      rfl, rfl⟩
    · intro j
      by_cases hj : j = i
      · subst hj
        rw [Function.update_self]
        exact hself.start
      · rw [Function.update_of_ne hj]
        exact (htrackAt j).of_eq (Function.update_of_ne hj _ _) (.refl j s.queue) rfl id
    · intro j hj
      have hji : j ≠ i := by
        rintro rfl
        exact absurd hlt (Nat.not_lt.mpr hj)
      rw [Function.update_of_ne hji]
      exact hbeyond j hj
    · refine .during i rest hstarting hcount hnodup hlt (Function.update_self ..) ?_ ?_
      · intro j hj
        rw [Function.update_of_ne (hne j hj)]
        exact hidle j (List.mem_cons_of_mem _ hj)
      · intro j hj hnot
        have hji : j ≠ i := by
          rintro rfl
          exact hnot List.mem_cons_self
        rw [Function.update_of_ne hji]
        exact hothers j hj hnot
    · intro _ j hj
      by_cases hji : j = i
      · subst hji
        simp [Stage.Told]
      rw [Function.update_of_ne hji]
      by_cases hmem : j ∈ i :: rest
      · rw [(hidle j hmem).2]
        simp [Stage.Told]
      · rw [hothers j hj hmem]
        simp [Stage.Told]
    · refine hsender.update ?_
      rw [hi]
      exact iff_of_false (by simp) (by simp)

end State

end MirrorCast.PlaybackSession.Mirroring
