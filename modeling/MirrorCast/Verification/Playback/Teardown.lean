import MirrorCast.Verification.Playback.Messages

/-! # The end of a session -/

namespace MirrorCast.PlaybackSession.Mirroring

open Java RTPBase
open ANetworkSession (OK)

namespace State

variable {s t : State} {called : Bool} {stage : ℕ → Stage} {i : ℕ} {event : Event}

/-! ## Steps -/

/-- The threads are those of the tracks, no codec reaches the end of its stream, an error of the
network is one, and a session is told to end only once it is established, between two messages. -/
def allows (s : State) : Event → Bool
  | .puller i _ => i < s.tracks
  | .converter i => i < s.tracks
  | .output i o => i < s.tracks && o ≠ .endOfStream
  | .call c => c ≠ .destroyAsync || !s.busy && .WHAT_SESSION_ESTABLISHED ∈ s.effects
  | .net _ (.WHAT_ERROR err) => err ≠ OK
  | _ => true

theorem Sound.runMain (h : s.Sound called) (queued : Queued) :
    Handled called (s.runMain queued) := by
  unfold State.runMain
  split
  · rename_i i rest hstarting
    split
    · exact (h.resumed hstarting).handled
    · exact h.handled
  · rename_i hstarting
    split
    · exact h.handled
    · rename_i m queue hqueue
      obtain ⟨stage, horderly, hhandshake⟩ := h
      have hhandling : Handling called s stage m queue := ⟨hstarting, hqueue, horderly, hhandshake⟩
      exact hhandling.onMessageReceived queued

/-- `destroyAsync` was called, now or before. -/
def calledAfter (called : Bool) (event : Event) : Bool := called || event = .call .destroyAsync

theorem calledAfter_of_ne (h : event ≠ .call .destroyAsync) : calledAfter called event = called := by
  simp [calledAfter, h]

theorem count_established (h : s.Orderly called stage) :
    s.count .WHAT_SESSION_ESTABLISHED ≤ 1 := by
  cases h.progress with
  | before hs hcount hidle => omega
  | during i rest hs hcount hnodup hlt hstage hrest hothers => omega
  | after hs hcount hstages => omega

/-- What `WifiDisplaySource` calls between two messages keeps the session sound. -/
theorem Sound.call (h : s.Sound called) {c : Call} (hallowed : s.allows (.call c) = true) :
    (s.call c).Sound (calledAfter called (.call c)) := by
  cases c with
  | destroyAsync =>
      obtain ⟨stage, horderly, hhandshake⟩ := h
      have hmem : .WHAT_SESSION_ESTABLISHED ∈ s.effects := by
        simp only [allows, ne_eq, not_true_eq_false, decide_false, Bool.false_or, Bool.and_eq_true,
          decide_eq_true_eq] at hallowed
        exact hallowed.2
      have hcount : s.count .WHAT_SESSION_ESTABLISHED = 1 :=
        Nat.le_antisymm (count_established horderly) (List.count_pos_iff.mpr hmem)
      have hcalled : calledAfter called (.call .destroyAsync) = true := by simp [calledAfter]
      rw [hcalled]
      exact ⟨stage, horderly.stopAsync hcount, hhandshake.todo _⟩
  | play =>
      rw [calledAfter_of_ne (by simp)]
      exact h.post ⟨by simp, rfl⟩ ⟨by simp, by simp⟩
  | pause =>
      rw [calledAfter_of_ne (by simp)]
      exact h.post ⟨by simp, rfl⟩ ⟨by simp, by simp⟩
  | requestIDRFrame =>
      rw [calledAfter_of_ne (by simp)]
      refine h.todo fun task htask => ?_
      obtain ⟨i, -, rfl⟩ := List.mem_map.mp htask
      exact id

theorem Sound.notified (h : s.Sound called) {isRTP : Bool} {n : NetNotification}
    (hallowed : s.allows (.net isRTP n) = true) : (s.notified isRTP n).Sound called := by
  obtain ⟨stage, horderly, hhandshake⟩ := h
  have herr : ∀ err, n = .WHAT_ERROR err → err ≠ OK := by
    rintro err rfl
    simpa [allows] using hallowed
  obtain ⟨hhandshake, hbeside⟩ := @Handshake.notified s isRTP n hhandshake herr
  exact ⟨stage, horderly.of_beside hbeside, hhandshake⟩

/-- What a step does that throws nothing. -/
theorem Sound.next (h : s.Sound called) (hallowed : s.allows event = true) :
    Handled (calledAfter called event) (s.next event) := by
  cases event with
  | main queued =>
      rw [calledAfter_of_ne (by simp)]
      exact h.runMain queued
  | puller i pulled =>
      rw [calledAfter_of_ne (by simp)]
      unfold State.next
      dsimp only
      cases hrun : (s.slots i).runPuller pulled with
      | error e => exact handled_throw
      | ok r => exact (h.puller hrun).handled
  | converter i =>
      rw [calledAfter_of_ne (by simp)]
      unfold State.next
      dsimp only
      cases hrun : (s.slots i).runConverter with
      | error e => exact handled_throw
      | ok r => exact (h.converter hrun).handled
  | output i o =>
      rw [calledAfter_of_ne (by simp)]
      have ho : o ≠ .endOfStream := by
        simp only [allows, Bool.and_eq_true, decide_eq_true_eq] at hallowed
        exact hallowed.2
      unfold State.next
      dsimp only
      cases hrun : (s.slots i).output o with
      | error e => exact handled_throw
      | ok r => exact (h.output ho hrun).handled
  | call c =>
      unfold State.next
      dsimp only
      split
      · rename_i hbusy
        have hc : c ≠ .destroyAsync := by
          rintro rfl
          simp [allows, hbusy] at hallowed
        rw [calledAfter_of_ne (by simp [hc])]
        exact h.handled
      · exact (h.call hallowed).handled
  | net isRTP n =>
      rw [calledAfter_of_ne (by simp)]
      exact (h.notified hallowed).handled
  | fails thread e => exact handled_throw

/-! ## Runs -/

/-- A session that was made with tracks, for a transport that `RTPSender` takes. -/
theorem sound_new {mIsAudio : List Bool} {rtpMode rtcpMode : TransportMode} (htracks : mIsAudio ≠ [])
    (hrtp : rtpMode = .TRANSPORT_UDP ∨ rtpMode = .TRANSPORT_TCP)
    (hrtcp : rtcpMode = .TRANSPORT_NONE ∨ rtcpMode = .TRANSPORT_UDP ∨ rtcpMode = .TRANSPORT_TCP) :
    (new mIsAudio rtpMode rtcpMode).Sound false := by
  have hword : ∀ i, word i (new mIsAudio rtpMode rtcpMode).queue = [] := by
    intro i
    simp only [State.new]
    split <;> rfl
  have hstops : ∀ task, .task task ∉ (new mIsAudio rtpMode rtcpMode).queue := by
    intro task
    simp only [State.new]
    split <;> simp
  have hpos : 0 < mIsAudio.length := List.length_pos_iff.mpr htracks
  refine ⟨fun i => if i < mIsAudio.length then .idle else .gone,
    ⟨?_, ?_, .before rfl rfl ?_, by simp, ?_, ⟨hpos, ?_⟩, .inl ⟨rfl, rfl, 0, by simp [hpos]⟩⟩,
    handshake_new hrtp hrtcp⟩
  · intro i
    have houtputs : ((new mIsAudio rtpMode rtcpMode).slots i).outputs = 0 ∧
        ((new mIsAudio rtpMode rtcpMode).slots i).notify = none := by
      simp only [State.new]
      cases mIsAudio[i]? <;> exact ⟨rfl, rfl⟩
    refine ⟨?_, ?_, ⟨fun _ => ?_, ?_⟩, by simp, ?_, fun hmem => absurd hmem (hstops _)⟩
    · rw [hword]
      simp only [State.new]
      split
      · rename_i hlt
        rw [List.getElem?_eq_getElem hlt]
        exact Slot.at_new _
      · rename_i hge
        rw [List.getElem?_eq_none (Nat.not_lt.mp hge)]
        exact Slot.at_unused
    · simp only [State.new]
      cases mIsAudio[i]? with
      | none => exact Slot.fits_unused
      | some isAudio => exact Slot.fits_new isAudio
    · rw [hword, houtputs.1, houtputs.2]
      rfl
    · rw [houtputs.1]
      exact List.nil_prefix
    · exact fun _ hmem => hmem.elim (hstops _) (hstops _)
  · intro i hi
    exact if_neg (Nat.not_lt.mpr hi)
  · exact fun i hi => if_pos hi
  · intro _ i hi
    have hlt : i < mIsAudio.length := hi
    simp [hlt, Stage.Told]
  · intro i hi
    have hmem := List.mem_of_find?_eq_some hi
    have hlt : i < mIsAudio.length := by simpa using hmem
    exact hlt

/-- The states of a session, with whether `destroyAsync` was called. -/
inductive Reachable : Bool → State → Prop
  | new {mIsAudio : List Bool} {rtpMode rtcpMode : TransportMode} (htracks : mIsAudio ≠ [])
      (hrtp : rtpMode = .TRANSPORT_UDP ∨ rtpMode = .TRANSPORT_TCP)
      (hrtcp : rtcpMode = .TRANSPORT_NONE ∨ rtcpMode = .TRANSPORT_UDP ∨
        rtcpMode = .TRANSPORT_TCP) : Reachable false (State.new mIsAudio rtpMode rtcpMode)
  | step {called : Bool} {s : State} (event : Event) (h : Reachable called s)
      (hallowed : s.allows event = true) : Reachable (calledAfter called event) (s.step event)

/-- Events one after the other. -/
def run (s : State) (events : List Event) : State := events.foldl step s

def allowsAll : State → List Event → Bool
  | _, [] => true
  | s, event :: events => s.allows event && (s.step event).allowsAll events

theorem Reachable.run {events : List Event} (h : Reachable called s)
    (hallowed : s.allowsAll events = true) :
    Reachable (events.foldl calledAfter called) (s.run events) := by
  induction events generalizing called s with
  | nil => exact h
  | cons event events ih =>
      obtain ⟨hevent, hevents⟩ := (Bool.and_eq_true _ _).mp hallowed
      exact ih (.step event h hevent) hevents

/-- A session is sound as long as the process runs. -/
theorem Reachable.sound (h : Reachable called s) (halive : s.exception = none) :
    s.Sound called := by
  induction h with
  | new htracks hrtp hrtcp => exact sound_new htracks hrtp hrtcp
  | @step called s event h hallowed ih =>
      unfold State.step at halive ⊢
      by_cases hbefore : s.exception = none
      · rw [if_neg (by simp [hbefore])] at halive ⊢
        exact (ih hbefore).next hallowed halive
      · rw [if_pos (Option.isSome_iff_ne_none.mpr hbefore)] at halive
        exact absurd halive hbefore

/-! ## The end -/

end State

/-- The track is gone, its puller has quit and its encoder was released. -/
structure Slot.Ended (slot : Slot) : Prop where
  track : slot.track = none
  puller : slot.puller = Looper.new.quit
  released : slot.released = true

namespace State

variable {s : State} {called : Bool} {stage : ℕ → Stage} {i : ℕ} {event : Event}

theorem ofTrack_self {tm : TrackMessage} (h : tm ≠ .WHAT_SHUTDOWN_COMPLETED) :
    (Message.track i tm).ofTrack i = some tm := by
  simp [Message.ofTrack, h]

/-- Of a track that is gone `MediaSender` got all access units but at most the last. -/
theorem TrackAt.outputs_le (h : s.TrackAt called i .gone) (halive : s.mWeAreDead = false) :
    (s.slots i).outputs ≤ (sent i s.effects).length + 1 := by
  have hall := congrArg List.length (h.accounted.all halive)
  have hfew := h.at_.2.2.2.2
  have hnotify : (numbers (s.slots i).notify.toList).length ≤
      (s.slots i).notify.toList.length := List.length_filterMap_le _ _
  rw [Slot.Late] at hfew
  simp only [numbers_append, List.length_append, List.length_range] at hall
  omega

/-- A session is established at most once and destroyed at most once, and `MediaSender` is given the
access units of a codec in their order. A session that is destroyed was established and told to
end: its tracks are gone, their pullers and their converters have quit or will, and only the last
access unit of a codec may not have got to `MediaSender`, if the session is not dead. -/
theorem ended_of_destroyed (h : Reachable called s) (halive : s.exception = none) :
    s.count .WHAT_SESSION_ESTABLISHED ≤ 1 ∧ s.count .WHAT_SESSION_DESTROYED ≤ 1 ∧
      (∀ i, sent i s.effects <+: List.range (s.slots i).outputs) ∧
      (.WHAT_SESSION_DESTROYED ∈ s.effects →
        .WHAT_SESSION_ESTABLISHED ∈ s.effects ∧ called = true ∧
          ∀ i, (s.slots i).track = none ∧ (s.slots i).Ceased ∧ (s.slots i).Shuts ∧
            (∀ tm, .track i tm ∈ s.queue → tm = .WHAT_SHUTDOWN_COMPLETED ∨ tm.IsUnit) ∧
            (s.mWeAreDead = false → (s.slots i).outputs ≤ (sent i s.effects).length + 1)) := by
  obtain ⟨stage, horderly, -⟩ := h.sound halive
  refine ⟨count_established horderly, ?_, fun i => (horderly.trackAt i).accounted.first, ?_⟩
  · obtain ⟨-, hcount, -⟩ | ⟨-, hcount, -⟩ := horderly.sender
    · omega
    · exact hcount.le
  intro hmem
  have hgone : ∀ i, stage i = .gone := by
    obtain ⟨-, hcount, -⟩ | ⟨-, -, hgone⟩ := horderly.sender
    · exact absurd hmem (List.count_eq_zero.mp hcount)
    · exact hgone
  have hcalled : called = true := by
    by_contra hnot
    have huntold := horderly.untold ((Bool.not_eq_true _).mp hnot) 0 horderly.made.1
    simp [hgone, Stage.Told] at huntold
  refine ⟨?_, hcalled, fun i => ?_⟩
  · exact List.count_pos_iff.mp (Nat.lt_of_lt_of_eq Nat.one_pos (horderly.established hcalled).symm)
  have hself := horderly.trackAt i
  rw [hgone i] at hself
  obtain ⟨hnone, hceased, hshuts, hunits, -⟩ := hself.at_
  refine ⟨hnone, hceased, hshuts, fun tm htm => ?_, hself.outputs_le⟩
  by_cases hne : tm = .WHAT_SHUTDOWN_COMPLETED
  · exact .inl hne
  · exact .inr (hunits tm (List.mem_filterMap.mpr ⟨_, htm, ofTrack_self hne⟩))

/-- A session with a track of video over UDP whose codec has put out its first access unit, which
the callback has yet to post. -/
def firstUnit : List Event :=
  [.main ⟨false, OK⟩, .main ⟨false, OK⟩, .puller 0 .data, .puller 0 .data, .main ⟨false, OK⟩,
    .puller 0 .data, .puller 0 .data, .puller 0 .data, .converter 0, .converter 0,
    .output 0 .accessUnit]

/-- It is told to end, and its track ends. -/
def teardown : List Event :=
  [.call .destroyAsync, .main ⟨false, OK⟩, .main ⟨false, OK⟩, .converter 0, .converter 0,
    .converter 0, .converter 0, .puller 0 .data, .puller 0 .data, .puller 0 .data, .puller 0 .data,
    .main ⟨false, OK⟩, .main ⟨false, OK⟩, .main ⟨false, OK⟩]

/-- The access unit is posted when the session is destroyed. -/
def lateUnit : List Event := firstUnit ++ teardown ++ [.output 0 .accessUnit]

theorem reachable_lateUnit :
    Reachable true ((new [false] .TRANSPORT_UDP .TRANSPORT_NONE).run lateUnit) :=
  (Reachable.new (by simp) (.inl rfl) (.inl rfl)).run (by decide : allowsAll _ lateUnit = true)

theorem ended_of_destroyed_lateUnit :
    (((new [false] .TRANSPORT_UDP .TRANSPORT_NONE).run lateUnit).slots 0).track = none ∧
      (((new [false] .TRANSPORT_UDP .TRANSPORT_NONE).run lateUnit).slots 0).outputs ≤
        (sent 0 ((new [false] .TRANSPORT_UDP .TRANSPORT_NONE).run lateUnit).effects).length + 1 :=
  have hended := (ended_of_destroyed reachable_lateUnit (by decide)).2.2.2 (by decide)
  ⟨(hended.2.2 0).1, (hended.2.2 0).2.2.2.2 (by decide)⟩

/-- `MediaSender` does not get it. -/
example : sent 0 ((new [false] .TRANSPORT_UDP .TRANSPORT_NONE).run lateUnit).effects = [] ∧
    .track 0 (.WHAT_ACCESS_UNIT 0) ∈
      ((new [false] .TRANSPORT_UDP .TRANSPORT_NONE).run lateUnit).queue := by
  decide

/-- When no looper has a message left, none waits for a response that is not there; and if
`destroyAsync` was called the session is destroyed, its tracks have ended and their converters
have quit. -/
theorem destroyed_of_quiet (h : Reachable called s) (halive : s.exception = none)
    (hqueue : s.queue = [])
    (hthreads : ∀ i < s.tracks,
      (s.slots i).puller.messages = [] ∧ (s.slots i).converter.messages = []) :
    (∀ i, s.starting.head? = some i → (s.slots i).responded = true) ∧
      (called = true → s.count .WHAT_SESSION_DESTROYED = 1 ∧
        ∀ i < s.tracks, (s.slots i).Ended ∧ (s.slots i).converter = Looper.new.quit) := by
  obtain ⟨stage, horderly, -⟩ := h.sound halive
  refine ⟨?_, ?_⟩
  · intro i hhead
    cases horderly.progress with
    | before hs hcount hidle => simp [hs] at hhead
    | during j rest hs hcount hnodup hlt hstage hrest hothers =>
        rw [hs, List.head?_cons] at hhead
        cases hhead
        have hat := (horderly.trackAt i).at_
        rw [hstage] at hat
        refine hat.2.2.1.resolve_left ?_
        rw [(hthreads i hlt).1]
        exact List.not_mem_nil
    | after hs hcount hstages => simp [hs] at hhead
  · intro hcalled
    have hgone : ∀ i < s.tracks, stage i = .gone := by
      intro i hi
      have hself := horderly.trackAt i
      have hat := hself.at_
      rw [hqueue, word_nil] at hat
      obtain hstage | hstage | hstage | hstage :=
        (hself.told hcalled).resolve_right (by simp [Stops, hqueue])
      · rw [hstage] at hat
        simpa [(hthreads i hi).1] using hat.2.2.1
      · rw [hstage] at hat
        obtain ⟨-, -, -, units, late, hword, -⟩ := hat
        simp at hword
      · rw [hstage] at hat
        obtain ⟨-, -, -, units, late, hword, -⟩ := hat
        simp at hword
      · exact hstage
    refine ⟨?_, fun i hi => ?_⟩
    · obtain ⟨-, -, j, hj⟩ | ⟨-, hcount, -⟩ := horderly.sender
      · by_cases hlt : j < s.tracks
        · exact absurd (hgone j hlt) hj
        · exact absurd (horderly.beyond j (Nat.not_lt.mp hlt)) hj
      · exact hcount
    · have hself := horderly.trackAt i
      rw [hgone i hi] at hself
      obtain ⟨hnone, hceased, hshuts, -⟩ := hself.at_
      have hpuller : (s.slots i).puller.point = none :=
        hself.fits.puller.point_eq_none (hthreads i hi).1
      have hconverter : (s.slots i).converter.point = none :=
        hself.fits.converter.point_eq_none (hthreads i hi).2
      refine ⟨⟨hnone, hceased.puller.resolve_left (by simp [hpuller]), hceased.released⟩, ?_⟩
      have hquitting := hshuts.resolve_left (by simp [(hthreads i hi).2])
      rw [Looper.quit, Looper.point_new, ← (hthreads i hi).2, ← hconverter, ← hquitting]

/-- A session that ends well after it has sent its access unit. -/
def orderlyEnd : List Event :=
  firstUnit ++ [.output 0 .accessUnit, .main ⟨true, OK⟩] ++ teardown

theorem reachable_orderlyEnd :
    Reachable true ((new [false] .TRANSPORT_UDP .TRANSPORT_NONE).run orderlyEnd) :=
  (Reachable.new (by simp) (.inl rfl) (.inl rfl)).run (by decide : allowsAll _ orderlyEnd = true)

theorem destroyed_of_quiet_orderlyEnd :
    ((new [false] .TRANSPORT_UDP .TRANSPORT_NONE).run orderlyEnd).count .WHAT_SESSION_DESTROYED = 1 :=
  ((destroyed_of_quiet reachable_orderlyEnd (by decide) (by decide) (by decide)).2 rfl).1

end State

end MirrorCast.PlaybackSession.Mirroring
