import MirrorCast.Verification.Playback.Sessions

/-! # What the messages of a session do to its tracks -/

namespace MirrorCast.PlaybackSession.Mirroring

open Java RTPBase
open ANetworkSession (OK)

namespace State

variable {s t : State} {called : Bool} {stage : ℕ → Stage} {i : ℕ} {queue : List Message}
  {m : Message}

/-! ## The messages of the session -/

/-- What a step makes of a sound session: it stays one unless the step throws. -/
def Handled (called : Bool) (t : State) : Prop := t.exception = none → t.Sound called

theorem handled_throw {thread : Thread} {e : JavaException} : Handled called (s.throw thread e) := by
  intro halive
  cases halive

theorem Sound.handled (h : t.Sound called) : Handled called t := fun _ => h

/-- The session handles its first message `m`. -/
structure Handling (called : Bool) (s : State) (stage : ℕ → Stage) (m : Message)
    (queue : List Message) : Prop where
  starting : s.starting = []
  queue_eq : s.queue = m :: queue
  orderly : s.Orderly called stage
  handshake : s.Handshake

theorem Handling.sameFor (h : Handling called s stage m queue) (hm : m.ApartFrom i) :
    SameFor i queue s.queue := by
  rw [h.queue_eq]
  exact (sameFor_cons hm queue).symm

/-- The message goes, which is none of a connection. -/
theorem Handling.handshake_tail (h : Handling called s stage m queue)
    (hnet : ∀ b n, m ≠ .net b n) : { s with queue }.Handshake := by
  refine h.handshake.of_eq rfl rfl ?_ ?_
  · intro isRTP
    rw [h.queue_eq]
    cases m with
    | net b n => exact absurd rfl (hnet b n)
    | _ => rfl
  · change queue.countP isInitOK + s.begun.toNat ≤ _
    rw [h.queue_eq, List.countP_cons]
    omega

theorem Handling.orderly_tail (h : Handling called s stage m queue) (hm : ∀ i, m.ApartFrom i) :
    { s with queue }.Orderly called stage :=
  h.orderly.of_eq rfl rfl rfl rfl rfl (fun i => h.sameFor (hm i)) (fun _ => rfl) rfl rfl id

/-- The message only goes. -/
theorem Handling.dropped (h : Handling called s stage m queue) (hnet : ∀ b n, m ≠ .net b n)
    (hm : ∀ i, m.ApartFrom i) : { s with queue }.Sound called :=
  ⟨stage, h.orderly_tail hm, h.handshake_tail hnet⟩

theorem Orderly.of_beside (h : s.Orderly called stage) (hbeside : Beside s t) :
    t.Orderly called stage := by
  obtain ⟨front, posted, ht, hfront, hposted⟩ := hbeside.queue
  refine h.of_eq hbeside.slots hbeside.starting hbeside.tracks hbeside.mVideoTrackIndex
    hbeside.mMediaSender ?_ ?_ ?_ ?_ ?_
  · intro i
    rw [ht]
    exact (sameFor_prepend (fun m hm => (hfront m hm).apartFrom i) _).trans
      (sameFor_append (fun m hm => (hposted m hm).apartFrom i) _)
  · exact fun i => congrArg (sent i) hbeside.effects
  · exact congrArg (List.count _) hbeside.effects
  · exact congrArg (List.count _) hbeside.effects
  · exact fun hdead => hbeside.mWeAreDead.trans hdead

theorem Handling.net {isRTP : Bool} {n : NetNotification}
    (h : Handling called s stage (.net isRTP n) queue) :
    ({ s with queue }.onNetNotify isRTP n).Sound called := by
  obtain ⟨hhandshake, hbeside⟩ := h.handshake.onNetNotify h.queue_eq rfl
  exact ⟨stage, (h.orderly_tail (Message.Apart.apartFrom ⟨by simp, by simp⟩)).of_beside hbeside,
    hhandshake⟩

theorem Handling.senderNotify {generation : ℤ} {n : SenderNotification}
    (h : Handling called s stage (.WHAT_SENDER_NOTIFY generation n) queue) :
    ({ s with queue }.onSenderNotify n).Sound called := by
  obtain ⟨hhandshake, hbeside⟩ := h.handshake.onSenderNotify h.queue_eq rfl
  exact ⟨stage, (h.orderly_tail (Message.Apart.apartFrom ⟨by simp, by simp⟩)).of_beside hbeside,
    hhandshake⟩

/-- The session is dead from now on. -/
theorem Sound.notifySessionDead (h : s.Sound called) : s.notifySessionDead.Sound called := by
  obtain ⟨stage, horderly, hhandshake⟩ := h
  refine ⟨stage, horderly.of_eq rfl rfl rfl rfl rfl (fun i => .refl i s.queue) ?_ ?_ ?_ fun _ => rfl,
    hhandshake.of_eq rfl rfl (fun _ => rfl) ?_⟩
  · intro i
    exact (sent_append _ _ _).trans (List.append_nil _)
  · exact count_log_of_ne s (by decide)
  · exact count_log_of_ne s (by decide)
  · have hbegun : s.notifySessionDead.begun = s.begun := by
      simp [State.begun, State.notifySessionDead, State.log]
    rw [hbegun]
    rfl

/-- A session that is not established was not told to end. -/
theorem Orderly.not_called (h : s.Orderly called stage)
    (hcount : s.count .WHAT_SESSION_ESTABLISHED = 0) : called = false := by
  cases hc : called with
  | false => rfl
  | true =>
      have hestablished := h.established hc
      rw [hcount] at hestablished
      cases hestablished

/-- Both sides are ready: the tracks are started, for the first time. -/
theorem Handling.onMediaSenderInitialized
    (h : Handling called s stage (.WHAT_MEDIA_SENDER_NOTIFY (.WHAT_INIT_DONE OK)) queue) :
    { s with queue }.onMediaSenderInitialized.Sound called := by
  have honce := h.handshake.once
  have hcountP : s.queue.countP isInitOK = queue.countP isInitOK + 1 := by
    rw [h.queue_eq]
    exact List.countP_cons_of_pos rfl
  have hbegun : s.begun = false := by
    cases hb : s.begun with
    | false => rfl
    | true =>
        have hle := Bool.toNat_le s.complete
        rw [hb, Bool.toNat_true] at honce
        omega
  obtain ⟨hcount, hidle⟩ : s.count .WHAT_SESSION_ESTABLISHED = 0 ∧
      ∀ i < s.tracks, stage i = .idle := by
    cases h.orderly.progress with
    | before hs hcount hidle => exact ⟨hcount, hidle⟩
    | during i rest hs hcount hnodup hlt hstage hrest hothers =>
        rw [h.starting] at hs
        cases hs
    | after hs hcount hstages => simp [begun_of_count hcount] at hbegun
  obtain rfl := h.orderly.not_called hcount
  have hall : ∀ i < s.tracks, (s.slots i).track.isSome = true := by
    intro i hi
    have hat := (h.orderly.trackAt i).at_
    rw [hidle i hi] at hat
    rw [hat.1]
    rfl
  have hmem : ∀ i, i ∈ ((List.range s.tracks).filter fun i => (s.slots i).track.isSome) ↔
      i < s.tracks := by
    intro i
    rw [List.mem_filter, List.mem_range]
    exact ⟨And.left, fun hi => ⟨hi, hall i hi⟩⟩
  have hqueue : ∀ i, SameFor i queue s.queue :=
    fun i => h.sameFor (Message.Apart.apartFrom ⟨by simp, by simp⟩ i)
  unfold State.onMediaSenderInitialized
  obtain ⟨hbegun', ⟨next, horderly⟩, hqueue', hrtp, hrtcp⟩ := @startNext_spec
    { s with
      queue
      starting := (List.range s.tracks).filter fun i => (s.slots i).track.isSome }
    stage (fun i => (h.orderly.trackAt i).of_eq rfl (hqueue i) rfl id) h.orderly.beyond hcount
    (List.nodup_range.filter _) (fun j hj => ⟨(hmem j).mp hj, hidle j ((hmem j).mp hj)⟩)
    (fun j hj hnot => absurd ((hmem j).mpr hj) hnot) h.orderly.made h.orderly.sender
  refine ⟨next, horderly, h.handshake.of_eq hrtp hrtcp ?_ ?_⟩
  · intro isRTP
    rw [hqueue', h.queue_eq]
    rfl
  · rw [hqueue', hbegun', hbegun, hcountP]
    exact le_rfl

/-- The puller of a track has responded. -/
theorem TrackAt.started (h : s.TrackAt called i .starting) (starting : List ℕ) :
    { s with
      starting
      slots := Function.update s.slots i (s.slots i).started }.TrackAt called i .running := by
  refine ⟨?_, ?_, h.accounted.of_numbers rfl ?_ ?_ rfl id, ?_, h.untold, ?_⟩
  · simpa using h.at_.started
  · simpa [Slot.started] using h.fits.ofTrack _ false
  · simp [Slot.started]
  · simp [Slot.started]
  · intro hcalled
    exact .inr ((h.told hcalled).resolve_left (by simp [Stage.Told]))
  · intro hmem
    simpa [Slot.started, Slot.Shuts] using h.shuts hmem

/-- The looper goes on with the first track when its puller has responded. -/
theorem Sound.resumed (h : s.Sound called) {rest : List ℕ} (hstarting : s.starting = i :: rest) :
    { s with
      starting := rest
      slots := Function.update s.slots i (s.slots i).started }.startNext.Sound called := by
  obtain ⟨stage, horderly, hhandshake⟩ := h
  obtain ⟨hcount, hnodup, hlt, hstage, hrest, hothers⟩ : s.count .WHAT_SESSION_ESTABLISHED = 0 ∧
      (i :: rest).Nodup ∧ i < s.tracks ∧ stage i = .starting ∧
      (∀ j ∈ rest, j < s.tracks ∧ stage j = .idle) ∧
      ∀ j < s.tracks, j ∉ i :: rest → stage j = .running := by
    cases horderly.progress with
    | before hs hcount hidle =>
        rw [hstarting] at hs
        cases hs
    | during j rest' hs hcount hnodup hlt hstage hrest hothers =>
        obtain ⟨rfl, rfl⟩ := List.cons.inj (hstarting.symm.trans hs)
        exact ⟨hcount, hnodup, hlt, hstage, hrest, hothers⟩
    | after hs hcount hstages =>
        rw [hstarting] at hs
        cases hs
  obtain rfl := horderly.not_called hcount
  have hself := horderly.trackAt i
  rw [hstage] at hself
  have hne : ∀ j ∈ rest, j ≠ i := by
    rintro j hj rfl
    exact (List.nodup_cons.mp hnodup).1 hj
  have hspec := @startNext_spec
    { s with starting := rest, slots := Function.update s.slots i (s.slots i).started }
    (Function.update stage i .running)
  obtain ⟨hbegun, ⟨next, hnext⟩, hqueue, hrtp, hrtcp⟩ : _ ∧ _ := by
    refine hspec ?_ ?_ hcount (List.nodup_cons.mp hnodup).2 ?_ ?_ horderly.made ?_
    · intro j
      by_cases hj : j = i
      · subst hj
        rw [Function.update_self]
        exact hself.started rest
      · rw [Function.update_of_ne hj]
        exact (horderly.trackAt j).of_eq (Function.update_of_ne hj _ _) (.refl j s.queue) rfl id
    · intro j hj
      have hji : j ≠ i := by
        rintro rfl
        exact absurd hlt (Nat.not_lt.mpr hj)
      rw [Function.update_of_ne hji]
      exact horderly.beyond j hj
    · intro j hj
      rw [Function.update_of_ne (hne j hj)]
      exact hrest j hj
    · intro j hj hnot
      by_cases hji : j = i
      · subst hji
        exact Function.update_self ..
      · rw [Function.update_of_ne hji]
        exact hothers j hj (by simpa [hji] using hnot)
    · refine horderly.sender.update ?_
      rw [hstage]
      exact iff_of_false (by simp) (by simp)
  refine ⟨next, hnext, hhandshake.of_eq hrtp hrtcp ?_ ?_⟩
  · exact fun isRTP => congrArg (netWord isRTP) hqueue
  · have hbegun' : s.begun = true := by simp [State.begun, hstarting]
    rw [hbegun, hbegun', hqueue]

/-! ## The messages of a track -/

theorem Handling.others {tm : TrackMessage} (h : Handling called s stage (.track i tm) queue)
    {j : ℕ} (hj : j ≠ i) : SameFor j queue s.queue :=
  h.sameFor (apartFrom_track_of_ne (Ne.symm hj) tm)

/-- What the looper still has to do for a track stays when a message of a track is handled. -/
theorem Handling.stops_iff {tm : TrackMessage} (h : Handling called s stage (.track i tm) queue)
    (ms : List TrackMessage) : Stops i (queue ++ ms.map (.track i)) ↔ Stops i s.queue := by
  simp [Stops, h.queue_eq]

theorem Handling.stopPuller_iff {tm : TrackMessage}
    (h : Handling called s stage (.track i tm) queue) :
    .task (.stopPuller i) ∈ queue ↔ .task (.stopPuller i) ∈ s.queue := by
  simp [h.queue_eq]

/-- An access unit is handled: it went to `MediaSender`, or the session is dead. -/
theorem Handling.unitHandled {number : ℕ} {effects : List Effect}
    (h : Handling called s stage (.track i (.WHAT_ACCESS_UNIT number)) queue)
    (hestablished : effects.count .WHAT_SESSION_ESTABLISHED = s.count .WHAT_SESSION_ESTABLISHED)
    (hdestroyed : effects.count .WHAT_SESSION_DESTROYED = s.count .WHAT_SESSION_DESTROYED)
    (hsent : ∀ j ≠ i, sent j effects = sent j s.effects)
    (haccounted : { s with queue, effects }.Accounted i) :
    { s with queue, effects }.Sound called := by
  have hself := h.orderly.trackAt i
  have hat := hself.at_
  rw [h.queue_eq, word_track_self (by simp)] at hat
  have hstops := h.stops_iff []
  rw [List.map_nil, List.append_nil] at hstops
  have horderly : { s with queue, effects }.Orderly called (Function.update stage i (stage i)) := by
    refine h.orderly.changed ⟨hat.onAccessUnit.2, hself.fits, haccounted, ?_, ?_, ?_⟩ ?_ rfl rfl rfl
      hestablished (.inl rfl) id ?_
    · exact fun hcalled => (hself.told hcalled).imp_right hstops.mpr
    · exact fun hcalled => mt hstops.mp (hself.untold hcalled)
    · exact fun hmem => hself.shuts (h.stopPuller_iff.mp hmem)
    · exact fun j hj => (h.orderly.trackAt j).of_eq rfl (h.others hj) (hsent j hj) id
    · have hsender := h.orderly.sender
      rw [SenderAt, ← hdestroyed] at hsender
      rw [Function.update_eq_self]
      exact hsender
  refine ⟨_, horderly, h.handshake.of_eq rfl rfl ?_ ?_⟩
  · intro isRTP
    rw [h.queue_eq]
    rfl
  · have hmem : .WHAT_SESSION_ESTABLISHED ∈ effects ↔ .WHAT_SESSION_ESTABLISHED ∈ s.effects := by
      rw [← List.count_pos_iff, ← List.count_pos_iff, hestablished, State.count]
    have hbegun : { s with queue, effects }.begun = s.begun := by
      simp [State.begun, hmem]
    rw [hbegun, h.queue_eq]
    exact le_rfl

/-- An access unit goes to `MediaSender` if the session is alive. -/
theorem Handling.onAccessUnit {number : ℕ}
    (h : Handling called s stage (.track i (.WHAT_ACCESS_UNIT number)) queue) (queued : Queued) :
    Handled called ({ s with queue }.onTrackMessage queued i (.WHAT_ACCESS_UNIT number)) := by
  have haccounted := (h.orderly.trackAt i).accounted
  have hword : word i s.queue = .WHAT_ACCESS_UNIT number :: word i queue := by
    rw [h.queue_eq, word_track_self (by simp)]
  unfold State.onTrackMessage
  dsimp only
  by_cases hdead : s.mWeAreDead = true
  · rw [if_pos hdead]
    refine (h.unitHandled rfl rfl (fun _ _ => rfl) ⟨?_, haccounted.first⟩).handled
    intro halive
    rw [hdead] at halive
    cases halive
  · rw [if_neg hdead]
    unfold State.onAccessUnit
    split
    · exact handled_throw
    split
    · exact handled_throw
    have hall := haccounted.all ((Bool.not_eq_true _).mp hdead)
    have hsent : sent i (s.effects ++ [.queueAccessUnit i number]) =
        sent i s.effects ++ [number] := by
      rw [sent_append]
      simp [sent]
    have hsplit : sent i (s.effects ++ [.queueAccessUnit i number]) ++
        numbers (word i queue ++ (s.slots i).notify.toList) = List.range (s.slots i).outputs := by
      rw [hsent, ← hall, hword, List.append_assoc]
      rfl
    have hqueued : ({ s with queue }.log (.queueAccessUnit i number)).Sound called := by
      refine h.unitHandled (count_log_of_ne s (by simp)) (count_log_of_ne s (by simp)) ?_
        ⟨fun _ => hsplit, _, hsplit⟩
      intro j hj
      rw [sent_append]
      simp [sent, Ne.symm hj]
    dsimp only
    split
    · exact hqueued.handled
    · exact hqueued.notifySessionDead.handled

/-- A message of a track goes, and only such messages are posted. -/
theorem Handling.handshake_of_track {tm : TrackMessage}
    (h : Handling called s stage (.track i tm) queue) {posted : List TrackMessage}
    (hqueue : t.queue = queue ++ posted.map (.track i)) (hrtp : t.rtp = s.rtp)
    (hrtcp : t.rtcp = s.rtcp) (hbegun : t.begun = s.begun) : t.Handshake := by
  refine h.handshake.of_eq hrtp hrtcp ?_ ?_
  · intro isRTP
    rw [hqueue, netWord_append, netWord_map_track, List.append_nil, h.queue_eq]
    rfl
  · rw [hqueue, List.countP_append, countP_map_track, hbegun, h.queue_eq]
    exact le_rfl

/-- The puller of a track has stopped, and the track reports that it has. -/
theorem Handling.onMediaPullerStopped
    (h : Handling called s stage (.track i .WHAT_MEDIA_PULLER_STOPPED) queue) :
    ({ s with queue }.update .main i (.ok (s.slots i).onMediaPullerStopped)).Sound called := by
  have hword : word i s.queue = .WHAT_MEDIA_PULLER_STOPPED :: word i queue := by
    rw [h.queue_eq, word_track_self (by simp)]
  have hself := h.orderly.trackAt i
  have hat := hself.at_
  rw [hword] at hat
  obtain ⟨hstage, hat⟩ := hat.onMediaPullerStopped
  have hposted : word i (queue ++ [.track i .WHAT_STOPPED]) = word i queue ++ [.WHAT_STOPPED] := by
    rw [word_append, word_track_self (by simp), word_nil]
  have hnumbers : numbers (word i (queue ++ [.track i .WHAT_STOPPED])) =
      numbers (word i s.queue) := by
    rw [hposted, hword, numbers_append]
    exact List.append_nil _
  have hstops : Stops i (queue ++ [.track i .WHAT_STOPPED]) ↔ Stops i s.queue :=
    h.stops_iff [.WHAT_STOPPED]
  have hnext : TrackAt called ({ s with queue }.update .main i
      (.ok (s.slots i).onMediaPullerStopped)) i .ending := by
    refine ⟨?_, ?_, hself.accounted.of_numbers hnumbers ?_ ?_ rfl id, ?_, ?_, ?_⟩
    · change Slot.At _ (word i (queue ++ [.track i .WHAT_STOPPED])) _
      rw [hposted]
      simpa [State.update] using hat
    · simpa [State.update, Slot.onMediaPullerStopped] using
        hself.fits.ofTrack _ (s.slots i).responded
    · simp [State.update, Slot.onMediaPullerStopped]
    · simp [State.update, Slot.onMediaPullerStopped]
    · exact fun _ => .inl (by simp [Stage.Told])
    · exact fun hcalled => mt hstops.mp (hself.untold hcalled)
    · intro hmem
      have hmem' : .task (.stopPuller i) ∈ s.queue := by
        simpa [State.update, Slot.onMediaPullerStopped, h.queue_eq] using hmem
      have hshuts := hself.shuts hmem'
      simpa [State.update, Slot.onMediaPullerStopped, Slot.Shuts] using hshuts
  refine ⟨_, h.orderly.change ?_ hnext (.inr ?_) (by simp [hstage]),
    @Handling.handshake_of_track _ _ _ _ _ _ _ h [.WHAT_STOPPED] rfl rfl rfl rfl⟩
  · intro j hj
    refine (sameFor_append ?_ queue).trans (h.others hj)
    exact List.forall_mem_singleton.mpr (apartFrom_track_of_ne (Ne.symm hj) _)
  · simp [hstage, Stage.Told]

theorem ofTrack_eq_some {tm : TrackMessage} (h : m.ofTrack i = some tm) : m = .track i tm := by
  cases m with
  | track j tm' =>
      simp only [Message.ofTrack] at h
      split at h
      · rename_i hj
        cases h
        rw [hj.1]
      · cases h
  | _ => cases h

theorem netWord_filter {isRTP : Bool} {p : Message → Bool}
    (h : ∀ b n, p (.net b n) = true) (queue : List Message) :
    netWord isRTP (queue.filter p) = netWord isRTP queue := by
  rw [netWord, List.filterMap_filter]
  refine List.filterMap_congr fun m _ => ?_
  cases m with
  | net b n => rw [if_pos (h b n)]
  | _ => simp

/-- What the track is still to hear is removed. -/
theorem word_filter_stopped (i : ℕ) (queue : List Message) :
    word i (queue.filter (· ≠ .track i .WHAT_MEDIA_PULLER_STOPPED)) =
      (word i queue).filter (· ≠ .WHAT_MEDIA_PULLER_STOPPED) := by
  rw [word, word, List.filterMap_filter, List.filter_filterMap]
  refine List.filterMap_congr fun m _ => ?_
  cases htm : m.ofTrack i with
  | none => simp
  | some tm =>
      obtain rfl := ofTrack_eq_some htm
      by_cases hstopped : tm = .WHAT_MEDIA_PULLER_STOPPED <;> simp [Option.filter, hstopped]

theorem numbers_filter_stopped (ms : List TrackMessage) :
    numbers (ms.filter (· ≠ .WHAT_MEDIA_PULLER_STOPPED)) = numbers ms := by
  rw [numbers, List.filterMap_filter]
  refine List.filterMap_congr fun m _ => ?_
  cases m <;> rfl

/-- A track that has stopped is gone, if the session that is left has its sender as long as it has
tracks. -/
theorem Handling.ended (h : Handling called s stage (.track i .WHAT_STOPPED) queue)
    (hslots : t.slots = Function.update s.slots i { s.slots i with track := none })
    (hstarting : t.starting = s.starting) (htracks : t.tracks = s.tracks)
    (hvideo : t.mVideoTrackIndex = s.mVideoTrackIndex)
    (hestablished : t.count .WHAT_SESSION_ESTABLISHED = s.count .WHAT_SESSION_ESTABLISHED)
    (hqueue : ∀ j, SameFor j t.queue
      (queue.filter (· ≠ .track i .WHAT_MEDIA_PULLER_STOPPED)))
    (hsent : ∀ j, sent j t.effects = sent j s.effects) (hdead : t.mWeAreDead = s.mWeAreDead)
    (hsender : t.SenderAt (Function.update stage i .gone)) :
    t.Orderly called (Function.update stage i .gone) := by
  have hword : word i s.queue = .WHAT_STOPPED :: word i queue := by
    rw [h.queue_eq, word_track_self (by simp)]
  have hself := h.orderly.trackAt i
  have hat := hself.at_
  rw [hword] at hat
  obtain ⟨hstage, hat⟩ := hat.onStopped
  have hword' : word i t.queue = (word i queue).filter (· ≠ .WHAT_MEDIA_PULLER_STOPPED) := by
    rw [(hqueue i).word, word_filter_stopped]
  have hnumbers : numbers (word i t.queue) = numbers (word i s.queue) := by
    rw [hword', numbers_filter_stopped, hword]
    rfl
  have hstops : Stops i t.queue ↔ Stops i s.queue := by
    rw [(hqueue i).stops]
    simp [Stops, h.queue_eq]
  have hmem : .task (.stopPuller i) ∈ t.queue ↔ .task (.stopPuller i) ∈ s.queue := by
    rw [(hqueue i).stopPuller]
    simp [h.queue_eq]
  refine h.orderly.changed ⟨?_, ?_, hself.accounted.of_numbers hnumbers ?_ ?_ (hsent i) hdead.trans,
    ?_, ?_, ?_⟩ ?_ hstarting htracks hvideo hestablished (.inr ?_) (fun _ => rfl) hsender
  · rw [hslots, Function.update_self, hword']
    exact hat
  · rw [hslots, Function.update_self]
    exact hself.fits.ofTrack none _
  · rw [hslots, Function.update_self]
  · rw [hslots, Function.update_self]
  · exact fun _ => .inl (by simp [Stage.Told])
  · exact fun hcalled => mt hstops.mp (hself.untold hcalled)
  · intro hpuller
    rw [hslots, Function.update_self]
    exact hself.shuts (hmem.mp hpuller)
  · intro j hj
    refine (h.orderly.trackAt j).of_eq ?_ ?_ (hsent j) hdead.trans
    · rw [hslots, Function.update_of_ne hj]
    · refine ((hqueue j).trans (sameFor_filter ?_ queue)).trans (h.others hj)
      intro m hm
      have hm : m = .track i .WHAT_MEDIA_PULLER_STOPPED := by simpa using hm
      rw [hm]
      exact apartFrom_track_of_ne (Ne.symm hj) _
  · simp [hstage, Stage.Told]

/-- The session hears that a track has stopped. -/
theorem Handling.onStopped (h : Handling called s stage (.track i .WHAT_STOPPED) queue) :
    Handled called ({ s with queue }.onStopped i) := by
  have hat := (h.orderly.trackAt i).at_
  rw [h.queue_eq, word_track_self (by simp)] at hat
  have hstage := hat.onStopped.1
  have hpresent : s.mMediaSender = true ∧ s.count .WHAT_SESSION_DESTROYED = 0 := by
    obtain ⟨hsender, hcount, -⟩ | ⟨-, -, hall⟩ := h.orderly.sender
    · exact ⟨hsender, hcount⟩
    · rw [hall i] at hstage
      cases hstage
  have hnet : ∀ isRTP, netWord isRTP (queue.filter (· ≠ .track i .WHAT_MEDIA_PULLER_STOPPED)) =
      netWord isRTP s.queue := by
    intro isRTP
    rw [netWord_filter (by simp), h.queue_eq]
    rfl
  have hinit : (queue.filter (· ≠ .track i .WHAT_MEDIA_PULLER_STOPPED)).countP isInitOK ≤
      s.queue.countP isInitOK := by
    rw [h.queue_eq]
    exact List.filter_sublist.countP_le
  have hnone : ∀ j, Function.update stage i .gone j = .gone ↔
      ((({ s with queue }.removeTrackMessages i).setSlot i
        { s.slots i with track := none }).slots j).track = none := by
    intro j
    by_cases hji : j = i
    · subst hji
      simp [setSlot]
    · rw [Function.update_of_ne hji, ← (h.orderly.trackAt j).at_.track_eq_none_iff]
      simp [setSlot, removeTrackMessages, hji]
  unfold State.onStopped
  split
  · exact handled_throw
  dsimp only
  split
  · rename_i htracks
    refine Sound.handled ⟨_, h.ended rfl rfl rfl rfl rfl (fun j => .refl j _) (fun _ => rfl) rfl
      (.inl ⟨hpresent.1, hpresent.2, ?_⟩), h.handshake.of_eq rfl rfl hnet
      (Nat.add_le_add_right hinit _)⟩
    obtain ⟨j, -, hj⟩ := List.any_eq_true.mp htracks
    refine ⟨j, fun hgone => ?_⟩
    rw [(hnone j).mp hgone] at hj
    cases hj
  · rename_i htracks
    unfold State.destroyed
    split
    swap
    · exact handled_throw
    refine Sound.handled ⟨_, h.ended rfl rfl rfl rfl ?_ ?_ ?_ rfl (.inr ⟨rfl, ?_, ?_⟩),
      h.handshake.of_eq rfl rfl ?_ ?_⟩
    · exact count_log_of_ne _ (by decide)
    · intro j
      refine sameFor_filter ?_ _
      intro m hm
      cases m with
      | WHAT_SENDER_NOTIFY generation n => exact Message.Apart.apartFrom ⟨by simp, by simp⟩ j
      | _ => cases hm
    · intro j
      exact (sent_append _ _ _).trans (List.append_nil _)
    · exact (count_log_self _ _).trans (congrArg (· + 1) hpresent.2)
    · intro j
      by_cases hlt : j < s.tracks
      · rw [hnone]
        have hsome := List.any_eq_false.mp ((Bool.not_eq_true _).mp htracks) j
          (List.mem_range.mpr hlt)
        simpa using hsome
      · have hbeyond := h.orderly.beyond j (Nat.le_of_not_lt hlt)
        by_cases hji : j = i
        · rw [hji, Function.update_self]
        · rw [Function.update_of_ne hji, hbeyond]
    · intro isRTP
      exact (netWord_filter (by simp [isToMediaSender]) _).trans (hnet isRTP)
    · have hbegun : s.begun = ({ ((({ s with queue }.removeTrackMessages i).setSlot i
          { s.slots i with track := none }).log .WHAT_SESSION_DESTROYED) with
          mMediaSender := false }).begun := by
        simp [State.begun, State.log, State.setSlot, State.removeTrackMessages]
      refine Nat.add_le_add (List.filter_sublist.countP_le.trans hinit) ?_
      exact (congrArg Bool.toNat hbegun).ge

/-! ## What a handler still has to do -/

theorem apartFrom_task {task : Task} (h : ¬ task.IsStop) : (Message.task task).ApartFrom i := by
  refine Message.Apart.apartFrom ⟨by simp, ?_⟩ i
  rintro _ ⟨⟩
  exact h

/-- Only a session that was told to end stops a track. -/
theorem Handling.called_of_stop {task : Task} (h : Handling called s stage (.task task) queue)
    (hstop : task.IsStop) : called = true := by
  cases hc : called with
  | true => rfl
  | false =>
      cases task with
      | stopAsync i => exact absurd (.inl (by simp [h.queue_eq])) ((h.orderly.trackAt i).untold hc)
      | stopPuller i => exact absurd (.inr (by simp [h.queue_eq])) ((h.orderly.trackAt i).untold hc)
      | _ => exact hstop.elim

/-- And then all its tracks were started. -/
theorem Orderly.running (h : s.Orderly true stage) (i : ℕ) :
    stage i = .running ∨ (stage i).Told := by
  have hcount := h.established rfl
  cases h.progress with
  | before hs hcount' hidle => simp [hcount] at hcount'
  | during j rest hs hcount' hnodup hlt hstage hrest hothers => simp [hcount] at hcount'
  | after hs hcount' hstages =>
      by_cases hi : i < s.tracks
      · exact hstages i hi
      · exact .inr (.inr (.inr (.inr (h.beyond i (Nat.le_of_not_lt hi)))))

/-- The first half of `stopAsync` leaves the second to do. -/
theorem Handling.stopAsync (h : Handling called s stage (.task (.stopAsync i)) queue) :
    (({ s with queue }.setSlot i (s.slots i).shutdownConverter).todo [.stopPuller i]).Sound
      called := by
  obtain rfl := h.called_of_stop trivial
  have hself := h.orderly.trackAt i
  have hmild := Slot.mild_shutdownConverter (s.slots i)
  have hword : word i (.task (.stopPuller i) :: queue) = word i s.queue := by
    rw [h.queue_eq]
    rfl
  have hnext : { s with
      slots := Function.update s.slots i (s.slots i).shutdownConverter
      queue := .task (.stopPuller i) :: queue }.TrackAt true i (stage i) := by
    refine ⟨?_, ?_, hself.accounted.of_numbers (congrArg numbers hword) ?_ ?_ rfl id,
      fun _ => .inr (.inr List.mem_cons_self), by simp, fun _ => ?_⟩
    · rw [hword]
      simpa using hmild.at_ hself.at_
    · simpa using hmild.fits hself.fits
    · simpa using hmild.outputs
    · simpa using hmild.notify
    · simpa using hself.at_.shuts (h.orderly.running i)
  refine ⟨_, h.orderly.change ?_ hnext (.inl rfl) .rfl, ?_⟩
  · intro j hj
    have hput : (Message.task (.stopPuller i)).ApartFrom j :=
      ⟨rfl, by simp, by simpa using Ne.symm hj⟩
    have hgone : (Message.task (.stopAsync i)).ApartFrom j :=
      ⟨rfl, by simpa using Ne.symm hj, by simp⟩
    exact (sameFor_cons hput queue).trans (h.sameFor hgone)
  · have hset : ({ s with queue }.setSlot i (s.slots i).shutdownConverter).Handshake :=
      (h.handshake_tail (by simp)).of_eq rfl rfl (fun _ => rfl) le_rfl
    exact hset.todo _

/-- The second half tells the puller to stop. -/
theorem Handling.stopPuller (h : Handling called s stage (.task (.stopPuller i)) queue) :
    ({ s with queue }.update .main i (.ok (s.slots i).stopPuller)).Sound called := by
  obtain rfl := h.called_of_stop trivial
  have hself := h.orderly.trackAt i
  have hshuts := hself.shuts (by simp [h.queue_eq])
  obtain ⟨hkept, hposts⟩ := Slot.kept_stopPuller hself.fits
  obtain ⟨next, htold, hgone, hat⟩ := hself.at_.stopPuller hself.fits (h.orderly.running i) hshuts
  generalize (s.slots i).stopPuller = stopped at hkept hposts hat ⊢
  obtain ⟨slot, ms⟩ := stopped
  have hcounted : counted ms = ms := by
    refine List.filter_eq_self.mpr fun m hm => ?_
    simp [hposts m hm]
  have hnumbers : numbers ms = [] := by
    refine List.filterMap_eq_nil_iff.mpr fun m hm => ?_
    rw [hposts m hm]
  have hword : word i (queue ++ ms.map (.track i)) = word i s.queue ++ counted ms := by
    rw [word_append, word_map_self, h.queue_eq]
    rfl
  refine ⟨_, h.orderly.change ?_ ⟨?_, ?_, ?_, fun _ => .inl htold, by simp, fun _ => ?_⟩
    (.inr ⟨htold, .inr rfl⟩) hgone, (h.handshake_tail (by simp)).update⟩
  · intro j hj
    have hgone : (Message.task (.stopPuller i)).ApartFrom j :=
      ⟨rfl, by simp, by simpa using Ne.symm hj⟩
    refine (sameFor_append ?_ queue).trans (h.sameFor hgone)
    intro m hm
    obtain ⟨tm, -, rfl⟩ := List.mem_map.mp hm
    exact apartFrom_track_of_ne (Ne.symm hj) tm
  · change Slot.At _ (word i (queue ++ ms.map (.track i))) next
    rw [hword, hcounted]
    simpa using hat
  · simpa using hkept.fits
  · exact hself.accounted.update (hkept.conserves hnumbers) hword (Function.update_self ..) rfl rfl
  · simpa using hkept.shuts hshuts

/-- What is done with a track leaves it at its stage. -/
theorem Handling.mild (h : Handling called s stage m queue) (hnet : ∀ b n, m ≠ .net b n)
    (hm : ∀ j, m.ApartFrom j) {slot : Slot} (hslot : Slot.Mild (s.slots i) slot) :
    ({ s with queue }.setSlot i slot).Sound called :=
  ⟨stage, h.orderly.change_mild hslot fun j => h.sameFor (hm j),
    (h.handshake_tail hnet).of_eq rfl rfl (fun _ => rfl) le_rfl⟩

theorem Handshake.post (h : s.Handshake) (hm : m.Aside) : (s.post m).Handshake := by
  refine h.of_eq rfl rfl ?_ ?_
  · intro isRTP
    refine (netWord_append _ _ _).trans ?_
    rw [netWord_cons_of_aside hm, netWord_nil, List.append_nil]
  · change (s.queue ++ [m]).countP isInitOK + s.begun.toNat ≤ _
    rw [List.countP_append, List.countP_singleton, hm.2]
    exact le_rfl

theorem Sound.post (h : s.Sound called) (hm : m.Aside) (hapart : m.Apart) :
    (s.post m).Sound called := by
  obtain ⟨stage, horderly, hhandshake⟩ := h
  refine ⟨stage, horderly.of_eq rfl rfl rfl rfl rfl (fun i => ?_) (fun _ => rfl) rfl rfl id,
    hhandshake.post hm⟩
  exact sameFor_append (List.forall_mem_singleton.mpr (hapart.apartFrom i)) s.queue

theorem Sound.todo (h : s.Sound called) {tasks : List Task}
    (htasks : ∀ task ∈ tasks, ¬ task.IsStop) : (s.todo tasks).Sound called := by
  obtain ⟨stage, horderly, hhandshake⟩ := h
  exact ⟨stage, horderly.todo htasks, hhandshake.todo tasks⟩

theorem Handling.onTask {task : Task} (h : Handling called s stage (.task task) queue) :
    Handled called ({ s with queue }.onTask task) := by
  cases task with
  | stopAsync i => exact h.stopAsync.handled
  | stopPuller i => exact h.stopPuller.handled
  | pause i => exact (h.mild (by simp) (fun j => apartFrom_task id) (Slot.mild_pause _)).handled
  | resume i => exact (h.mild (by simp) (fun j => apartFrom_task id) (Slot.mild_resume _)).handled
  | requestIDRFrame i =>
      unfold State.onTask
      dsimp only
      split
      · exact handled_throw
      · exact (h.mild (by simp) (fun j => apartFrom_task id) (Slot.mild_requestIDRFrame _)).handled
  | informSender newBitrate =>
      have hdropped := h.dropped (by simp) fun j => apartFrom_task id
      exact (hdropped.post ⟨by simp, rfl⟩ ⟨by simp, by simp⟩).handled
  | throw e => exact handled_throw

/-! ## The looper of the session -/

theorem Sound.setPaused (h : s.Sound called) (mPaused : Bool) :
    { s with mPaused }.Sound called := by
  obtain ⟨stage, horderly, hhandshake⟩ := h
  exact ⟨stage, horderly.of_eq rfl rfl rfl rfl rfl (fun i => .refl i s.queue) (fun _ => rfl) rfl rfl
    id, hhandshake.of_eq rfl rfl (fun _ => rfl) le_rfl⟩

theorem Handled.withConverter (h : Handled called s) {f : ℕ → State}
    (hf : ∀ i, Handled called (f i)) : Handled called (s.withConverter f) := by
  unfold State.withConverter
  split
  · exact h
  split
  · exact handled_throw
  split
  · exact hf _
  · exact h

/-- What `MediaSender` notifies the session of. -/
theorem Handling.onMediaSenderNotify {n : SenderNotification}
    (h : Handling called s stage (.WHAT_MEDIA_SENDER_NOTIFY n) queue) :
    Handled called ({ s with queue }.onMediaSenderNotify n) := by
  have hapart : ∀ j, (Message.WHAT_MEDIA_SENDER_NOTIFY n).ApartFrom j :=
    Message.Apart.apartFrom ⟨by simp, by simp⟩
  have hdropped : Handled called { s with queue } := (h.dropped (by simp) hapart).handled
  cases n with
  | WHAT_INIT_DONE err =>
      unfold State.onMediaSenderNotify
      dsimp only
      split
      · rename_i herr
        subst herr
        exact h.onMediaSenderInitialized.handled
      · exact fun halive => (hdropped halive).notifySessionDead
  | WHAT_ERROR err => exact fun halive => (hdropped halive).notifySessionDead
  | WHAT_NETWORK_STALL =>
      refine hdropped.withConverter fun i => Sound.handled ?_
      exact h.mild (by simp) hapart Slot.mild_postConverter
  | WHAT_INFORM_SENDER newBitrate =>
      refine hdropped.withConverter fun i => ?_
      split
      · exact handled_throw
      · exact hdropped

/-- Whatever the first message of the session is. -/
theorem Handling.onMessageReceived (h : Handling called s stage m queue) (queued : Queued) :
    Handled called ({ s with queue }.onMessageReceived queued m) := by
  cases m with
  | task t => exact h.onTask
  | net isRTP n => exact h.net.handled
  | WHAT_SENDER_NOTIFY generation n =>
      unfold State.onMessageReceived
      dsimp only
      split
      · exact (h.dropped (by simp) (Message.Apart.apartFrom ⟨by simp, by simp⟩)).handled
      · exact h.senderNotify.handled
  | WHAT_MEDIA_SENDER_NOTIFY n => exact h.onMediaSenderNotify
  | WHAT_PAUSE =>
      have hdropped := h.dropped (by simp) (Message.Apart.apartFrom ⟨by simp, by simp⟩)
      unfold State.onMessageReceived
      dsimp only
      split
      · exact hdropped.handled
      · refine ((hdropped.todo ?_).setPaused true).handled
        intro task htask
        obtain ⟨i, -, rfl⟩ := List.mem_map.mp htask
        exact id
  | WHAT_RESUME =>
      have hdropped := h.dropped (by simp) (Message.Apart.apartFrom ⟨by simp, by simp⟩)
      unfold State.onMessageReceived
      dsimp only
      split
      · refine ((hdropped.todo ?_).setPaused false).handled
        intro task htask
        obtain ⟨i, -, rfl⟩ := List.mem_map.mp htask
        exact id
      · exact hdropped.handled
  | track i tm =>
      cases tm with
      | WHAT_ACCESS_UNIT number => exact h.onAccessUnit queued
      | WHAT_EOS =>
          have hat := (h.orderly.trackAt i).at_
          rw [h.queue_eq, word_track_self (by simp)] at hat
          exact hat.not_eos.elim
      | WHAT_SHUTDOWN_COMPLETED =>
          exact (h.dropped (by simp) fun j => apartFrom_shutdown j i).handled
      | WHAT_MEDIA_PULLER_STOPPED => exact h.onMediaPullerStopped.handled
      | WHAT_STOPPED => exact h.onStopped

end State

end MirrorCast.PlaybackSession.Mirroring
