import MirrorCast.Verification.Source.Negotiation

/-! # The states from `AWAITING_CLIENT_PLAY` to `PAUSED_TO_PLAYING` -/

namespace MirrorCast.WifiDisplaySource

open Java
open ANetworkSession (OK)

/-- The states after a successful `SETUP`. -/
def State.isSetUp : State → Bool
  | .AWAITING_CLIENT_PLAY => true
  | .ABOUT_TO_PLAY => true
  | .PLAYING => true
  | .PLAYING_TO_PAUSED => true
  | .PAUSED => true
  | .PAUSED_TO_PLAYING => true
  | _ => false

/-- The states after the playback session was established. -/
def State.isPlaying : State → Bool
  | .PLAYING => true
  | .PLAYING_TO_PAUSED => true
  | .PAUSED => true
  | .PAUSED_TO_PLAYING => true
  | _ => false

/-- What the states say about the playback session. -/
structure PlayStates (s : WifiDisplaySource) : Prop where
  session : s.mState.isSetUp → s.mClientInfo.mPlaybackSession ≠ none ∧
    s.mClientInfo.mPlaybackSessionID ≠ -1
  established : s.mState.isPlaying → s.mPlaybackSessionEstablished = true

/-- Before a handler and after it, if it returns, the states say what they should. -/
def Sound {α : Type} (x : Handler α) (s : WifiDisplaySource) : Prop :=
  Ends x s (fun _ t => PlayStates t) (fun _ _ => True)

namespace PlayStates

variable {s t : WifiDisplaySource}

theorem of_fields (h : PlayStates s) (hstate : t.mState = s.mState)
    (hinfo : t.mClientInfo = s.mClientInfo)
    (hestablished : t.mPlaybackSessionEstablished = s.mPlaybackSessionEstablished) :
    PlayStates t where
  session hsetUp := by
    rw [hinfo]
    exact h.session (hstate ▸ hsetUp)
  established hplaying := by
    rw [hestablished]
    exact h.established (hstate ▸ hplaying)

theorem of_control (h : PlayStates s) (hst : Control s t) : PlayStates t :=
  h.of_fields hst.mState hst.mClientInfo hst.mPlaybackSessionEstablished

/-- Outside of these states there is nothing to say. -/
theorem of_state (hsetUp : s.mState.isSetUp = false) : PlayStates s where
  session hstate := by simp [hsetUp] at hstate
  established hstate := by
    cases h : s.mState <;> simp [h, State.isSetUp, State.isPlaying] at hsetUp hstate

theorem of_keeps {α : Type} {x : Handler α} (h : PlayStates s) (hx : Keeps Steady x s) :
    Sound x s :=
  hx.mono (fun _ _ ht => h.of_control ht.toControl) fun _ _ _ => trivial

end PlayStates

/-! ## Stopping -/

theorem finishStop2_ends (s : WifiDisplaySource) :
    Ends finishStop2 s (fun _ t => t.mState = .STOPPED) (fun _ _ => True) := by
  unfold finishStop2
  refine .get_bind (.bind .trivial fun _ t _ => .modify_bind (.get_bind ?_))
  split
  · exact .throw trivial
  · exact .modify_bind (.modify rfl)

theorem disconnectClient2_ends (s : WifiDisplaySource) :
    Ends disconnectClient2 s (fun _ t => t.mState = .STOPPED) (fun _ _ => True) := by
  unfold disconnectClient2
  refine .modify_bind (.get_bind (.bind .trivial fun _ t _ => .get_bind ?_))
  refine .ite (fun _ => .throw_bind trivial) fun _ => .modify_bind ?_
  exact finishStop2_ends _

/-- Stopping ends in one of the last two states, also if the playback session is still there. -/
theorem finishStop_ends (s : WifiDisplaySource) :
    Ends finishStop s (fun _ t => t.mState.isSetUp = false) (fun _ _ => True) := by
  unfold finishStop disconnectClientAsync
  refine .modify_bind (.get_bind ?_)
  split
  · exact (disconnectClient2_ends _).mono (fun _ t ht => by rw [ht]; rfl) fun _ _ _ => trivial
  · exact .modify rfl

/-! ## Requests -/

theorem makeUniquePlaybackSessionID_ne (env : Env) : makeUniquePlaybackSessionID env ≠ -1 := by
  unfold makeUniquePlaybackSessionID
  have hbounds := int32_bounds env.nextInt
  by_cases h : |int32 env.nextInt| < 2 ^ 31
  · rw [int32_eq (by linarith [abs_nonneg (int32 env.nextInt)]) h]
    linarith [abs_nonneg (int32 env.nextInt)]
  · have habs : |int32 env.nextInt| ≤ 2 ^ 31 := abs_le.mpr ⟨hbounds.1, hbounds.2.le⟩
    rw [int32_wraps (by omega) (by omega)]
    omega

section

variable {s : WifiDisplaySource}

theorem setUpPlaybackSession_sound (h : PlayStates s) (env : Env) (sessionID cseq : ℤ)
    (transport : Transport) : Sound (setUpPlaybackSession env sessionID cseq transport) s := by
  unfold setUpPlaybackSession
  refine .get_bind ?_
  dsimp only
  refine .seq (call_ends _ s) (fun _ _ _ => trivial) ?_
  rintro ⟨err, playbackSession⟩ t ⟨rfl, -⟩
  refine .ite (fun _ => ?_) fun _ => ?_
  · refine .seq (sendErrorResponse_ends ..) (fun _ _ _ => trivial) fun _ u hu => ?_
    exact .pure (h.of_control hu.toControl)
  · refine .modify_bind (.modify_bind (.seq (sendRequest_ends ..) (fun _ _ _ => trivial) ?_))
    rintro err u ⟨hu, -⟩
    have hsession : u.mClientInfo.mPlaybackSession ≠ none ∧ u.mClientInfo.mPlaybackSessionID ≠ -1 := by
      rw [hu.mClientInfo]
      exact ⟨nofun, makeUniquePlaybackSessionID_ne env⟩
    refine .ite (fun _ => .pure ⟨fun _ => hsession, fun hplaying => ?_⟩) fun _ => ?_
    · rw [hu.mPlaybackSessionEstablished]
      exact h.established (hu.mState ▸ hplaying)
    · refine .modify_bind (.seq (scheduleReaper_ends _) (fun _ _ h => h.elim) fun _ v hv => ?_)
      refine .seq (scheduleKeepAlive_ends ..) (fun _ _ h => h.elim) fun _ w hw => .pure ?_
      exact PlayStates.of_control (s := { u with mState := .AWAITING_CLIENT_PLAY })
        ⟨fun _ => hsession, nofun⟩ (hv.trans hw).toControl

variable [CharData]

theorem onSetupRequest_sound (h : PlayStates s) (env : Env) (sessionID cseq : ℤ)
    (data : ParsedMessage) : Sound (onSetupRequest env sessionID cseq data) s := by
  have herror : ∀ (detail : JString) (err : ℤ), Sound (do
      sendErrorResponse env sessionID detail cseq
      return err) s := fun detail err =>
    .seq (sendErrorResponse_ends ..) (fun _ _ _ => trivial)
      fun _ t ht => .pure (h.of_control ht.toControl)
  unfold onSetupRequest
  refine .get_bind (.ite (fun _ => .throw_bind trivial) fun _ => .get_bind ?_)
  refine .ite (fun _ => herror ..) fun _ => ?_
  split
  · exact herror ..
  refine .seq (call_ends _ s) (fun _ _ _ => trivial) ?_
  rintro (⟨detail, err⟩ | transport) t ⟨rfl, -⟩
  · exact herror ..
  refine .seq (call_ends _ t) (fun _ _ _ => trivial) ?_
  rintro uri t ⟨rfl, -⟩
  refine .ite (fun _ => herror ..) fun _ => .ite (fun _ => herror ..) fun _ => ?_
  exact setUpPlaybackSession_sound h env sessionID cseq transport

theorem onOptionsRequest_sound (h : PlayStates s) (env : Env) (sessionID cseq : ℤ)
    (data : ParsedMessage) : Sound (onOptionsRequest env sessionID cseq data) s := by
  refine h.of_keeps ?_
  unfold onOptionsRequest
  refine .bind ((findPlaybackSession_ends data s).mono (fun _ _ ht => ht.1 ▸ .refl s)
    fun _ _ ht => ht.1 ▸ .refl s) fun found t _ => ?_
  refine .bind (.ite (fun _ => .modify { Steady.refl t with }) fun _ => .pure) fun _ t _ => ?_
  refine .bind ((sendRequest_ends ..).mono (fun _ _ hu => hu.1.toSteady)
    fun _ _ hu => hu.1 ▸ .refl t) fun err t _ => ?_
  exact .ite (fun _ => .pure) fun _ => (sendAndRegister_keeps ..).imp fun _ hu => hu.toSteady

omit [CharData] in
/-- `PLAY` is accepted in three states only; without an established session, in the first. -/
theorem PlayStates.awaitingPlay (h : PlayStates s)
    (hstate : s.mState = .AWAITING_CLIENT_PLAY ∨ s.mState = .PAUSED_TO_PLAYING ∨
      s.mState = .PAUSED)
    (hplaying : ¬ (s.mState = .PAUSED_TO_PLAYING ∨ s.mPlaybackSessionEstablished = true)) :
    s.mState = .AWAITING_CLIENT_PLAY := by
  rcases hstate with hawaiting | hresuming | hpaused
  · exact hawaiting
  · exact absurd (.inl hresuming) hplaying
  · exact absurd (.inr (h.established (by rw [hpaused]; rfl))) hplaying

theorem onPlayRequest_ends (h : PlayStates s) (env : Env) (sessionID cseq : ℤ)
    (data : ParsedMessage) :
    Ends (onPlayRequest env sessionID cseq data) s (fun _ t => PlayStates t)
      (fun e _ => s.playbackSessionFor data = .error e ∨ s.IsServer sessionID) := by
  unfold onPlayRequest
  refine .seq (findPlaybackSession_ends data s) (fun _ _ ht => .inl ht.2) ?_
  rintro ⟨_ | session, playbackSessionID⟩ t ⟨rfl, hfound⟩
  · refine .ite (fun _ => ?_) fun hne => absurd rfl hne
    exact (sessionNotFound_ends ..).mono (fun _ _ hu => h.of_control hu.toControl)
      fun _ _ hu => .inr hu.2.2
  have hsession := mem_of_playbackSessionFor hfound
  refine .ite (fun hnone => nomatch hnone) fun _ => .get_bind ?_
  refine .ite (fun _ => ?_) fun hstate => ?_
  · exact .seq (sendErrorResponse_ends ..) (fun _ _ hu => .inr hu.2.2)
      fun _ _ hu => .pure (h.of_control hu.toControl)
  refine .bind (Q := fun _ u => Control t u) ?_ fun _ u hu => ?_
  · refine .ite (fun _ => (finishPlay_ends env t).mono (fun _ _ hu => hu.toControl) fun _ _ hu => ?_)
      fun _ => .pure (.refl t)
    rw [hsession] at hu
    exact nomatch hu.2.2
  refine .seq (sendRequest_ends ..) (fun _ _ hv => ?_) fun err v hv => ?_
  · refine .inr ?_
    unfold IsServer CanSend
    rw [← hu.mNetSession]
    exact hv.2.2
  have hcontrol := hu.trans hv.1.toControl
  have hsetUp : t.mState.isSetUp := by
    cases hmState : t.mState <;> simp [hmState] at hstate <;> rfl
  refine .ite (fun _ => .pure (h.of_control hcontrol)) fun _ => .ite (fun hplaying => ?_)
    fun hplaying => .ite (fun hne => ?_) fun _ => ?_
  · refine .modify_bind (.pure ⟨fun _ => ?_, fun _ => ?_⟩)
    · rw [hcontrol.mClientInfo]
      exact h.session hsetUp
    · rw [hcontrol.mPlaybackSessionEstablished]
      exact hplaying.elim (fun hpaused => h.established (by rw [hpaused]; rfl)) id
  · exact absurd (h.awaitingPlay (by tauto) hplaying) hne
  · refine .modify_bind (.pure ⟨fun _ => ?_, nofun⟩)
    rw [hcontrol.mClientInfo]
    exact h.session hsetUp

theorem onPauseRequest_sound (h : PlayStates s) (env : Env) (sessionID cseq : ℤ)
    (data : ParsedMessage) : Sound (onPauseRequest env sessionID cseq data) s := by
  unfold onPauseRequest
  refine .seq (findPlaybackSession_ends data s) (fun _ _ _ => trivial) ?_
  rintro ⟨playbackSession, playbackSessionID⟩ t ⟨rfl, -⟩
  refine .ite (fun _ => ?_) fun _ => .get_bind (.ite (fun _ => .pure h) fun hstate => ?_)
  · exact (sessionNotFound_ends ..).mono (fun _ _ hu => h.of_control hu.toControl)
      fun _ _ _ => trivial
  have hplaying : t.mState.isPlaying := by
    cases hmState : t.mState <;> simp [hmState] at hstate <;> rfl
  have hsetUp : t.mState.isSetUp := by
    cases hmState : t.mState <;> simp [hmState] at hstate <;> rfl
  refine .seq (pause_ends env t) (fun _ _ _ => trivial) fun err u hu => ?_
  refine .ite (fun _ => .throw_bind trivial) fun _ => ?_
  refine .seq (sendRequest_ends ..) (fun _ _ _ => trivial) fun err v hv => ?_
  have hcontrol := hu.2.toControl.trans hv.1.toControl
  refine .ite (fun _ => .pure (h.of_control hcontrol)) fun _ => .modify_bind (.pure ⟨?_, ?_⟩)
  · intro _
    rw [hcontrol.mClientInfo]
    exact h.session hsetUp
  · intro _
    rw [hcontrol.mPlaybackSessionEstablished]
    exact h.established hplaying

theorem onTeardownRequest_sound (h : PlayStates s) (env : Env) (sessionID cseq : ℤ)
    (data : ParsedMessage) : Sound (onTeardownRequest env sessionID cseq data) s := by
  unfold onTeardownRequest
  refine .seq (findPlaybackSession_ends data s) (fun _ _ _ => trivial) ?_
  rintro ⟨playbackSession, playbackSessionID⟩ t ⟨rfl, -⟩
  refine .ite (fun _ => ?_) fun _ => ?_
  · exact (sessionNotFound_ends ..).mono (fun _ _ hu => h.of_control hu.toControl)
      fun _ _ _ => trivial
  refine .seq (sendRequest_ends ..) (fun _ _ _ => trivial) fun _ u hu => .get_bind ?_
  refine .bind (Q := fun _ v => PlayStates v) (.ite (fun _ => ?_) fun _ => ?_)
    fun _ v hv => .pure hv
  · refine .ite (fun _ => .throw_bind trivial) fun _ => ?_
    exact (finishStop_ends u).mono (fun _ _ hv => .of_state hv) fun _ _ _ => trivial
  · exact .pure (h.of_control hu.1.toControl)

theorem onGetParameterRequest_sound (h : PlayStates s) (env : Env) (sessionID cseq : ℤ)
    (data : ParsedMessage) : Sound (onGetParameterRequest env sessionID cseq data) s := by
  unfold onGetParameterRequest
  refine .seq (findPlaybackSession_ends data s) (fun _ _ _ => trivial) ?_
  rintro ⟨playbackSession, playbackSessionID⟩ t ⟨rfl, -⟩
  refine .ite (fun _ => ?_) fun _ => .seq (updateLiveness_ends env t) (fun _ _ hu => hu.elim) ?_
  · exact (sessionNotFound_ends ..).mono (fun _ _ hu => h.of_control hu.toControl)
      fun _ _ _ => trivial
  · intro _ u hu
    exact (sendRequest_ends ..).mono (fun _ _ hv => h.of_control (hu.trans hv.1).toControl)
      fun _ _ _ => trivial

theorem onSetParameterRequest_sound (h : PlayStates s) (env : Env) (sessionID cseq : ℤ)
    (data : ParsedMessage) : Sound (onSetParameterRequest env sessionID cseq data) s := by
  unfold onSetParameterRequest
  refine .seq (findPlaybackSession_ends data s) (fun _ _ _ => trivial) ?_
  rintro ⟨playbackSession, playbackSessionID⟩ t ⟨rfl, -⟩
  refine .ite (fun _ => ?_) fun _ => .bind (Q := fun _ u => Control t u) ?_ fun _ u hu => ?_
  · exact (sessionNotFound_ends ..).mono (fun _ _ hu => h.of_control hu.toControl)
      fun _ _ _ => trivial
  · exact .ite (fun _ => (requestIDRFrame_ends env t).mono (fun _ _ hu => hu.toControl)
      fun _ _ _ => trivial) fun _ => .pure (.refl t)
  · refine .seq (updateLiveness_ends env u) (fun _ _ hv => hv.elim) fun _ v hv => ?_
    exact (sendRequest_ends ..).mono
      (fun _ _ hw => h.of_control (hu.trans (hv.trans hw.1).toControl)) fun _ _ _ => trivial

theorem onRequest_sound (h : PlayStates s) (env : Env) (sessionID cseq : ℤ) (method : JString)
    (data : ParsedMessage) : Sound (onRequest env sessionID cseq method data) s := by
  unfold onRequest
  split
  · exact onOptionsRequest_sound h env sessionID cseq data
  split
  · exact onSetupRequest_sound h env sessionID cseq data
  split
  · exact (onPlayRequest_ends h env sessionID cseq data).mono (fun _ _ hu => hu)
      fun _ _ _ => trivial
  split
  · exact onPauseRequest_sound h env sessionID cseq data
  split
  · exact onTeardownRequest_sound h env sessionID cseq data
  split
  · exact onGetParameterRequest_sound h env sessionID cseq data
  split
  · exact onSetParameterRequest_sound h env sessionID cseq data
  · exact .seq (sendErrorResponse_ends ..) (fun _ _ _ => trivial)
      fun _ t ht => .pure (h.of_control ht.toControl)

theorem onReceiveClientData_sound (h : PlayStates s) (env : Env) (sessionID : ℤ)
    (data : ParsedMessage) : Sound (onReceiveClientData env sessionID data) s :=
  onReceiveClientData_ends (fun cseq _ => h.of_keeps (onResponse_keeps env sessionID cseq data s))
    (fun method cseq _ => onRequest_sound h env sessionID cseq method data)
    fun _ => ⟨fun _ _ ht => h.of_control ht.toControl, fun _ => trivial⟩

/-! ## Messages -/

theorem onStart_sound (env : Env) (msg : ℕ) (iface : Option JString) (s : WifiDisplaySource) :
    Sound (onStart env msg iface) s := by
  unfold onStart
  split
  · exact .throw trivial
  · dsimp only
    exact .bind .trivial fun err t _ => .modify_bind (.modify (.of_state rfl))

omit [CharData] in
theorem onClientConnected_sound (h : PlayStates s) (env : Env) (sessionID : ℤ)
    (clientIP serverIP : Option JString) (serverPort : ℤ) :
    Sound (onClientConnected env sessionID clientIP serverIP serverPort) s := by
  unfold onClientConnected
  refine .get_bind (.ite (fun _ => ?_) fun _ => .get_bind (.ite (fun _ => ?_) fun hstate => ?_))
  · exact .modify_bind (.modify (h.of_fields rfl rfl rfl))
  · exact .throw_bind trivial
  have hidle : s.mState.isSetUp = false := by
    rw [not_not.mp hstate]
    rfl
  refine .ite (fun _ => .throw_bind trivial) fun _ => .modify_bind ?_
  refine .ite (fun _ => .throw_bind trivial) fun _ => .modify_bind ?_
  refine .ite (fun _ => .modify_bind (.modify (.of_state hidle))) fun _ => ?_
  refine .modify_bind (.modify_bind (.modify_bind ?_))
  refine .seq (sendAndRegister_ends ..) (fun _ _ _ => trivial) fun err t ht => ?_
  refine .ite (fun _ => .throw trivial) fun _ => .pure (.of_state ?_)
  rw [ht.1.mState]
  rfl

theorem onRtspNotify_sound (h : PlayStates s) (env : Env) (n : NetNotification) :
    Sound (onRtspNotify env n) s := by
  unfold onRtspNotify
  split
  · exact onClientConnected_sound h env _ _ _ _
  · refine .bind (.modify_bind (.modify (Q := fun _ t => PlayStates t) (h.of_fields rfl rfl rfl)))
      fun _ t ht => .get_bind ?_
    exact .ite (fun _ => .modify (ht.of_fields rfl rfl rfl)) fun _ => .pure ht
  · exact .bind (onReceiveClientData_sound h env _ _) fun _ t ht => .pure ht
  · exact .pure h
  all_goals exact .throw trivial

omit [CharData] in
theorem onStop_sound (env : Env) (msg : ℕ) (s : WifiDisplaySource) : Sound (onStop env msg) s := by
  unfold onStop
  refine .modify_bind (.get_bind (.ite (fun _ => .throw_bind trivial) fun _ => ?_))
  refine .ite (fun _ => ?_) fun _ =>
    (finishStop_ends _).mono (fun _ _ ht => .of_state ht) fun _ _ _ => trivial
  refine .seq (sendAndRegister_ends ..) (fun _ _ _ => trivial) fun err t _ => ?_
  refine .ite (fun _ => .modify_bind (.modify (.of_state rfl))) fun _ => ?_
  exact (finishStop_ends _).mono (fun _ _ ht => .of_state ht) fun _ _ _ => trivial

omit [CharData] in
/-- `pause` and `resume` leave a state of playing for another one. -/
theorem onTrigger_sound (h : PlayStates s) (env : Env) (msg : ℕ) {expected next : State}
    (hexpected : expected.isPlaying) (triggerType : TriggerType) :
    Sound (onTrigger env msg expected next triggerType) s := by
  unfold onTrigger
  refine .get_bind (.ite (fun _ => .modify (h.of_fields rfl rfl rfl)) fun hstate => ?_)
  rw [not_not] at hstate
  have hsetUp : s.mState.isSetUp := by
    rw [hstate]
    cases expected <;> simp_all [State.isPlaying, State.isSetUp]
  have hnext : PlayStates { s with mState := next } :=
    ⟨fun _ => h.session hsetUp, fun _ => h.established (hstate ▸ hexpected)⟩
  refine .modify_bind (.seq (sendAndRegister_ends ..) (fun _ _ _ => trivial) fun err t ht => ?_)
  exact .modify ((hnext.of_control ht.1.toControl).of_fields rfl rfl rfl)

omit [CharData] in
theorem onReapDeadClients_sound (h : PlayStates s) (env : Env) :
    Sound (onReapDeadClients env) s := by
  unfold onReapDeadClients
  have h' : PlayStates { s with mReaperPending := false } := h.of_fields rfl rfl rfl
  refine .modify_bind (.get_bind (.ite (fun _ => .pure h') fun _ => ?_))
  split
  · exact .pure h'
  · refine .ite (fun _ => ?_) fun _ => ?_
    · exact .bind (.modify_bind (.modify (Q := fun _ t => PlayStates t)
        (h.of_fields rfl rfl rfl))) fun _ t ht => .modify (ht.of_fields rfl rfl rfl)
    · exact (scheduleReaper_ends _).mono (fun _ _ ht => h'.of_control ht.toControl)
        fun _ _ _ => trivial

omit [CharData] in
theorem onPlaybackSessionNotify_sound (h : PlayStates s) (env : Env) (sessionID : ℤ)
    (n : PlaybackNotification) : Sound (onPlaybackSessionNotify env sessionID n) s := by
  unfold onPlaybackSessionNotify
  split
  · exact .pure h
  · have h' : PlayStates { s with mPlaybackSessionEstablished := true } :=
      ⟨h.session, fun _ => rfl⟩
    refine .modify_bind (.seq (finishPlay_ends env _) (fun _ _ _ => trivial) fun _ t ht => ?_)
    have h'' := h'.of_control ht.toControl
    refine .get_bind (.ite (fun hstate => .modify ⟨fun _ => ?_, fun _ => ?_⟩) fun _ => .pure h'')
    · exact h''.session (by rw [hstate]; rfl)
    · rw [ht.mPlaybackSessionEstablished]
  · exact (disconnectClient2_ends s).mono (fun _ _ ht => .of_state (by rw [ht]; rfl))
      fun _ _ _ => trivial
  · unfold onBinaryData
    refine .ite (fun _ => .throw_bind trivial) fun _ => .ite (fun _ => .throw_bind trivial) ?_
    intro _
    refine .get_bind ?_
    split
    · exact .pure h
    · exact .ite (fun _ => .modify_bind (.modify (h.of_fields rfl rfl rfl)))
        fun _ => .throw trivial

theorem onMessageReceived_sound (h : PlayStates s) (env : Env) (msg : Message) :
    Sound (onMessageReceived env msg) s := by
  cases msg with
  | start msg iface => exact onStart_sound env msg iface s
  | rtspNotify n => exact onRtspNotify_sound h env n
  | stop msg => exact onStop_sound env msg s
  | pause msg => exact onTrigger_sound h env msg rfl _
  | resume msg => exact onTrigger_sound h env msg rfl _
  | reapDeadClients => exact onReapDeadClients_sound h env
  | playbackSessionNotify playbackSessionID sessionID n =>
      exact onPlaybackSessionNotify_sound h env sessionID n
  | keepAlive sessionID =>
      refine .get_bind (.ite (fun _ => .pure h) fun _ => ?_)
      exact .seq (sendM16_ends ..) (fun _ _ _ => trivial)
        fun _ t ht => .pure (h.of_control ht.toControl)
  | finishStop2 =>
      exact (finishStop2_ends s).mono (fun _ _ ht => .of_state (by rw [ht]; rfl))
        fun _ _ _ => trivial
  | teardownTriggerTimedOut =>
      refine .get_bind (.ite (fun _ => .ite (fun _ => .throw_bind trivial) fun _ => ?_)
        fun _ => .pure h)
      exact (finishStop_ends s).mono (fun _ _ ht => .of_state ht) fun _ _ _ => trivial

/-! ## Runs -/

/-- The states that runs reach without an exception. -/
def Reachable (s : WifiDisplaySource) : Prop :=
  ∃ table mNetSession mMediaProjection first events,
    construct table mNetSession mMediaProjection = .ok first ∧ run first events = (.ok (), s)

theorem step_playStates (h : PlayStates s) (event : Event) {t : WifiDisplaySource}
    (hstep : step s event = (.ok (), t)) : PlayStates t := by
  cases event with
  | start =>
      rw [step, Prod.mk.injEq] at hstep
      exact hstep.2 ▸ h
  | message env msg => exact (onMessageReceived_sound h env msg).of_ok hstep
  | addSession sessionID mState =>
      cases hstep
      exact h.of_fields rfl rfl rfl

theorem run_playStates (h : PlayStates s) (events : List Event) {t : WifiDisplaySource}
    (hrun : run s events = (.ok (), t)) : PlayStates t := by
  induction events generalizing s with
  | nil =>
      cases hrun
      exact h
  | cons event events ih =>
      rw [run] at hrun
      split at hrun
      · rename_i hstep
        exact ih (step_playStates h event hstep) hrun
      · cases hrun

theorem Reachable.playStates (hs : Reachable s) : PlayStates s := by
  obtain ⟨table, mNetSession, mMediaProjection, first, events, hfirst, hrun⟩ := hs
  refine run_playStates (.of_state ?_) events hrun
  unfold construct at hfirst
  obtain ⟨source, -, hfirst⟩ := bind_eq_ok.mp hfirst
  obtain ⟨sink, -, hfirst⟩ := bind_eq_ok.mp hfirst
  obtain ⟨source, -, hfirst⟩ := bind_eq_ok.mp hfirst
  obtain ⟨source, -, hfirst⟩ := bind_eq_ok.mp hfirst
  cases hfirst
  rfl

/-- In every reachable state the states after `SETUP` have a playback session with an identifier
and those of playing an established one; so where `PLAY` checks its state the check holds, and
`PLAY` throws only if its `session` header is not a number or if nothing can be sent to its
sender. -/
theorem playback_session_of_reachable (hs : Reachable s) :
    (s.mState.isSetUp → s.mClientInfo.mPlaybackSession ≠ none ∧
      s.mClientInfo.mPlaybackSessionID ≠ -1) ∧
    (s.mState.isPlaying → s.mPlaybackSessionEstablished = true) ∧
    (s.mState = .AWAITING_CLIENT_PLAY ∨ s.mState = .PAUSED_TO_PLAYING ∨ s.mState = .PAUSED →
      ¬ (s.mState = .PAUSED_TO_PLAYING ∨ s.mPlaybackSessionEstablished = true) →
      s.mState = .AWAITING_CLIENT_PLAY) ∧
    ∀ env sessionID cseq data e t,
      (onPlayRequest env sessionID cseq data).run s = (.error e, t) →
        s.playbackSessionFor data = .error e ∨ s.IsServer sessionID :=
  ⟨hs.playStates.session, hs.playStates.established, hs.playStates.awaitingPlay,
    fun env sessionID cseq data _ _ hrun =>
      (onPlayRequest_ends hs.playStates env sessionID cseq data).of_error hrun⟩

end

/-! ## A run -/

/-- A platform without delays or failures. -/
def quietEnv (nowUs : ℤ) : Env where
  nowUs
  date := []
  release := []
  nextInt := 77
  isKnownHost := true
  opensServer := true
  bindsServer := true
  serverSessionID := 1
  media := ⟨.ok 0, 0, 5000, []⟩

/-- A message of the sink. -/
def sinkMessage (sessionID : ℤ) (line cseq : String) (headers : List (JString × JString))
    (content : String) : Message :=
  .rtspNotify (.session sessionID
    (.data ⟨(jstr "_", jstr line) :: (jstr "cseq", jstr cseq) :: headers, jstr content, 1⟩))

/-- The sink connects as session 2, and asks for `SETUP` after the answer to M3. -/
def setUpEvents : List Event :=
  [.message (quietEnv 0) (.start 1 (some (jstr "10.0.0.1"))),
    .addSession 2 .CONNECTED,
    .message (quietEnv 0) (.rtspNotify
      (.clientConnected 2 (some (jstr "10.0.0.2")) (some (jstr "10.0.0.1")) 7236)),
    .message (quietEnv 0) (sinkMessage 2 "OPTIONS * RTSP/1.0" "1" [] ""),
    .message (quietEnv 0) (sinkMessage 2 "RTSP/1.0 200 OK" "2" []
      ("wfd_client_rtp_ports: RTP/AVP/UDP;unicast 19000 0 mode=play\r\n" ++
        "custom_video_formats: 1280 720 30 1 1\r\n" ++ "wfd_audio_codecs: none\r\n")),
    .message (quietEnv 0) (sinkMessage 2 "SETUP rtsp://10.0.0.1/wfd1.0/streamid=0 RTSP/1.0" "2"
      [(jstr "transport", jstr "RTP/AVP/UDP;unicast")] "")]

/-- The playback session is established, and the sink asks for `PLAY`. -/
def playEvents : List Event :=
  [.message (quietEnv 0) (.playbackSessionNotify 77 2 .sessionEstablished),
    .message (quietEnv 0) (sinkMessage 2 "PLAY rtsp://10.0.0.1/wfd1.0/streamid=0 RTSP/1.0" "3" [] "")]

/-- The run of a new source ends without an exception in a state as `p` says. -/
def endsIn [CharData] (events : List Event) (p : WifiDisplaySource → Bool) : Bool :=
  match construct .initial (fun _ => none) true with
  | .ok first =>
      match run first events with
      | (.ok (), s) => p s
      | (.error _, _) => false
  | .error _ => false

theorem exists_reachable [CharData] {events : List Event} {p : WifiDisplaySource → Bool}
    (h : endsIn events p) : ∃ s, Reachable s ∧ p s := by
  unfold endsIn at h
  split at h
  · rename_i first hfirst
    split at h
    · rename_i s hrun
      exact ⟨s, ⟨_, _, _, first, events, hfirst, hrun⟩, h⟩
    · cases h
  · cases h

theorem playback_session_when_playing :
    ∃ s, @Reachable CharData.ascii s ∧ s.mState = .PLAYING ∧
      s.mClientInfo.mPlaybackSession ≠ none ∧ s.mPlaybackSessionEstablished = true := by
  let _ := CharData.ascii
  have hend : endsIn (setUpEvents ++ playEvents) fun s => s.mState = .PLAYING := by
    decide +kernel
  obtain ⟨s, hs, hstate⟩ := exists_reachable hend
  have hstate : s.mState = .PLAYING := of_decide_eq_true hstate
  obtain ⟨hsession, hestablished, -⟩ := playback_session_of_reachable hs
  exact ⟨s, hs, hstate, (hsession (by rw [hstate]; rfl)).1, hestablished (by rw [hstate]; rfl)⟩

end MirrorCast.WifiDisplaySource
