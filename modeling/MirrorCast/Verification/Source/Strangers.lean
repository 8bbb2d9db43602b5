import MirrorCast.Verification.Source.Playing

/-! # Messages of sessions that are not the client's -/

namespace MirrorCast.WifiDisplaySource

open Java
open ANetworkSession (OK)

/-- What only the client is to change stays as it is. -/
structure Untouched (s t : WifiDisplaySource) : Prop where
  mState : t.mState = s.mState
  mClientInfo : t.mClientInfo = s.mClientInfo
  mClientSessionID : t.mClientSessionID = s.mClientSessionID
  mStopReplyTo : t.mStopReplyTo = s.mStopReplyTo
  drives : t.effects.filter Effect.drives = s.effects.filter Effect.drives
  negotiated : t.negotiated = s.negotiated

theorem Quiet.untouched {s t : WifiDisplaySource} (h : Quiet s t) : Untouched s t where
  mState := h.mState
  mClientInfo := h.mClientInfo
  mClientSessionID := h.mClientSessionID
  mStopReplyTo := h.mStopReplyTo
  drives := h.drives
  negotiated := h.negotiated

theorem not_untouched {effect : Effect} {s t : WifiDisplaySource}
    (h : t.effects.filter Effect.drives = s.effects.filter Effect.drives ++ [effect]) :
    ¬ Untouched s t := by
  intro huntouched
  rw [huntouched.drives, List.self_eq_append_right] at h
  cases h

/-- However it ends, the computation touches these fields exactly if `c` holds. -/
def Touches {α : Type} (c : Prop) (x : Handler α) (s : WifiDisplaySource) : Prop :=
  Ends x s (fun _ t => Untouched s t ↔ ¬ c) (fun _ t => Untouched s t ↔ ¬ c)

theorem Touches.of_quiet {α : Type} {c : Prop} {x : Handler α} {s : WifiDisplaySource} (hc : ¬ c)
    (hx : Keeps Quiet x s) : Touches c x s :=
  hx.mono (fun _ _ ht => iff_of_true ht.untouched hc) fun _ _ ht => iff_of_true ht.untouched hc

section

variable [CharData] {s : WifiDisplaySource}

/-! ## Requests -/

/-- A request for the playback session touches nothing if that is not found. -/
theorem findPlaybackSession_touches {c : Prop} {data : ParsedMessage} {env : Env}
    {sessionID cseq : ℤ} {f : Option PlaybackSession × ℤ → Handler ℤ}
    (hnone : ∀ playbackSessionID, f (none, playbackSessionID) = sessionNotFound env sessionID cseq)
    (hsome : ∀ session playbackSessionID, s.mClientInfo.mPlaybackSession = some session →
      Touches c (f (some session, playbackSessionID)) s) :
    Touches (s.Finds data ∧ c) (findPlaybackSession data >>= f) s := by
  refine .seq (findPlaybackSession_ends data s) ?_ ?_
  · rintro e t ⟨rfl, hthrows⟩
    refine iff_of_true (Quiet.refl t).untouched ?_
    rintro ⟨⟨session, playbackSessionID, hfound⟩, -⟩
    rw [hthrows] at hfound
    cases hfound
  rintro ⟨_ | session, playbackSessionID⟩ t ⟨rfl, hfound⟩
  · rw [hnone]
    refine Touches.of_quiet ?_ (.bind (sendErrorResponse_quiet ..) fun _ _ _ => .pure)
    rintro ⟨⟨session, otherID, hother⟩, -⟩
    rw [hfound] at hother
    cases hother
  · have hfinds : t.Finds data := ⟨session, playbackSessionID, hfound⟩
    simpa only [Touches, hfinds, true_and] using
      hsome session playbackSessionID (mem_of_playbackSessionFor hfound)

theorem onPlayRequest_touches (h : PlayStates s) (env : Env) (sessionID cseq : ℤ)
    (data : ParsedMessage) :
    Touches (s.Finds data ∧
        (s.mState = .AWAITING_CLIENT_PLAY ∨ s.mState = .PAUSED_TO_PLAYING ∨ s.mState = .PAUSED) ∧
        (s.mPlaybackSessionEstablished = true ∨ s.CanSend sessionID))
      (onPlayRequest env sessionID cseq data) s := by
  unfold onPlayRequest
  refine findPlaybackSession_touches (fun _ => if_pos rfl) fun session _ hsession => ?_
  refine .ite (fun hnone => nomatch hnone) fun _ => .get_bind (.ite (fun hstate => ?_) ?_)
  · refine Touches.of_quiet ?_ (.bind (sendErrorResponse_quiet ..) fun _ _ _ => .pure)
    rintro ⟨hmState | hmState | hmState, -⟩ <;> simp [hmState] at hstate
  intro hstate
  have hstates : s.mState = .AWAITING_CLIENT_PLAY ∨ s.mState = .PAUSED_TO_PLAYING ∨
      s.mState = .PAUSED := by
    cases hmState : s.mState <;> simp [hmState] at hstate ⊢
  cases hestablished : s.mPlaybackSessionEstablished with
  | true =>
      have hno : ¬ ¬ (((s.mState = .AWAITING_CLIENT_PLAY ∨ s.mState = .PAUSED_TO_PLAYING ∨
          s.mState = .PAUSED)) ∧ (true = true ∨ s.CanSend sessionID)) :=
        not_not.mpr ⟨hstates, .inl rfl⟩
      refine .seq (.ite (fun _ => finishPlay_ends env s) fun hne => absurd rfl hne) ?_ ?_
      · rintro _ _ ⟨-, -, hnone⟩
        rw [hsession] at hnone
        cases hnone
      intro _ t ht
      refine .seq (sendRequest_ends ..) ?_ ?_
      · rintro _ _ ⟨rfl, -⟩
        exact iff_of_false (not_untouched ht.drives) hno
      rintro err u ⟨hu, -⟩
      have hdrives := hu.drives.trans ht.drives
      refine .ite (fun _ => .pure (iff_of_false (not_untouched hdrives) hno)) fun _ => ?_
      refine .ite (fun _ => .modify_bind (.pure ?_)) fun hne => absurd (.inr rfl) hne
      exact iff_of_false (not_untouched hdrives) hno
  | false =>
      -- without an established session nothing is played yet
      have hwaiting : s.mState = .AWAITING_CLIENT_PLAY := by
        rcases hstates with hmState | hmState | hmState
        · exact hmState
        all_goals
          have := h.established (by rw [hmState]; rfl)
          rw [hestablished] at this
          cases this
      refine .pure_bind (.seq (sendRequest_ends ..) ?_ ?_)
      · rintro _ t ⟨rfl, -, -, hserver⟩
        exact iff_of_true (Quiet.refl t).untouched fun hc => hc.2.elim nofun hserver
      rintro err u ⟨hu, ⟨rfl, hsend⟩ | ⟨herr, hnone⟩⟩
      · refine .ite (fun hne => absurd rfl hne) fun _ => ?_
        refine .ite (fun hplaying => ?_) fun _ => .ite (fun hne => absurd hwaiting hne) fun _ => ?_
        · exact absurd hplaying (by simp [hwaiting])
        refine .modify_bind (.pure (iff_of_false (fun huntouched => ?_) ?_))
        · have hmState := huntouched.mState
          rw [hwaiting] at hmState
          cases hmState
        · exact not_not.mpr ⟨hstates, .inr hsend⟩
      · refine .ite (fun _ => .pure (iff_of_true hu.untouched ?_)) fun h => absurd herr h
        rintro ⟨-, h | h | h⟩
        · cases h
        all_goals
          rw [hnone] at h
          cases h

theorem onPauseRequest_touches (env : Env) (sessionID cseq : ℤ) (data : ParsedMessage) :
    Touches (s.Finds data ∧ (s.mState = .PLAYING_TO_PAUSED ∨ s.mState = .PLAYING))
      (onPauseRequest env sessionID cseq data) s := by
  unfold onPauseRequest
  refine findPlaybackSession_touches (fun _ => if_pos rfl) fun session _ hsession => ?_
  refine .ite (fun hnone => nomatch hnone) fun _ => .get_bind (.ite (fun hstate => ?_) ?_)
  · exact Touches.of_quiet (fun hc => hc.elim hstate.1 hstate.2) .pure
  intro hstate
  have hc : ¬ ¬ (s.mState = .PLAYING_TO_PAUSED ∨ s.mState = .PLAYING) := by tauto
  refine .seq (pause_ends env s) (fun _ _ h => h.elim) ?_
  rintro _ t ⟨rfl, ht⟩
  refine .ite (fun hne => absurd rfl hne) fun _ => .seq (sendRequest_ends ..) ?_ ?_
  · rintro _ _ ⟨rfl, -⟩
    exact iff_of_false (not_untouched ht.drives) hc
  rintro err u ⟨hu, -⟩
  have hdrives := hu.drives.trans ht.drives
  refine .ite (fun _ => .pure (iff_of_false (not_untouched hdrives) hc)) fun _ => ?_
  exact .modify_bind (.pure (iff_of_false (not_untouched hdrives) hc))

omit [CharData] in
/-- As long as there is a playback session, stopping only begins. -/
theorem finishStop_stopping {session : PlaybackSession}
    (hsession : s.mClientInfo.mPlaybackSession = some session) :
    Ends finishStop s (fun _ t => t.mState = .STOPPING) (fun _ _ => False) := by
  unfold finishStop disconnectClientAsync
  refine .modify_bind (.get_bind ?_)
  dsimp only
  rw [hsession]
  exact .modify rfl

theorem onTeardownRequest_touches (env : Env) (sessionID cseq : ℤ) (data : ParsedMessage) :
    Touches (s.Finds data ∧ s.mState = .AWAITING_CLIENT_TEARDOWN ∧ s.mStopReplyTo ≠ none ∧
        ¬ s.IsServer sessionID)
      (onTeardownRequest env sessionID cseq data) s := by
  unfold onTeardownRequest
  refine findPlaybackSession_touches (fun _ => if_pos rfl) fun session _ hsession => ?_
  refine .ite (fun hnone => nomatch hnone) fun _ => .seq (sendRequest_ends ..) ?_ ?_
  · rintro _ t ⟨rfl, -, hserver⟩
    exact iff_of_true (Quiet.refl t).untouched fun hc => hc.2.2 hserver
  rintro err t ⟨ht, hsent⟩
  have hserver : ¬ s.IsServer sessionID := by
    rintro ⟨hsome, hcannot⟩
    exact hsent.elim (fun h => hcannot h.2) fun h => hsome h.2
  refine .get_bind (.bind (Q := fun _ u => Untouched s u ↔ ¬ (s.mState = .AWAITING_CLIENT_TEARDOWN ∧
    s.mStopReplyTo ≠ none ∧ ¬ s.IsServer sessionID)) ?_ fun _ u hu => .pure hu)
  refine .ite (fun hstate => .ite (fun hnone => ?_) fun hreply => ?_) fun hstate => ?_
  · rw [ht.mStopReplyTo] at hnone
    exact .throw_bind (iff_of_true ht.untouched fun hc => hc.2.1 hnone)
  · rw [ht.mState] at hstate
    rw [ht.mStopReplyTo] at hreply
    rw [← ht.mClientInfo] at hsession
    refine (finishStop_stopping hsession).mono (fun _ u hu => iff_of_false ?_ ?_) fun _ _ h => h.elim
    · intro huntouched
      have hmState := huntouched.mState
      rw [hu, hstate] at hmState
      cases hmState
    · exact not_not.mpr ⟨hstate, hreply, hserver⟩
  · rw [ht.mState] at hstate
    exact .pure (iff_of_true ht.untouched fun hc => hstate hc.1)

omit [CharData] in
theorem answered_quiet (env : Env) (sessionID : ℤ) (response : JString) (s : WifiDisplaySource) :
    Keeps Quiet (do
      updateLiveness env
      sendRequest sessionID response) s :=
  .bind (.modify ⟨{ Steady.refl s with }, rfl⟩) fun _ _ _ => sendRequest_quiet ..

theorem onSetParameterRequest_touches (env : Env) (sessionID cseq : ℤ) (data : ParsedMessage) :
    Touches (s.Finds data ∧ contains data.mContent (jstr "wfd_idr_request\r\n") = true)
      (onSetParameterRequest env sessionID cseq data) s := by
  unfold onSetParameterRequest
  refine findPlaybackSession_touches (fun _ => if_pos rfl) fun session _ _ => ?_
  refine .ite (fun hnone => nomatch hnone) fun _ => ?_
  by_cases hc : contains data.mContent (jstr "wfd_idr_request\r\n") = true
  · refine .seq (.ite (fun _ => requestIDRFrame_ends env s) fun h => absurd hc h)
      (fun _ _ ht => iff_of_false (not_untouched ht.drives) (not_not.mpr hc)) fun _ t ht => ?_
    have hdriven : ∀ u, Quiet t u → (Untouched s u ↔ _) := fun u hu =>
      iff_of_false (not_untouched (hu.drives.trans ht.drives)) (not_not.mpr hc)
    exact (answered_quiet ..).mono (fun _ => hdriven) fun _ => hdriven
  · exact Touches.of_quiet hc (.bind (.ite (fun h => absurd h hc) fun _ => .pure)
      fun _ _ _ => answered_quiet ..)

theorem findPlaybackSession_quiet (data : ParsedMessage) (s : WifiDisplaySource) :
    Keeps Quiet (findPlaybackSession data) s :=
  (findPlaybackSession_ends data s).mono (fun _ _ ht => ht.1 ▸ .refl s)
    fun _ _ ht => ht.1 ▸ .refl s

theorem onGetParameterRequest_quiet (env : Env) (sessionID cseq : ℤ) (data : ParsedMessage) :
    Keeps Quiet (onGetParameterRequest env sessionID cseq data) s := by
  unfold onGetParameterRequest
  refine .bind (findPlaybackSession_quiet data s) fun _ t _ => .ite (fun _ => ?_) fun _ => ?_
  · exact .bind (sendErrorResponse_quiet ..) fun _ _ _ => .pure
  · exact answered_quiet ..

theorem onOptionsRequest_quiet (env : Env) (sessionID cseq : ℤ) (data : ParsedMessage) :
    Keeps Quiet (onOptionsRequest env sessionID cseq data) s := by
  unfold onOptionsRequest
  refine .bind (findPlaybackSession_quiet data s) fun _ t _ => ?_
  refine .bind (.ite (fun _ => .modify ⟨{ Steady.refl t with }, rfl⟩) fun _ => .pure) fun _ t _ => ?_
  refine .bind (sendRequest_quiet ..) fun err t _ => .ite (fun _ => .pure) fun _ => ?_
  exact sendAndRegister_quiet ..

/-- The check that only `SETUP` makes. -/
theorem onSetupRequest_quiet (env : Env) {sessionID : ℤ} (hsession : sessionID ≠ s.mClientSessionID)
    (cseq : ℤ) (data : ParsedMessage) : Keeps Quiet (onSetupRequest env sessionID cseq data) s := by
  unfold onSetupRequest
  exact .get_bind (.ite (fun _ => .throw_bind) fun h => absurd hsession h)

/-- What a request touches if it comes from a session that is not the client's. -/
def RequestTouches (s : WifiDisplaySource) (sessionID : ℤ) (method : JString)
    (data : ParsedMessage) : Prop :=
  s.Finds data ∧
    if method = jstr "PLAY" then
      (s.mState = .AWAITING_CLIENT_PLAY ∨ s.mState = .PAUSED_TO_PLAYING ∨ s.mState = .PAUSED) ∧
        (s.mPlaybackSessionEstablished = true ∨ s.CanSend sessionID)
    else if method = jstr "PAUSE" then s.mState = .PLAYING_TO_PAUSED ∨ s.mState = .PLAYING
    else if method = jstr "TEARDOWN" then
      s.mState = .AWAITING_CLIENT_TEARDOWN ∧ s.mStopReplyTo ≠ none ∧ ¬ s.IsServer sessionID
    else method = jstr "SET_PARAMETER" ∧
      contains data.mContent (jstr "wfd_idr_request\r\n") = true

theorem onRequest_touches (h : PlayStates s) (env : Env) {sessionID : ℤ}
    (hsession : sessionID ≠ s.mClientSessionID) (cseq : ℤ) (method : JString)
    (data : ParsedMessage) :
    Touches (s.RequestTouches sessionID method data) (onRequest env sessionID cseq method data) s := by
  have hother : method ≠ jstr "PLAY" → method ≠ jstr "PAUSE" → method ≠ jstr "TEARDOWN" →
      method ≠ jstr "SET_PARAMETER" → ¬ s.RequestTouches sessionID method data := by
    intro hplay hpause hteardown hset htouches
    rw [RequestTouches, if_neg hplay, if_neg hpause, if_neg hteardown] at htouches
    exact hset htouches.2.1
  unfold onRequest
  split
  · rename_i hmethod
    subst hmethod
    exact .of_quiet (hother (by decide) (by decide) (by decide) (by decide))
      (onOptionsRequest_quiet ..)
  split
  · rename_i hmethod
    subst hmethod
    exact .of_quiet (hother (by decide) (by decide) (by decide) (by decide))
      (onSetupRequest_quiet env hsession cseq data)
  split
  · rename_i hplay
    rw [RequestTouches, if_pos hplay]
    exact onPlayRequest_touches h env sessionID cseq data
  rename_i hplay
  split
  · rename_i hpause
    rw [RequestTouches, if_neg hplay, if_pos hpause]
    exact onPauseRequest_touches env sessionID cseq data
  rename_i hpause
  split
  · rename_i hteardown
    rw [RequestTouches, if_neg hplay, if_neg hpause, if_pos hteardown]
    exact onTeardownRequest_touches env sessionID cseq data
  rename_i hteardown
  split
  · rename_i hget
    subst hget
    exact .of_quiet (hother hplay hpause hteardown (by decide)) (onGetParameterRequest_quiet ..)
  split
  · rename_i hset
    rw [RequestTouches, if_neg hplay, if_neg hpause, if_neg hteardown]
    simpa only [hset, true_and] using onSetParameterRequest_touches env sessionID cseq data
  · rename_i hset
    exact .of_quiet (hother hplay hpause hteardown hset)
      (.bind (sendErrorResponse_quiet ..) fun _ _ _ => .pure)

/-! ## Responses -/

/-- The source takes the ports that a response to M3 names. -/
def NamesPorts (msg : ParsedMessage) (value : JString) (port0 : ℤ) : Prop :=
  ∃ statusCode params, msg.getStatusCode = .ok statusCode ∧ statusError statusCode = none ∧
    Parameters.parse msg.mContent = some params ∧
    Parameters.getParameter params (jstr "wfd_client_rtp_ports") = some value ∧
    choosePort value = .ok (.ok port0)

theorem onReceiveM3Response_quiet (env : Env) (sessionID : ℤ) {msg : ParsedMessage}
    (h : ∀ value port0, ¬ NamesPorts msg value port0) :
    Keeps Quiet (onReceiveM3Response env sessionID msg) s := by
  unfold onReceiveM3Response
  refine .seq (call_ends _ s) (fun _ _ ht => ht.1 ▸ .refl s) ?_
  rintro statusCode t ⟨rfl, hstatusCode⟩
  cases hstatus : statusError statusCode with
  | some err => exact Keeps.pure
  | none =>
      cases hparams : Parameters.parse msg.mContent with
      | none => exact Keeps.pure
      | some params =>
          cases hvalue : Parameters.getParameter params (jstr "wfd_client_rtp_ports") with
          | none =>
              simp only [hvalue]
              exact Keeps.pure
          | some value =>
              simp only [hvalue]
              refine .seq (call_ends _ t) (fun _ _ hu => hu.1 ▸ .refl t) ?_
              rintro (err | port0) u ⟨rfl, hport⟩
              · exact Keeps.pure
              · exact absurd ⟨statusCode, params, hstatusCode, hstatus, hparams, hvalue, hport⟩
                  (h value port0)

theorem onReceiveM3Response_ports (env : Env) (sessionID : ℤ) {msg : ParsedMessage}
    {value : JString} {port0 : ℤ} (h : NamesPorts msg value port0) :
    Ends (onReceiveM3Response env sessionID msg) s
      (fun _ t => t.mWfdClientRtpPorts = some value ∧ t.mChosenRTPPort = port0)
      (fun _ t => t.mWfdClientRtpPorts = some value ∧ t.mChosenRTPPort = port0) := by
  obtain ⟨statusCode, params, hstatusCode, hstatus, hparams, hvalue, hport⟩ := h
  unfold onReceiveM3Response
  rw [hstatusCode, hparams]
  refine .pure_bind ?_
  simp only [hstatus, hvalue, hport]
  refine .pure_bind (.modify_bind ?_)
  refine (choosing_requests.chooseFormats env sessionID params _).mono (fun _ t ht => ?_) fun _ t ht => ?_
  · exact ⟨ht.mWfdClientRtpPorts, ht.mChosenRTPPort⟩
  · exact ⟨ht.mWfdClientRtpPorts, ht.mChosenRTPPort⟩

/-- Of the responses, only one to M3 changes anything here. -/
theorem handle_quiet (func : HandleRTSPResponseFunc) (env : Env) {sessionID : ℤ}
    (hsession : sessionID ≠ s.mClientSessionID) {msg : ParsedMessage}
    (h : func = .onReceiveM3Response → ∀ value port0, ¬ NamesPorts msg value port0) :
    Keeps Quiet (func.handle env sessionID msg) s := by
  cases func with
  | onReceiveM1Response => exact .bind (call_keeps _ _) fun _ _ _ => .pure
  | onReceiveM3Response => exact onReceiveM3Response_quiet env sessionID (h rfl)
  | onReceiveM4Response =>
      refine .bind (call_keeps _ _) fun statusCode t _ => ?_
      split
      · exact .pure
      · exact sendAndRegister_quiet ..
  | onReceiveM5Response => exact .bind (call_keeps _ _) fun _ _ _ => .pure
  | onReceiveM16Response =>
      exact .get_bind (.ite (fun _ => .throw_bind) fun h => absurd hsession h)

/-- The message answers M3, and the source takes its ports. -/
def AnswersM3 (s : WifiDisplaySource) (sessionID cseq : ℤ) (data : ParsedMessage)
    (value : JString) (port0 : ℤ) : Prop :=
  s.mResponseHandlers (sessionID, cseq) = some .onReceiveM3Response ∧ NamesPorts data value port0

theorem onResponse_quiet (env : Env) {sessionID cseq : ℤ}
    (hsession : sessionID ≠ s.mClientSessionID) {data : ParsedMessage}
    (h : ∀ value port0, ¬ s.AnswersM3 sessionID cseq data value port0) :
    Keeps Quiet (onResponse env sessionID cseq data) s := by
  unfold onResponse
  refine .get_bind ?_
  cases hfunc : s.mResponseHandlers (sessionID, cseq) with
  | none => exact .pure
  | some func =>
      refine .modify_bind (.handle s sessionID cseq func) (handle_quiet func env ?_ ?_)
      · exact hsession
      rintro rfl value port0 hnames
      exact h value port0 ⟨hfunc, hnames⟩

theorem onResponse_ports (env : Env) {sessionID cseq : ℤ} {data : ParsedMessage}
    {value : JString} {port0 : ℤ} (h : s.AnswersM3 sessionID cseq data value port0) :
    Ends (onResponse env sessionID cseq data) s
      (fun _ t => t.mWfdClientRtpPorts = some value ∧ t.mChosenRTPPort = port0)
      (fun _ t => t.mWfdClientRtpPorts = some value ∧ t.mChosenRTPPort = port0) := by
  unfold onResponse
  refine .get_bind ?_
  rw [h.1]
  exact .modify_bind (onReceiveM3Response_ports env sessionID h.2)

/-! ## All messages -/

/-- The message is a request that the source obeys whoever sends it, or an answer to M3. -/
def IsObeyed (s : WifiDisplaySource) (sessionID : ℤ) (data : ParsedMessage) : Prop :=
  match kind data with
  | none => False
  | some (.request method _) => s.RequestTouches sessionID method data
  | some (.response cseq) => ∃ value port0, s.AnswersM3 sessionID cseq data value port0

/-- The message is an answer to M3 that names the ports there are. -/
def RepeatsPorts (s : WifiDisplaySource) (sessionID : ℤ) (data : ParsedMessage) : Prop :=
  ∃ cseq value, kind data = some (.response cseq) ∧ s.mWfdClientRtpPorts = some value ∧
    s.AnswersM3 sessionID cseq data value s.mChosenRTPPort

theorem onReceiveClientData_touches (h : PlayStates s) (env : Env) {sessionID : ℤ}
    (hsession : sessionID ≠ s.mClientSessionID) (data : ParsedMessage) :
    Ends (onReceiveClientData env sessionID data) s
      (fun _ t => (¬ s.IsObeyed sessionID data → Untouched s t) ∧
        (s.IsObeyed sessionID data → ¬ s.RepeatsPorts sessionID data → ¬ Untouched s t))
      (fun _ t => (¬ s.IsObeyed sessionID data → Untouched s t) ∧
        (s.IsObeyed sessionID data → ¬ s.RepeatsPorts sessionID data → ¬ Untouched s t)) := by
  refine onReceiveClientData_ends (fun cseq hkind => ?_) (fun method cseq hkind => ?_) fun hkind => ?_
  · simp only [IsObeyed, hkind]
    by_cases hanswers : ∃ value port0, s.AnswersM3 sessionID cseq data value port0
    · obtain ⟨value, port0, hanswer⟩ := hanswers
      have hports : ∀ t, t.mWfdClientRtpPorts = some value ∧ t.mChosenRTPPort = port0 →
          ¬ s.RepeatsPorts sessionID data → ¬ Untouched s t := by
        rintro t ⟨hvalue, rfl⟩ hother huntouched
        have hnegotiated := huntouched.negotiated
        refine hother ⟨cseq, value, hkind, ?_, ?_⟩
        · exact (congrArg Negotiated.mWfdClientRtpPorts hnegotiated).symm.trans hvalue
        · rwa [← show t.mChosenRTPPort = s.mChosenRTPPort from
            congrArg Negotiated.mChosenRTPPort hnegotiated]
      exact (onResponse_ports env hanswer).mono
        (fun _ t ht => ⟨fun hno => absurd ⟨_, _, hanswer⟩ hno, fun _ => hports t ht⟩)
        fun _ t ht => ⟨fun hno => absurd ⟨_, _, hanswer⟩ hno, fun _ => hports t ht⟩
    · have hquiet := onResponse_quiet env hsession
        fun value port0 hanswer => hanswers ⟨value, port0, hanswer⟩
      exact hquiet.mono (fun _ t ht => ⟨fun _ => ht.untouched, fun h => absurd h hanswers⟩)
        fun _ t ht => ⟨fun _ => ht.untouched, fun h => absurd h hanswers⟩
  · simp only [IsObeyed, hkind]
    exact (onRequest_touches h env hsession cseq method data).mono
      (fun _ t ht => ⟨ht.mpr, fun hc _ huntouched => ht.mp huntouched hc⟩)
      fun _ t ht => ⟨ht.mpr, fun hc _ huntouched => ht.mp huntouched hc⟩
  · simp only [IsObeyed, hkind]
    exact ⟨fun _ t ht => ⟨fun _ => ht.untouched, False.elim⟩,
      fun _ => ⟨fun _ => (Quiet.refl s).untouched, False.elim⟩⟩

/-- In every reachable state, a message of a session that is not the client's leaves everything
to the client exactly if the source does not obey it; the one thing open is what an answer to
M3 changes that names the ports there are. -/
theorem untouched_of_not_obeyed (hs : Reachable s) (env : Env) {sessionID : ℤ}
    (hsession : sessionID ≠ s.mClientSessionID) (data : ParsedMessage) :
    (¬ s.IsObeyed sessionID data →
      Untouched s ((onReceiveClientData env sessionID data).run s).2) ∧
    (s.IsObeyed sessionID data → ¬ s.RepeatsPorts sessionID data →
      ¬ Untouched s ((onReceiveClientData env sessionID data).run s).2) :=
  (onReceiveClientData_touches hs.playStates env hsession data).state

end

/-! ## A rejected client -/

/-- Another sink connects as session 3. -/
def strangerEvents : List Event :=
  [.addSession 3 .CONNECTED,
    .message (quietEnv 0) (.rtspNotify
      (.clientConnected 3 (some (jstr "10.0.0.3")) (some (jstr "10.0.0.1")) 7236))]

def pauseData : ParsedMessage :=
  ⟨[(jstr "_", jstr "PAUSE rtsp://10.0.0.1/wfd1.0/streamid=0 RTSP/1.0"),
    (jstr "cseq", jstr "1")], [], 1⟩

/-- A second client is rejected while the first one plays; what it had sent still pauses. -/
theorem rejected_client_pauses :
    ¬ ∀ s, @Reachable CharData.ascii s → ∀ env sessionID data, sessionID ≠ s.mClientSessionID →
      Untouched s ((@onReceiveClientData CharData.ascii env sessionID data).run s).2 := by
  let _ := CharData.ascii
  intro h
  have hend : endsIn (setUpEvents ++ playEvents ++ strangerEvents) fun s =>
      s.mClientSessionID = 2 && (s.effects.filter Effect.drives).length <
        (((onReceiveClientData (quietEnv 0) 3 pauseData).run s).2.effects.filter
          Effect.drives).length := by
    decide +kernel
  obtain ⟨s, hs, hstate⟩ := exists_reachable hend
  rw [Bool.and_eq_true, decide_eq_true_eq, decide_eq_true_eq] at hstate
  have huntouched := h s hs (quietEnv 0) 3 pauseData (by rw [hstate.1]; decide)
  rw [huntouched.drives] at hstate
  exact hstate.2.false

/-- Before the first one plays, nothing comes of it. -/
theorem rejected_client_leaves :
    ∃ s, @Reachable CharData.ascii s ∧ s.mClientSessionID = 2 ∧
      Untouched s ((@onReceiveClientData CharData.ascii (quietEnv 0) 3 pauseData).run s).2 := by
  let _ := CharData.ascii
  have hend : endsIn (setUpEvents ++ strangerEvents) fun s =>
      s.mClientSessionID = 2 && s.mState = .AWAITING_CLIENT_PLAY := by
    decide +kernel
  obtain ⟨s, hs, hstate⟩ := exists_reachable hend
  rw [Bool.and_eq_true, decide_eq_true_eq, decide_eq_true_eq] at hstate
  have hkind : kind pauseData = some (.request (jstr "PAUSE") 1) := by decide +kernel
  refine ⟨s, hs, hstate.1, (untouched_of_not_obeyed hs (quietEnv 0) (by rw [hstate.1]; decide)
    pauseData).1 ?_⟩
  simp only [IsObeyed, hkind, RequestTouches]
  rintro ⟨-, htouches⟩
  rw [if_neg (by decide), if_pos trivial, hstate.2] at htouches
  exact absurd htouches (by decide)

end MirrorCast.WifiDisplaySource
