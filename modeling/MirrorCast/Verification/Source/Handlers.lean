import MirrorCast.Verification.Source.Negotiation

/-! # What all handlers keep to -/

namespace MirrorCast.WifiDisplaySource

open Java
open ANetworkSession (OK)

/-! ## Sending -/

theorem sendRequest_logs (sessionID : ℤ) (data : JString) (s : WifiDisplaySource) :
    Ends (sendRequest sessionID data) s
      (fun err t => err = OK ∧
          t = { s with effects := s.effects ++ [.sendRequest sessionID data] } ∨ err ≠ OK ∧ t = s)
      (fun _ t => t = s) := by
  unfold sendRequest
  refine .get_bind ?_
  split
  · exact .pure (.inr ⟨by decide, rfl⟩)
  · exact .ite (fun _ => .modify_bind (.pure (.inl ⟨rfl, rfl⟩))) fun _ => .throw rfl

/-- A request that was sent waits for its response under its number. -/
theorem sendAndRegister_logs (env : Env) (sessionID : ℤ) (line headers : JString)
    (func : HandleRTSPResponseFunc) (s : WifiDisplaySource) :
    Ends (sendAndRegister env sessionID line headers func) s
      (fun err t => err = OK ∧ t = { s with
          effects := s.effects ++
            [.sendRequest sessionID (line ++ commonResponse env s.mNextCSeq (-1) ++ headers),
              .registerResponseHandler sessionID s.mNextCSeq func]
          mResponseHandlers :=
            Function.update s.mResponseHandlers (sessionID, s.mNextCSeq) (some func)
          mNextCSeq := Java.int32 (s.mNextCSeq + 1) } ∨ err ≠ OK ∧ t = s)
      (fun _ t => t = s) := by
  unfold sendAndRegister
  refine .get_bind (.bind (sendRequest_logs ..) ?_)
  rintro err t (⟨rfl, rfl⟩ | ⟨herr, rfl⟩)
  · refine .ite (fun hne => absurd rfl hne) fun _ => .modify_bind (.modify_bind (.pure ?_))
    exact .inl ⟨rfl, congrArg (fun effects => { s with
      effects
      mResponseHandlers :=
        Function.update s.mResponseHandlers (sessionID, s.mNextCSeq) (some func)
      mNextCSeq := Java.int32 (s.mNextCSeq + 1) }) (List.append_assoc ..)⟩
  · exact .ite (fun _ => .pure (.inr ⟨herr, rfl⟩)) fun heq => absurd herr heq

/-! ## The relations -/

/-- Neither about the handlers of responses nor the message of the reaper. -/
def Effect.isPlain : Effect → Bool
  | .registerResponseHandler _ _ _ => false
  | .handle _ _ _ => false
  | .post .reapDeadClients _ => false
  | _ => true

/-- The fields that most methods leave alone. -/
structure Watched where
  effects : List Effect
  mNextCSeq : ℤ
  mResponseHandlers : ℤ × ℤ → Option HandleRTSPResponseFunc
  mLastLifesignUs : ℤ
  mPlaybackSessionID : ℤ

def watched (s : WifiDisplaySource) : Watched where
  effects := s.effects
  mNextCSeq := s.mNextCSeq
  mResponseHandlers := s.mResponseHandlers
  mLastLifesignUs := s.mLastLifesignUs
  mPlaybackSessionID := s.mClientInfo.mPlaybackSessionID

/-- The relation allows what the handlers do at one time, but for a new client, a new playback
session and the reaper; `answers` are the responses that may be handled. -/
structure Follows (env : Env) (answers : ℤ → ℤ → Prop)
    (R : WifiDisplaySource → WifiDisplaySource → Prop) : Prop extends Requests R where
  other : ∀ s t, t.watched = s.watched → R s t
  log : ∀ s effect, effect.isPlain = true → R s { s with effects := s.effects ++ [effect] }
  sendRequest : ∀ sessionID data s, Keeps R (sendRequest sessionID data) s
  take : ∀ s sessionID cseq func, answers sessionID cseq →
    s.mResponseHandlers (sessionID, cseq) = some func →
    R s { s with
      mResponseHandlers := Function.update s.mResponseHandlers (sessionID, cseq) none
      effects := s.effects ++ [.handle sessionID cseq func] }

/-- The relation allows to note a sign of life. -/
def NotesLife (env : Env) (R : WifiDisplaySource → WifiDisplaySource → Prop) : Prop :=
  ∀ s, R s { s with mLastLifesignUs := env.nowUs }

/-- The request shows that the sink is alive. -/
def requestIsSign [CharData] (s : WifiDisplaySource) (method : JString) (data : ParsedMessage) :
    Prop :=
  s.Finds data ∧ (method = jstr "OPTIONS" ∨
    method = jstr "PLAY" ∧ (s.mState = .AWAITING_CLIENT_PLAY ∨ s.mState = .PAUSED_TO_PLAYING ∨
      s.mState = .PAUSED) ∧ s.mPlaybackSessionEstablished = true ∨
    method = jstr "PAUSE" ∧ (s.mState = .PLAYING_TO_PAUSED ∨ s.mState = .PLAYING) ∨
    method = jstr "GET_PARAMETER" ∨ method = jstr "SET_PARAMETER")

/-- The message shows that the sink is alive: it answers M16, it has a request for the playback
session, or the session was just established. -/
def signOfLife [CharData] (s : WifiDisplaySource) : Message → Prop
  | .rtspNotify (.session sessionID (.data data)) =>
      (∃ cseq, kind data = some (.response cseq) ∧ s.mClientInfo.mPlaybackSession ≠ none ∧
        s.mResponseHandlers (sessionID, cseq) = some .onReceiveM16Response) ∨
      ∃ method cseq, kind data = some (.request method cseq) ∧ s.requestIsSign method data
  | .playbackSessionNotify _ _ .sessionEstablished => True
  | _ => False

/-- A call of something without access to the fields leads on from the same state. -/
theorem keeps_call_bind {R : WifiDisplaySource → WifiDisplaySource → Prop}
    [IsPreorder WifiDisplaySource R] {α β : Type} {x : Except JavaException α} {f : α → Handler β}
    {s : WifiDisplaySource} (hf : ∀ a, x = .ok a → Keeps R (f a) s) : Keeps R (call x >>= f) s := by
  refine Ends.seq (call_ends x s) (fun _ t ht => ?_) ?_
  · rw [ht.1]
    exact refl s
  · rintro a t ⟨rfl, ha⟩
    exact hf a ha

theorem keeps_findPlaybackSession_bind [CharData]
    {R : WifiDisplaySource → WifiDisplaySource → Prop} [IsPreorder WifiDisplaySource R]
    {α : Type} {data : ParsedMessage} {f : Option PlaybackSession × ℤ → Handler α}
    {s : WifiDisplaySource}
    (hf : ∀ playbackSession playbackSessionID, (playbackSession ≠ none → s.Finds data) →
      Keeps R (f (playbackSession, playbackSessionID)) s) :
    Keeps R (findPlaybackSession data >>= f) s := by
  refine Ends.seq (findPlaybackSession_ends data s) (fun _ t ht => ?_) ?_
  · rw [ht.1]
    exact refl s
  · rintro ⟨playbackSession, playbackSessionID⟩ t ⟨rfl, hfound⟩
    refine hf _ _ fun hne => ?_
    obtain ⟨session, rfl⟩ := Option.ne_none_iff_exists'.mp hne
    exact ⟨session, playbackSessionID, hfound⟩

section

variable {env : Env} {answers : ℤ → ℤ → Prop} {R : WifiDisplaySource → WifiDisplaySource → Prop}
  [IsPreorder WifiDisplaySource R] (hR : Follows env answers R)

include hR

theorem Follows.sendErrorResponse (sessionID : ℤ) (errorDetail : JString) (cseq : ℤ)
    (s : WifiDisplaySource) :
    Keeps R (sendErrorResponse env sessionID errorDetail cseq) s :=
  .bind (hR.sendRequest ..) fun _ _ _ => .pure

theorem Follows.sessionNotFound (sessionID cseq : ℤ) (s : WifiDisplaySource) :
    Keeps R (sessionNotFound env sessionID cseq) s :=
  .bind (hR.sendErrorResponse ..) fun _ _ _ => .pure

theorem Follows.scheduleKeepAlive (sessionID : ℤ) (s : WifiDisplaySource) :
    Keeps R (scheduleKeepAlive sessionID) s := by
  unfold WifiDisplaySource.scheduleKeepAlive
  exact .ite (fun _ => .throw_bind) fun _ => .modify (hR.log _ _ rfl)

theorem Follows.sendM16 (sessionID : ℤ) (s : WifiDisplaySource) :
    Keeps R (sendM16 env sessionID) s := by
  unfold WifiDisplaySource.sendM16
  refine .get_bind (.ite (fun _ => .throw_bind) fun _ => .get_bind ?_)
  refine .bind (hR.request ..) fun err t _ => .ite (fun _ => .pure) fun _ => ?_
  exact .bind (hR.scheduleKeepAlive ..) fun _ _ _ => .pure

/-! ## Stopping -/

theorem Follows.destroySession (sessionID : ℤ) (s : WifiDisplaySource) :
    Keeps R (destroySession sessionID) s :=
  .modify_bind (hR.other _ _ rfl) (.modify (hR.log _ _ rfl))

theorem Follows.finishStop2 (s : WifiDisplaySource) : Keeps R finishStop2 s := by
  unfold WifiDisplaySource.finishStop2
  refine .get_bind (.bind (.ite (fun _ => ?_) fun _ => .pure) fun _ t _ => ?_)
  · exact .bind (hR.destroySession ..) fun _ _ _ => .modify (hR.other _ _ rfl)
  refine .modify_bind (hR.other _ _ rfl) (.get_bind ?_)
  split
  · exact .throw
  · exact .modify_bind (hR.log _ _ rfl) (.modify (hR.other _ _ rfl))

theorem Follows.disconnectClient2 (s : WifiDisplaySource) :
    Keeps R disconnectClient2 s := by
  unfold WifiDisplaySource.disconnectClient2
  refine .modify_bind (hR.other _ _ rfl) (.get_bind ?_)
  refine .bind (.ite (fun _ => ?_) fun _ => .pure) fun _ t _ => .get_bind ?_
  · exact .bind (hR.destroySession ..) fun _ _ _ => .modify (hR.other _ _ rfl)
  exact .ite (fun _ => .throw_bind) fun _ => .modify_bind (hR.log _ _ rfl) (hR.finishStop2 _)

theorem Follows.finishStop (s : WifiDisplaySource) : Keeps R finishStop s := by
  unfold WifiDisplaySource.finishStop WifiDisplaySource.disconnectClientAsync
  refine .modify_bind (hR.other _ _ rfl) (.get_bind ?_)
  split
  · exact hR.disconnectClient2 _
  · exact .modify (hR.log _ _ rfl)

theorem Follows.finishPlay (hlife : NotesLife env R) (s : WifiDisplaySource) :
    Keeps R (finishPlay env) s := by
  unfold WifiDisplaySource.finishPlay WifiDisplaySource.play
  refine .get_bind (.bind (nonNull_keeps ..) fun _ t _ => ?_)
  refine .bind (.modify_bind (hlife t) (.modify_bind (hR.log _ _ rfl) .pure)) ?_
  exact fun err t _ => .ite (fun _ => .throw) fun _ => .pure

/-! ## Messages without a text -/

theorem Follows.onStop (msg : ℕ) (s : WifiDisplaySource) :
    Keeps R (onStop env msg) s := by
  unfold WifiDisplaySource.onStop
  refine .modify_bind (hR.other _ _ rfl) (.get_bind (.ite (fun _ => .throw_bind) fun _ => ?_))
  refine .ite (fun _ => ?_) fun _ => hR.finishStop _
  refine .bind (hR.request ..) fun err t _ => .ite (fun _ => ?_) fun _ => ?_
  · exact .modify_bind (hR.other _ _ rfl) (.modify (hR.log _ _ rfl))
  · exact hR.finishStop t

theorem Follows.onTrigger (msg : ℕ) (expected next : State) (triggerType : TriggerType)
    (s : WifiDisplaySource) :
    Keeps R (onTrigger env msg expected next triggerType) s := by
  unfold WifiDisplaySource.onTrigger
  refine .get_bind (.ite (fun _ => .modify (hR.log _ _ rfl)) fun _ => ?_)
  refine .modify_bind (hR.other _ _ rfl) (.bind (hR.request ..) fun _ t _ => ?_)
  exact .modify (hR.log _ _ rfl)

theorem Follows.onPlaybackSessionNotify (sessionID : ℤ) (n : PlaybackNotification)
    (s : WifiDisplaySource) (hlife : n = .sessionEstablished → NotesLife env R) :
    Keeps R (onPlaybackSessionNotify env sessionID n) s := by
  unfold WifiDisplaySource.onPlaybackSessionNotify
  split
  · exact .pure
  · refine .modify_bind (hR.other _ _ rfl) (.bind (hR.finishPlay (hlife rfl) _) fun _ t _ => ?_)
    exact .get_bind (.ite (fun _ => .modify (hR.other _ _ rfl)) fun _ => .pure)
  · exact hR.disconnectClient2 s
  · unfold WifiDisplaySource.onBinaryData
    refine .ite (fun _ => .throw_bind) fun _ => .ite (fun _ => .throw_bind) fun _ => .get_bind ?_
    split
    · exact .pure
    · exact .ite (fun _ => .modify_bind (hR.log _ _ rfl) (.modify (hR.log _ _ rfl))) fun _ => .throw

theorem Follows.onTeardownTriggerTimedOut (s : WifiDisplaySource) :
    Keeps R onTeardownTriggerTimedOut s := by
  unfold WifiDisplaySource.onTeardownTriggerTimedOut
  refine .get_bind (.ite (fun _ => .ite (fun _ => .throw_bind) fun _ => ?_) fun _ => .pure)
  exact hR.finishStop s

/-! ## The requests of the sink -/

variable [CharData]

theorem Follows.onSetupRequest (sessionID cseq : ℤ) (data : ParsedMessage) (s : WifiDisplaySource)
    (hsetUp : s.mClientInfo.mPlaybackSessionID = -1 → ∀ transport t,
      Keeps R (setUpPlaybackSession env sessionID cseq transport) t) :
    Keeps R (onSetupRequest env sessionID cseq data) s := by
  have herror : ∀ (detail : JString) (err : ℤ) (t : WifiDisplaySource), Keeps R (do
      WifiDisplaySource.sendErrorResponse env sessionID detail cseq
      return err) t := fun _ _ _ => .bind (hR.sendErrorResponse ..) fun _ _ _ => .pure
  unfold WifiDisplaySource.onSetupRequest
  refine .get_bind (.ite (fun _ => .throw_bind) fun _ => .get_bind ?_)
  refine .ite (fun _ => herror ..) fun hnew => ?_
  split
  · exact herror ..
  refine .bind (call_keeps ..) ?_
  rintro (⟨detail, err⟩ | transport) t -
  · exact herror ..
  refine .bind (call_keeps ..) fun uri t _ => .ite (fun _ => herror ..) fun _ => ?_
  exact .ite (fun _ => herror ..) fun _ => hsetUp (not_not.mp hnew) transport t

theorem Follows.onOptionsRequest (sessionID cseq : ℤ) (data : ParsedMessage)
    (s : WifiDisplaySource) (hlife : s.Finds data → NotesLife env R) :
    Keeps R (onOptionsRequest env sessionID cseq data) s := by
  unfold WifiDisplaySource.onOptionsRequest
  refine keeps_findPlaybackSession_bind fun playbackSession _ hfound => ?_
  refine .bind (.ite (fun hne => .modify (hlife (hfound hne) s)) fun _ => .pure) fun _ t _ => ?_
  refine .bind (hR.sendRequest ..) fun err t _ => .ite (fun _ => .pure) fun _ => ?_
  exact hR.request ..

theorem Follows.onPlayRequest (sessionID cseq : ℤ) (data : ParsedMessage)
    (s : WifiDisplaySource)
    (hlife : s.requestIsSign (jstr "PLAY") data → NotesLife env R) :
    Keeps R (onPlayRequest env sessionID cseq data) s := by
  unfold WifiDisplaySource.onPlayRequest
  refine keeps_findPlaybackSession_bind fun playbackSession playbackSessionID hfound => ?_
  refine .ite (fun _ => hR.sessionNotFound ..) fun hne => .get_bind (.ite (fun _ => ?_) ?_)
  · exact .bind (hR.sendErrorResponse ..) fun _ _ _ => .pure
  intro hstate
  refine .bind (.ite (fun hestablished => hR.finishPlay (hlife ?_) s) fun _ => .pure)
    fun _ u _ => ?_
  · exact ⟨hfound hne, .inr (.inl ⟨rfl, by tauto, hestablished⟩)⟩
  refine .bind (hR.sendRequest ..) fun err v _ => .ite (fun _ => .pure) fun _ => ?_
  refine .ite (fun _ => .modify_bind (hR.other _ _ rfl) .pure) fun _ => ?_
  exact .ite (fun _ => .throw_bind) fun _ => .modify_bind (hR.other _ _ rfl) .pure

theorem Follows.onPauseRequest (sessionID cseq : ℤ) (data : ParsedMessage)
    (s : WifiDisplaySource)
    (hlife : s.requestIsSign (jstr "PAUSE") data → NotesLife env R) :
    Keeps R (onPauseRequest env sessionID cseq data) s := by
  unfold WifiDisplaySource.onPauseRequest WifiDisplaySource.pause
  refine keeps_findPlaybackSession_bind fun playbackSession playbackSessionID hfound => ?_
  refine .ite (fun _ => hR.sessionNotFound ..) fun hne => .get_bind (.ite (fun _ => .pure) ?_)
  intro hstate
  have hsign : s.requestIsSign (jstr "PAUSE") data :=
    ⟨hfound hne, .inr (.inr (.inl ⟨rfl, by tauto⟩))⟩
  refine .bind (.modify_bind (hlife hsign s) (.modify_bind (hR.log _ _ rfl) .pure)) ?_
  refine fun err u _ => .ite (fun _ => .throw_bind) fun _ => ?_
  refine .bind (hR.sendRequest ..) fun err v _ => .ite (fun _ => .pure) fun _ => ?_
  exact .modify_bind (hR.other _ _ rfl) .pure

theorem Follows.onTeardownRequest (sessionID cseq : ℤ) (data : ParsedMessage)
    (s : WifiDisplaySource) :
    Keeps R (onTeardownRequest env sessionID cseq data) s := by
  unfold WifiDisplaySource.onTeardownRequest
  refine keeps_findPlaybackSession_bind fun playbackSession playbackSessionID _ => ?_
  refine .ite (fun _ => hR.sessionNotFound ..) fun _ => ?_
  refine .bind (hR.sendRequest ..) fun _ u _ => .get_bind ?_
  refine .bind (.ite (fun _ => .ite (fun _ => .throw_bind) fun _ => ?_) fun _ => .pure)
    fun _ _ _ => .pure
  exact hR.finishStop u

theorem Follows.onGetParameterRequest (sessionID cseq : ℤ) (data : ParsedMessage)
    (s : WifiDisplaySource) (hlife : s.Finds data → NotesLife env R) :
    Keeps R (onGetParameterRequest env sessionID cseq data) s := by
  unfold WifiDisplaySource.onGetParameterRequest
  refine keeps_findPlaybackSession_bind fun playbackSession playbackSessionID hfound => ?_
  refine .ite (fun _ => hR.sessionNotFound ..) fun hne => ?_
  exact .modify_bind (hlife (hfound hne) s) (hR.sendRequest ..)

theorem Follows.onSetParameterRequest (sessionID cseq : ℤ) (data : ParsedMessage)
    (s : WifiDisplaySource) (hlife : s.Finds data → NotesLife env R) :
    Keeps R (onSetParameterRequest env sessionID cseq data) s := by
  unfold WifiDisplaySource.onSetParameterRequest WifiDisplaySource.requestIDRFrame
  refine keeps_findPlaybackSession_bind fun playbackSession playbackSessionID hfound => ?_
  refine .ite (fun _ => hR.sessionNotFound ..) fun hne => ?_
  refine .bind (.ite (fun _ => .modify_bind (hR.log _ _ rfl) (call_keeps ..)) fun _ => .pure) ?_
  exact fun _ u _ => .modify_bind (hlife (hfound hne) u) (hR.sendRequest ..)

theorem Follows.onRequest (sessionID cseq : ℤ) (method : JString) (data : ParsedMessage)
    (s : WifiDisplaySource) (hlife : s.requestIsSign method data → NotesLife env R)
    (hsetUp : s.mClientInfo.mPlaybackSessionID = -1 → ∀ transport t,
      Keeps R (setUpPlaybackSession env sessionID cseq transport) t) :
    Keeps R (onRequest env sessionID cseq method data) s := by
  unfold WifiDisplaySource.onRequest
  refine .ite (fun hmethod => hR.onOptionsRequest _ _ _ _ fun h => hlife ⟨h, .inl hmethod⟩) ?_
  intro _
  refine .ite (fun _ => hR.onSetupRequest _ _ _ _ hsetUp) fun _ => ?_
  refine .ite (fun hmethod => hR.onPlayRequest _ _ _ _ (hmethod ▸ hlife)) fun _ => ?_
  refine .ite (fun hmethod => hR.onPauseRequest _ _ _ _ (hmethod ▸ hlife)) fun _ => ?_
  refine .ite (fun _ => hR.onTeardownRequest ..) fun _ => ?_
  refine .ite (fun hmethod => hR.onGetParameterRequest _ _ _ _ fun h =>
    hlife ⟨h, .inr (.inr (.inr (.inl hmethod)))⟩) fun _ => ?_
  refine .ite (fun hmethod => hR.onSetParameterRequest _ _ _ _ fun h =>
    hlife ⟨h, .inr (.inr (.inr (.inr hmethod)))⟩) fun _ => ?_
  exact .bind (hR.sendErrorResponse ..) fun _ _ _ => .pure

/-! ## Responses -/

/-- The handler of a response is taken out before it is called. -/
theorem Follows.onResponse (sessionID cseq : ℤ) (data : ParsedMessage) (s : WifiDisplaySource)
    (answered : answers sessionID cseq)
    (hlife : s.mClientInfo.mPlaybackSession ≠ none →
      s.mResponseHandlers (sessionID, cseq) = some .onReceiveM16Response → NotesLife env R) :
    Keeps R (onResponse env sessionID cseq data) s := by
  unfold WifiDisplaySource.onResponse
  refine .get_bind ?_
  split
  · exact .pure
  · rename_i func hwaits
    refine .modify_bind (hR.take s sessionID cseq func answered hwaits) ?_
    refine hR.handle (fun _ _ _ => hR.other _ _ rfl) func sessionID data _ ?_
    rintro rfl hsession
    exact hlife hsession hwaits _

theorem Follows.onReceiveClientData (sessionID : ℤ) (data : ParsedMessage) (s : WifiDisplaySource)
    (hlife : s.signOfLife (.rtspNotify (.session sessionID (.data data))) → NotesLife env R)
    (hanswers : ∀ cseq, kind data = some (.response cseq) → answers sessionID cseq)
    (hsetUp : s.mClientInfo.mPlaybackSessionID = -1 → ∀ cseq transport t,
      Keeps R (setUpPlaybackSession env sessionID cseq transport) t) :
    Keeps R (onReceiveClientData env sessionID data) s := by
  unfold WifiDisplaySource.onReceiveClientData
  refine keeps_call_bind fun _ hstring => keeps_call_bind fun method hmethod => ?_
  refine keeps_call_bind fun cseq hcseq => .ite (fun _ => ?_) fun hmissing => ?_
  · exact .bind (hR.sendErrorResponse ..) fun _ _ _ => .pure
  refine .ite (fun hprefix => ?_) fun hprefix => ?_
  · have hkind : kind data = some (.response cseq) := by
      simp only [kind, hstring, hmethod, hcseq, if_neg hmissing, if_pos hprefix]
    refine hR.onResponse sessionID cseq data s (hanswers cseq hkind) fun hsession hwaits => ?_
    exact hlife (.inl ⟨cseq, hkind, hsession, hwaits⟩)
  refine keeps_call_bind fun version hversion => .ite (fun _ => ?_) fun hsame => ?_
  · exact .bind (hR.sendErrorResponse ..) fun _ _ _ => .pure
  · have hkind : kind data = some (.request method cseq) := by
      rw [not_not.mp hsame] at hversion
      simp only [kind, hstring, hmethod, hcseq, if_neg hmissing, if_neg hprefix, if_pos hversion]
    exact hR.onRequest _ _ _ _ _ (fun hsign => hlife (.inr ⟨method, cseq, hkind, hsign⟩))
      fun hnew => hsetUp hnew cseq

/-! ## Messages -/

theorem Follows.onStart (msg : ℕ) (iface : Option JString) (s : WifiDisplaySource) :
    Keeps R (onStart env msg iface) s := by
  unfold WifiDisplaySource.onStart
  split
  · exact .throw
  dsimp only
  refine .bind (.ite (fun _ => .pure) fun _ => ?_) fun err t _ =>
    .modify_bind (hR.other _ _ rfl) (.modify (hR.log _ _ rfl))
  unfold WifiDisplaySource.startServer WifiDisplaySource.createRTSPServer
  refine .ite (fun _ => .pure) fun _ => .bind (.ite (fun _ => .pure) fun _ => ?_) ?_
  · refine .bind (call_keeps ..) fun _ u _ => .ite (fun _ => .pure) fun _ => ?_
    exact .modify_bind (hR.other _ _ rfl) (.modify_bind (hR.log _ _ rfl) .pure)
  · rintro (_ | mSessionID) u -
    · exact .pure
    · exact .modify_bind (hR.other _ _ rfl) .pure

theorem Follows.onRtspNotify (n : NetNotification) (s : WifiDisplaySource)
    (hlife : s.signOfLife (.rtspNotify n) → NotesLife env R)
    (hanswers : ∀ sessionID data cseq, n = .session sessionID (.data data) →
      kind data = some (.response cseq) → answers sessionID cseq)
    (hsetUp : s.mClientInfo.mPlaybackSessionID = -1 → ∀ sessionID cseq transport t,
      Keeps R (setUpPlaybackSession env sessionID cseq transport) t)
    (hconnect : ∀ sessionID clientIP serverIP serverPort,
      n = .clientConnected sessionID clientIP serverIP serverPort →
      Keeps R (onClientConnected env sessionID clientIP serverIP serverPort) s) :
    Keeps R (onRtspNotify env n) s := by
  unfold WifiDisplaySource.onRtspNotify
  split
  · exact hconnect _ _ _ _ rfl
  · refine .bind (hR.destroySession ..) fun _ t _ => .get_bind (.ite (fun _ => ?_) fun _ => .pure)
    exact .modify (hR.other _ _ rfl)
  · rename_i sessionID data
    refine .bind (hR.onReceiveClientData sessionID data s hlife
      (hanswers sessionID data · rfl) ?_)
      fun _ _ _ => .pure
    exact fun hnew => hsetUp hnew sessionID
  · exact .pure
  all_goals exact .throw

theorem Follows.onMessageReceived (msg : Message) (s : WifiDisplaySource)
    (hlife : s.signOfLife msg → NotesLife env R)
    (hanswers : ∀ sessionID data cseq, msg = .rtspNotify (.session sessionID (.data data)) →
      kind data = some (.response cseq) → answers sessionID cseq)
    (hsetUp : s.mClientInfo.mPlaybackSessionID = -1 → ∀ sessionID cseq transport t,
      Keeps R (setUpPlaybackSession env sessionID cseq transport) t)
    (hconnect : ∀ sessionID clientIP serverIP serverPort,
      msg = .rtspNotify (.clientConnected sessionID clientIP serverIP serverPort) →
      Keeps R (onClientConnected env sessionID clientIP serverIP serverPort) s)
    (hreap : msg = .reapDeadClients → Keeps R (onReapDeadClients env) s) :
    Keeps R (onMessageReceived env msg) s := by
  cases msg with
  | start msg iface => exact hR.onStart msg iface s
  | rtspNotify n =>
      exact hR.onRtspNotify n s hlife (fun _ _ _ h => hanswers _ _ _ (congrArg _ h)) hsetUp
        fun _ _ _ _ h => hconnect _ _ _ _ (congrArg _ h)
  | stop msg => exact hR.onStop msg s
  | pause msg => exact hR.onTrigger ..
  | resume msg => exact hR.onTrigger ..
  | reapDeadClients => exact hreap rfl
  | playbackSessionNotify playbackSessionID sessionID n =>
      refine hR.onPlaybackSessionNotify sessionID n s ?_
      rintro rfl
      exact hlife trivial
  | keepAlive sessionID =>
      refine .get_bind (.ite (fun _ => .pure) fun _ => ?_)
      exact .bind (hR.sendM16 ..) fun _ _ _ => .pure
  | finishStop2 => exact hR.finishStop2 s
  | teardownTriggerTimedOut => exact hR.onTeardownTriggerTimedOut s

end

end MirrorCast.WifiDisplaySource
