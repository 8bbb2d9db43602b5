import MirrorCast.Library.Outcomes
import MirrorCast.Program.WifiDisplaySource.Handlers

/-! # What sending requests leaves as it is -/

namespace MirrorCast.WifiDisplaySource

open Java
open ANetworkSession (OK)

/-- The effects that the playback session notices. -/
def Effect.drives : Effect → Bool
  | .play => true
  | .pause => true
  | .requestIDRFrame => true
  | _ => false

/-- What M3 is about: the ports and the video format. -/
structure Negotiated where
  mWfdClientRtpPorts : Option JString
  mChosenRTPPort : ℤ
  mSinkSupportsVideo : Bool
  mSupportedSinkVideoFormats : VideoFormats.Formats
  mChosenVideoResolutionType : VideoFormats.ResolutionType
  mChosenVideoResolutionIndex : ℤ
  mChosenVideoProfile : Option VideoFormats.ProfileType
  mChosenVideoLevel : Option VideoFormats.LevelType
  mChosenVideoConfig : ChosenVideoConfig

def negotiated (s : WifiDisplaySource) : Negotiated where
  mWfdClientRtpPorts := s.mWfdClientRtpPorts
  mChosenRTPPort := s.mChosenRTPPort
  mSinkSupportsVideo := s.mSinkSupportsVideo
  mSupportedSinkVideoFormats := s.mSupportedSinkVideoFormats
  mChosenVideoResolutionType := s.mChosenVideoResolutionType
  mChosenVideoResolutionIndex := s.mChosenVideoResolutionIndex
  mChosenVideoProfile := s.mChosenVideoProfile
  mChosenVideoLevel := s.mChosenVideoLevel
  mChosenVideoConfig := s.mChosenVideoConfig

/-- The control fields stay as they are. -/
structure Control (s t : WifiDisplaySource) : Prop where
  mState : t.mState = s.mState
  mClientInfo : t.mClientInfo = s.mClientInfo
  mClientSessionID : t.mClientSessionID = s.mClientSessionID
  mStopReplyTo : t.mStopReplyTo = s.mStopReplyTo
  mPlaybackSessionEstablished : t.mPlaybackSessionEstablished = s.mPlaybackSessionEstablished
  mNetSession : t.mNetSession = s.mNetSession
  mMediaProjection : t.mMediaProjection = s.mMediaProjection

/-- The playback session does not notice anything either. -/
structure Steady (s t : WifiDisplaySource) : Prop extends Control s t where
  drives : t.effects.filter Effect.drives = s.effects.filter Effect.drives

/-- The ports stay as they are, but perhaps not the video format. -/
structure Choosing (s t : WifiDisplaySource) : Prop extends Steady s t where
  mWfdClientRtpPorts : t.mWfdClientRtpPorts = s.mWfdClientRtpPorts
  mChosenRTPPort : t.mChosenRTPPort = s.mChosenRTPPort

/-- What was negotiated stays as it is, too. -/
structure Quiet (s t : WifiDisplaySource) : Prop extends Steady s t where
  negotiated : t.negotiated = s.negotiated

theorem Control.refl (s : WifiDisplaySource) : Control s s := ⟨rfl, rfl, rfl, rfl, rfl, rfl, rfl⟩

theorem Control.trans {s t u : WifiDisplaySource} (h : Control s t) (h' : Control t u) :
    Control s u where
  mState := h'.mState.trans h.mState
  mClientInfo := h'.mClientInfo.trans h.mClientInfo
  mClientSessionID := h'.mClientSessionID.trans h.mClientSessionID
  mStopReplyTo := h'.mStopReplyTo.trans h.mStopReplyTo
  mPlaybackSessionEstablished :=
    h'.mPlaybackSessionEstablished.trans h.mPlaybackSessionEstablished
  mNetSession := h'.mNetSession.trans h.mNetSession
  mMediaProjection := h'.mMediaProjection.trans h.mMediaProjection

theorem Steady.refl (s : WifiDisplaySource) : Steady s s := ⟨.refl s, rfl⟩

theorem Steady.trans {s t u : WifiDisplaySource} (h : Steady s t) (h' : Steady t u) :
    Steady s u :=
  ⟨h.toControl.trans h'.toControl, h'.drives.trans h.drives⟩

theorem Choosing.refl (s : WifiDisplaySource) : Choosing s s := ⟨.refl s, rfl, rfl⟩

theorem Choosing.trans {s t u : WifiDisplaySource} (h : Choosing s t) (h' : Choosing t u) :
    Choosing s u where
  toSteady := h.toSteady.trans h'.toSteady
  mWfdClientRtpPorts := h'.mWfdClientRtpPorts.trans h.mWfdClientRtpPorts
  mChosenRTPPort := h'.mChosenRTPPort.trans h.mChosenRTPPort

theorem Quiet.refl (s : WifiDisplaySource) : Quiet s s := ⟨.refl s, rfl⟩

theorem Quiet.trans {s t u : WifiDisplaySource} (h : Quiet s t) (h' : Quiet t u) : Quiet s u :=
  ⟨h.toSteady.trans h'.toSteady, h'.negotiated.trans h.negotiated⟩

instance : IsPreorder WifiDisplaySource Steady where
  refl := .refl
  trans _ _ _ := .trans

instance : IsPreorder WifiDisplaySource Choosing where
  refl := .refl
  trans _ _ _ := .trans

instance : IsPreorder WifiDisplaySource Quiet where
  refl := .refl
  trans _ _ _ := .trans

theorem Quiet.toChoosing {s t : WifiDisplaySource} (h : Quiet s t) : Choosing s t where
  toSteady := h.toSteady
  mWfdClientRtpPorts := congrArg Negotiated.mWfdClientRtpPorts h.negotiated
  mChosenRTPPort := congrArg Negotiated.mChosenRTPPort h.negotiated

theorem Quiet.log {s : WifiDisplaySource} {effect : Effect} (h : effect.drives = false) :
    Quiet s { s with effects := s.effects ++ [effect] } where
  toSteady := { Control.refl s with drives := by simp [h] }
  negotiated := rfl

/-- Calling the method registered for a response. -/
theorem Quiet.handle (s : WifiDisplaySource) (sessionID cseq : ℤ) (func : HandleRTSPResponseFunc) :
    Quiet s { s with
      mResponseHandlers := Function.update s.mResponseHandlers (sessionID, cseq) none
      effects := s.effects ++ [.handle sessionID cseq func] } where
  toSteady := { Control.refl s with drives := (List.filter_append ..).trans (List.append_nil _) }
  negotiated := rfl

/-! ## Sending -/

/-- The network has the session, and it is connected. -/
def CanSend (s : WifiDisplaySource) (sessionID : ℤ) : Prop :=
  s.mNetSession sessionID = some .CONNECTED ∨ s.mNetSession sessionID = some .DATAGRAM

instance (s : WifiDisplaySource) (sessionID : ℤ) : Decidable (s.CanSend sessionID) :=
  inferInstanceAs (Decidable (_ ∨ _))

/-- The session is one that nothing can be sent to: it waits for connections. -/
def IsServer (s : WifiDisplaySource) (sessionID : ℤ) : Prop :=
  s.mNetSession sessionID ≠ none ∧ ¬ s.CanSend sessionID

theorem call_ends {α : Type} (x : Except JavaException α) (s : WifiDisplaySource) :
    Ends (call x) s (fun a t => t = s ∧ x = .ok a) (fun e t => t = s ∧ x = .error e) := by
  unfold call
  split
  · exact .pure ⟨rfl, rfl⟩
  · exact .throw ⟨rfl, rfl⟩

theorem sendRequest_ends (sessionID : ℤ) (data : JString) (s : WifiDisplaySource) :
    Ends (sendRequest sessionID data) s
      (fun err t => Quiet s t ∧ (err = OK ∧ s.CanSend sessionID ∨
        err ≠ OK ∧ s.mNetSession sessionID = none))
      (fun e t => t = s ∧ e = .runtime ∧ s.IsServer sessionID) := by
  unfold sendRequest
  refine .get_bind ?_
  split
  · rename_i hnone
    exact .pure ⟨.refl s, .inr ⟨by decide, hnone⟩⟩
  · rename_i mState hsome
    refine .ite (fun hstate => ?_) (fun hstate => ?_)
    · refine .modify_bind (.pure ⟨.log rfl, .inl ⟨rfl, ?_⟩⟩)
      rcases hstate with rfl | rfl
      · exact .inl hsome
      · exact .inr hsome
    · refine .throw ⟨rfl, rfl, by simp [hsome], ?_⟩
      rintro (h | h)
      · rw [hsome] at h
        exact hstate (.inl (Option.some_inj.mp h))
      · rw [hsome] at h
        exact hstate (.inr (Option.some_inj.mp h))

theorem sendRequest_quiet (sessionID : ℤ) (data : JString) (s : WifiDisplaySource) :
    Keeps Quiet (sendRequest sessionID data) s :=
  (sendRequest_ends ..).mono (fun _ _ ht => ht.1) fun _ _ ht => ht.1 ▸ .refl s

theorem sendErrorResponse_ends (env : Env) (sessionID : ℤ) (errorDetail : JString) (cseq : ℤ)
    (s : WifiDisplaySource) :
    Ends (sendErrorResponse env sessionID errorDetail cseq) s (fun _ t => Quiet s t)
      (fun e t => t = s ∧ e = .runtime ∧ s.IsServer sessionID) :=
  .bind (sendRequest_ends ..) fun _ _ ht => .pure ht.1

theorem sendErrorResponse_quiet (env : Env) (sessionID : ℤ) (errorDetail : JString) (cseq : ℤ)
    (s : WifiDisplaySource) : Keeps Quiet (sendErrorResponse env sessionID errorDetail cseq) s :=
  .bind (sendRequest_quiet ..) fun _ _ _ => .pure

theorem sessionNotFound_ends (env : Env) (sessionID cseq : ℤ) (s : WifiDisplaySource) :
    Ends (sessionNotFound env sessionID cseq) s (fun _ t => Quiet s t)
      (fun e t => t = s ∧ e = .runtime ∧ s.IsServer sessionID) := by
  unfold sessionNotFound
  exact .bind (sendErrorResponse_ends ..) fun _ _ ht => .pure ht

theorem sendAndRegister_ends (env : Env) (sessionID : ℤ) (line headers : JString)
    (func : HandleRTSPResponseFunc) (s : WifiDisplaySource) :
    Ends (sendAndRegister env sessionID line headers func) s
      (fun err t => Quiet s t ∧ (err = OK ∧ s.CanSend sessionID ∨
        err ≠ OK ∧ s.mNetSession sessionID = none))
      (fun e t => t = s ∧ e = .runtime ∧ s.IsServer sessionID) := by
  unfold sendAndRegister
  refine .get_bind (.bind (sendRequest_ends ..) fun err t ht => ?_)
  refine .ite (fun herr => .pure ht) fun herr => ?_
  have hdrives : (t.effects ++ [Effect.registerResponseHandler sessionID s.mNextCSeq func]).filter
      Effect.drives = s.effects.filter Effect.drives := by
    rw [List.filter_append, ht.1.drives]
    exact List.append_nil _
  refine .modify_bind (.modify_bind (.pure
    ⟨⟨{ ht.1.toSteady with drives := hdrives }, ht.1.negotiated⟩, ?_⟩))
  rcases ht.2 with h | h
  · exact .inl ⟨rfl, h.2⟩
  · exact absurd h.1 herr

theorem sendAndRegister_quiet (env : Env) (sessionID : ℤ) (line headers : JString)
    (func : HandleRTSPResponseFunc) (s : WifiDisplaySource) :
    Keeps Quiet (sendAndRegister env sessionID line headers func) s :=
  (sendAndRegister_ends ..).mono (fun _ _ ht => ht.1) fun _ _ ht => ht.1 ▸ .refl s

/-! ## Timers -/

theorem scheduleReaper_ends (s : WifiDisplaySource) :
    Ends scheduleReaper s (fun _ t => Quiet s t) (fun _ _ => False) := by
  unfold scheduleReaper
  refine .get_bind (.ite (fun _ => .pure (.refl s)) fun _ => ?_)
  refine .modify_bind (.modify ?_)
  have hpost : Quiet s
      { s with effects := s.effects ++ [.post .reapDeadClients REAPER_INTERVAL_US] } := .log rfl
  exact ⟨{ hpost.toSteady with }, rfl⟩

theorem scheduleKeepAlive_ends (sessionID : ℤ) (s : WifiDisplaySource) :
    Ends (scheduleKeepAlive sessionID) s (fun _ t => Quiet s t) (fun _ _ => False) := by
  unfold scheduleKeepAlive
  exact .ite (fun h => absurd h (by decide)) fun _ => .modify (Quiet.log rfl)

theorem sendM16_ends (env : Env) (sessionID : ℤ) (s : WifiDisplaySource) :
    Ends (sendM16 env sessionID) s (fun _ t => Quiet s t)
      (fun e t => t = s ∧ e = .runtime ∧
        (sessionID ≠ s.mClientSessionID ∨ s.IsServer sessionID)) := by
  unfold sendM16
  refine .get_bind (.ite (fun h => .throw ⟨rfl, rfl, .inl h⟩) fun _ => .get_bind ?_)
  dsimp only
  refine .seq (sendAndRegister_ends ..) (fun e t ht => ⟨ht.1, ht.2.1, .inr ht.2.2⟩)
    fun err t ht => ?_
  refine .ite (fun _ => .pure ht.1) fun _ => ?_
  exact .seq (scheduleKeepAlive_ends sessionID t) (fun _ _ h => h.elim)
    fun _ u hu => .pure (ht.1.trans hu)

/-! ## The playback session -/

/-- What `findPlaybackSession` finds. -/
def playbackSessionFor [CharData] (s : WifiDisplaySource) (data : ParsedMessage) :
    Except JavaException (Option PlaybackSession × ℤ) := do
  let playbackSessionID ← ParsedMessage.getInt data.mDict (jstr "session") (-1)
  let info := s.mClientInfo
  return if playbackSessionID = -1 then (info.mPlaybackSession, info.mPlaybackSessionID)
    else if playbackSessionID ≠ info.mPlaybackSessionID then (none, playbackSessionID)
    else (info.mPlaybackSession, playbackSessionID)

/-- There is a playback session, and the message does not name another one. -/
def Finds [CharData] (s : WifiDisplaySource) (data : ParsedMessage) : Prop :=
  ∃ session playbackSessionID,
    s.playbackSessionFor data = .ok (some session, playbackSessionID)

theorem findPlaybackSession_ends [CharData] (data : ParsedMessage) (s : WifiDisplaySource) :
    Ends (findPlaybackSession data) s (fun found t => t = s ∧ s.playbackSessionFor data = .ok found)
      (fun e t => t = s ∧ s.playbackSessionFor data = .error e) := by
  unfold findPlaybackSession
  refine .bind ((call_ends _ s).mono (fun _ _ ht => ht) fun e t ht => ⟨ht.1, ?_⟩) ?_
  · rw [playbackSessionFor, ht.2, error_bind]
  · rintro playbackSessionID t ⟨rfl, hid⟩
    refine .get_bind ?_
    simp only [playbackSessionFor, hid, ok_bind]
    refine .ite (fun h => .pure ⟨rfl, by rw [if_pos h]; rfl⟩) fun h => ?_
    rw [if_neg h]
    refine .ite (fun h' => .pure ⟨rfl, by rw [if_pos h']; rfl⟩) fun h' => ?_
    rw [if_neg h']
    exact .pure ⟨rfl, rfl⟩

theorem mem_of_playbackSessionFor [CharData] {s : WifiDisplaySource} {data : ParsedMessage}
    {session : PlaybackSession} {playbackSessionID : ℤ}
    (h : s.playbackSessionFor data = .ok (some session, playbackSessionID)) :
    s.mClientInfo.mPlaybackSession = some session := by
  obtain ⟨headerID, -, h⟩ := bind_eq_ok.mp h
  simp only [pure, Except.pure, Except.ok.injEq] at h
  split at h
  · exact congrArg Prod.fst h
  split at h
  · cases h
  · exact congrArg Prod.fst h

/-- The playback session notices an effect, and nothing else changes. -/
structure Drives (effect : Effect) (s t : WifiDisplaySource) : Prop extends Control s t where
  drives : t.effects.filter Effect.drives = s.effects.filter Effect.drives ++ [effect]
  negotiated : t.negotiated = s.negotiated

theorem pause_ends (env : Env) (s : WifiDisplaySource) :
    Ends (pause env) s (fun err t => err = OK ∧ Drives .pause s t) (fun _ _ => False) := by
  unfold pause
  refine .modify_bind (.modify_bind (.pure ⟨rfl, { Control.refl s with }, ?_, rfl⟩))
  exact List.filter_append ..

theorem finishPlay_ends (env : Env) (s : WifiDisplaySource) :
    Ends (finishPlay env) s (fun _ t => Drives .play s t)
      (fun e t => t = s ∧ e = .nullPointer ∧ s.mClientInfo.mPlaybackSession = none) := by
  unfold finishPlay
  refine .get_bind ?_
  cases hsession : s.mClientInfo.mPlaybackSession with
  | none => exact .throw_bind ⟨rfl, rfl, rfl⟩
  | some session =>
      unfold play
      refine .pure_bind (.bind (Q := fun err t => err = OK ∧ Drives .play s t) ?_ ?_)
      · refine .modify_bind (.modify_bind (.pure ⟨rfl, { Control.refl s with }, ?_, rfl⟩))
        exact List.filter_append ..
      · exact fun err t ht => .ite (fun herr => absurd ht.1 herr) fun _ => .pure ht.2

theorem requestIDRFrame_ends (env : Env) (s : WifiDisplaySource) :
    Ends (requestIDRFrame env) s (fun _ t => Drives .requestIDRFrame s t)
      (fun _ t => Drives .requestIDRFrame s t) := by
  have hdrives : Drives .requestIDRFrame s { s with effects := s.effects ++ [.requestIDRFrame] } :=
    ⟨{ Control.refl s with }, List.filter_append .., rfl⟩
  unfold requestIDRFrame
  exact .modify_bind ((call_ends _ _).mono (fun _ _ ht => ht.1 ▸ hdrives)
    fun _ _ ht => ht.1 ▸ hdrives)

theorem updateLiveness_ends (env : Env) (s : WifiDisplaySource) :
    Ends (updateLiveness env) s (fun _ t => Quiet s t) (fun _ _ => False) :=
  .modify ⟨{ Steady.refl s with }, rfl⟩

/-! ## Messages of the sink -/

/-- What `onReceiveClientData` takes a message for. -/
inductive Kind where
  | response (cseq : ℤ)
  | request (method : JString) (cseq : ℤ)
  deriving DecidableEq

/-- There is none for a message that is at most answered with an error. -/
def kind [CharData] (data : ParsedMessage) : Option Kind :=
  match data.checkToString, data.getRequestField 0,
      ParsedMessage.getInt data.mDict (jstr "cseq") (-1) with
  | .ok _, .ok method, .ok cseq =>
      if cseq = -1 then none
      else if (jstr "RTSP/").isPrefixOf method then some (.response cseq)
      else if data.getRequestField 2 = .ok (jstr "RTSP/1.0") then some (.request method cseq)
      else none
  | _, _, _ => none

/-- A message is a response or a request, or the source goes on as if there had been none. -/
theorem onReceiveClientData_ends [CharData] {env : Env} {sessionID : ℤ} {data : ParsedMessage}
    {s : WifiDisplaySource} {Q : ℤ → WifiDisplaySource → Prop}
    {E : JavaException → WifiDisplaySource → Prop}
    (hresponse : ∀ cseq, kind data = some (.response cseq) →
      Ends (onResponse env sessionID cseq data) s Q E)
    (hrequest : ∀ method cseq, kind data = some (.request method cseq) →
      Ends (onRequest env sessionID cseq method data) s Q E)
    (hnone : kind data = none → (∀ err t, Quiet s t → Q err t) ∧ ∀ e, E e s) :
    Ends (onReceiveClientData env sessionID data) s Q E := by
  have herror : kind data = none → ∀ detail cseq err, Ends (do
      sendErrorResponse env sessionID detail cseq
      return err) s Q E := fun h detail cseq err =>
    .seq (sendErrorResponse_ends ..) (fun e _ ht => ht.1 ▸ (hnone h).2 e)
      fun _ t ht => .pure ((hnone h).1 err t ht)
  unfold onReceiveClientData
  unfold kind at hresponse hrequest hnone herror
  refine .seq (call_ends _ s) ?_ ?_
  · rintro e t ⟨rfl, hthrows⟩
    exact (hnone (by rw [hthrows])).2 e
  rintro _ t ⟨rfl, hstring⟩
  refine .seq (call_ends _ t) ?_ ?_
  · rintro e t ⟨rfl, hthrows⟩
    exact (hnone (by rw [hstring, hthrows])).2 e
  rintro method t ⟨rfl, hmethod⟩
  refine .seq (call_ends _ t) ?_ ?_
  · rintro e t ⟨rfl, hthrows⟩
    exact (hnone (by rw [hstring, hmethod, hthrows])).2 e
  rintro cseq t ⟨rfl, hcseq⟩
  simp only [hstring, hmethod, hcseq] at hresponse hrequest hnone herror
  refine .ite (fun hmissing => herror (if_pos hmissing) ..) fun hcseq => ?_
  simp only [if_neg hcseq] at hresponse hrequest hnone herror
  refine .ite (fun hprefix => hresponse cseq (if_pos hprefix)) fun hprefix => ?_
  simp only [if_neg hprefix] at hresponse hrequest hnone herror
  refine .seq (call_ends _ t) ?_ ?_
  · rintro e t ⟨rfl, hthrows⟩
    exact (hnone (by rw [hthrows, if_neg nofun])).2 e
  rintro version t ⟨rfl, hversion⟩
  simp only [hversion, Except.ok.injEq] at hresponse hrequest hnone herror
  exact .ite (fun hne => herror (if_neg hne) ..)
    fun heq => hrequest method cseq (if_pos (not_not.mp heq))

end MirrorCast.WifiDisplaySource
