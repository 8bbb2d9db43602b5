import MirrorCast.Verification.Source.Handlers
import MirrorCast.Verification.Source.Matching
import MirrorCast.Verification.Source.Texts

/-! # Everything the source says is a whole message -/

namespace MirrorCast.WifiDisplaySource

open Java ParsedMessage RTPBase
open ANetworkSession (OK)

/-- A request, for whose number a handler is registered. -/
def Asks (effects : List Effect) (sessionID : ℤ) (data : JString) : Prop :=
  ∃ cseq func m, .registerResponseHandler sessionID cseq func ∈ effects ∧
    -2 ^ 31 ≤ cseq ∧ cseq < 2 ^ 31 ∧ IsText requestLines cseq m ∧ data = m.text

/-- A response to something heard on the session under its number. -/
def Replies (heard : ℤ → ℤ → Prop) (sessionID : ℤ) (data : JString) : Prop :=
  ∃ cseq m, heard sessionID cseq ∧ IsText statusLines cseq m ∧ data = m.text

/-- The next number is an `int`. -/
def Numbered (s : WifiDisplaySource) : Prop := -2 ^ 31 ≤ s.mNextCSeq ∧ s.mNextCSeq < 2 ^ 31

/-- What is sent between two states are requests and responses. -/
structure Speaks (heard : ℤ → ℤ → Prop) (s t : WifiDisplaySource) (effects : List Effect) :
    Prop where
  effects_eq : t.effects = s.effects ++ effects
  numbered : Numbered t
  texts : ∀ sessionID data, .sendRequest sessionID data ∈ effects →
    Asks effects sessionID data ∨ Replies heard sessionID data

structure Says (heard : ℤ → ℤ → Prop) (s t : WifiDisplaySource) : Prop where
  speaks : Numbered s → ∃ effects, Speaks heard s t effects

variable {heard : ℤ → ℤ → Prop} {s t : WifiDisplaySource}

theorem Asks.mono {effects effects' : List Effect} (h : effects ⊆ effects') {sessionID : ℤ}
    {data : JString} (hasks : Asks effects sessionID data) : Asks effects' sessionID data := by
  obtain ⟨cseq, func, m, hmem, hrest⟩ := hasks
  exact ⟨cseq, func, m, h hmem, hrest⟩

theorem Speaks.trans {u : WifiDisplaySource} {effects effects' : List Effect}
    (h : Speaks heard s t effects) (h' : Speaks heard t u effects') :
    Speaks heard s u (effects ++ effects') where
  effects_eq := by rw [h'.effects_eq, h.effects_eq, List.append_assoc]
  numbered := h'.numbered
  texts sessionID data hmem := by
    rcases List.mem_append.mp hmem with hmem | hmem
    · exact (h.texts sessionID data hmem).imp_left (Asks.mono (List.subset_append_left ..))
    · exact (h'.texts sessionID data hmem).imp_left (Asks.mono (List.subset_append_right ..))

theorem Says.same (heffects : t.effects = s.effects) (hserial : t.mNextCSeq = s.mNextCSeq) :
    Says heard s t := by
  constructor
  intro hs
  refine ⟨[], heffects.trans (List.append_nil _).symm, ?_, fun _ _ h => absurd h List.not_mem_nil⟩
  rwa [Numbered, hserial]

instance : IsPreorder WifiDisplaySource (Says heard) where
  refl _ := .same rfl rfl
  trans _ _ _ h h' := by
    constructor
    intro hs
    obtain ⟨effects, hspeaks⟩ := h.speaks hs
    obtain ⟨effects', hspeaks'⟩ := h'.speaks hspeaks.numbered
    exact ⟨_, hspeaks.trans hspeaks'⟩

def Effect.isSilent : Effect → Bool
  | .sendRequest _ _ => false
  | _ => true

theorem Says.log {effect : Effect} (heffects : t.effects = s.effects ++ [effect])
    (hserial : t.mNextCSeq = s.mNextCSeq) (hsilent : effect.isSilent = true) :
    Says heard s t := by
  constructor
  intro hs
  refine ⟨[effect], heffects, ?_, fun sessionID data hmem => ?_⟩
  · rwa [Numbered, hserial]
  · rw [← List.mem_singleton.mp hmem] at hsilent
    cases hsilent

/-! ## Texts -/

def message {env : Env} (henv : env.OneLine) {line : JString} (hline : 0x0d ∉ line)
    (cseq playbackSessionID : ℤ) (closing : List Header) (content : JString) : Written :=
  ⟨line, commonHeaders henv cseq playbackSessionID ++ closing, content, hline⟩

theorem text_message {env : Env} (henv : env.OneLine) {line : JString} (hline : 0x0d ∉ line)
    (cseq playbackSessionID : ℤ) (closing : List Header) (content : JString) :
    (message henv hline cseq playbackSessionID closing content).text =
      line ++ crlf ++ commonResponse env cseq playbackSessionID ++ headerLines closing ++ crlf ++
        content := by
  rw [message, Written.text, headerLines_append, commonResponse_eq henv, crlf_eq]
  simp only [List.append_assoc]

theorem request_oneLine : ∀ line ∈ requestLines, 0x0d ∉ line := by decide

theorem status_oneLine : ∀ line ∈ statusLines, 0x0d ∉ line := by decide

theorem getParameterLine : jstr "GET_PARAMETER rtsp://localhost/wfd1.0 RTSP/1.0\r\n" =
    jstr "GET_PARAMETER rtsp://localhost/wfd1.0 RTSP/1.0" ++ crlf := by decide

theorem setParameterLine : jstr "SET_PARAMETER rtsp://localhost/wfd1.0 RTSP/1.0\r\n" =
    jstr "SET_PARAMETER rtsp://localhost/wfd1.0 RTSP/1.0" ++ crlf := by decide

section

variable {env : Env} (henv : env.OneLine)

include henv

theorem says_sendAndRegister {line : JString} (hline : line ∈ requestLines)
    {closing : List Header} {content : JString} (hcloses : Closes closing content)
    (sessionID : ℤ) (func : HandleRTSPResponseFunc) (s : WifiDisplaySource) :
    Keeps (Says heard) (sendAndRegister env sessionID (line ++ crlf)
      (headerLines closing ++ crlf ++ content) func) s := by
  refine (sendAndRegister_logs ..).mono ?_ fun _ _ ht => ht ▸ .same rfl rfl
  rintro err t (⟨-, rfl⟩ | ⟨-, rfl⟩)
  · constructor
    intro hs
    refine ⟨_, rfl, int32_bounds _, fun sessionID' data hmem => .inl ?_⟩
    have hsame : sessionID' = sessionID ∧ data = line ++ crlf ++
        commonResponse env s.mNextCSeq (-1) ++ (headerLines closing ++ crlf ++ content) := by
      simpa using hmem
    rw [hsame.1, hsame.2]
    have hclean := request_oneLine line hline
    refine ⟨s.mNextCSeq, func, message henv hclean s.mNextCSeq (-1) closing content, by simp,
      hs.1, hs.2, ⟨hline, env, henv, -1, closing, rfl, hcloses⟩, ?_⟩
    rw [text_message]
    simp only [List.append_assoc]
  · exact .same rfl rfl

/-- A response with these closing headers. -/
theorem says_respond {line : JString} (hline : line ∈ statusLines) {closing : List Header}
    (hcloses : Closes closing []) {sessionID cseq : ℤ} (hheard : heard sessionID cseq)
    (playbackSessionID : ℤ) (s : WifiDisplaySource) :
    Keeps (Says heard) (sendRequest sessionID (line ++ crlf ++
      commonResponse env cseq playbackSessionID ++ headerLines closing ++ crlf)) s := by
  refine (sendRequest_logs ..).mono ?_ fun _ _ ht => ht ▸ .same rfl rfl
  rintro err t (⟨-, rfl⟩ | ⟨-, rfl⟩)
  · constructor
    intro hs
    refine ⟨_, rfl, hs, fun sessionID' data hmem => .inr ?_⟩
    cases List.mem_singleton.mp hmem
    have hclean := status_oneLine line hline
    refine ⟨cseq, message henv hclean cseq playbackSessionID closing [], hheard,
      ⟨hline, env, henv, playbackSessionID, closing, rfl, hcloses⟩, ?_⟩
    rw [text_message, List.append_nil]
  · exact .same rfl rfl

/-! ## Requests -/

theorem says_textParameters {line : JString} (hline : line ∈ requestLines) (content : JString)
    (sessionID : ℤ) (func : HandleRTSPResponseFunc) (s : WifiDisplaySource) :
    Keeps (Says heard) (sendAndRegister env sessionID (line ++ crlf) (textParameters content) func)
      s := by
  rw [textParameters_eq, ← crlf_eq]
  exact says_sendAndRegister henv hline (.body content) sessionID func s

theorem says_sendM1 (sessionID : ℤ) (s : WifiDisplaySource) :
    Keeps (Says heard) (sendM1 env sessionID) s := by
  have hline : jstr "OPTIONS * RTSP/1.0\r\n" = jstr "OPTIONS * RTSP/1.0" ++ crlf := by decide
  have hheaders : jstr "Require: org.wfa.wfd1.0\r\n\r\n" =
      headerLines [⟨jstr "Require", jstr " org.wfa.wfd1.0", by decide, by decide⟩] ++ crlf ++ [] :=
    by decide
  rw [sendM1, hline, hheaders]
  exact says_sendAndRegister henv (by simp [requestLines]) (.bare (by simp)) sessionID _ s

theorem says_sendM3 (sessionID : ℤ) (s : WifiDisplaySource) :
    Keeps (Says heard) (sendM3 env sessionID) s := by
  rw [sendM3, getParameterLine]
  exact says_textParameters henv (by simp [requestLines]) _ sessionID _ s

theorem says_sendTrigger (sessionID : ℤ) (triggerType : TriggerType) (s : WifiDisplaySource) :
    Keeps (Says heard) (sendTrigger env sessionID triggerType) s := by
  rw [sendTrigger, setParameterLine]
  exact says_textParameters henv (by simp [requestLines]) _ sessionID _ s

theorem says_sendM4 (sessionID : ℤ) (s : WifiDisplaySource) :
    Keeps (Says heard) (sendM4 env sessionID) s := by
  unfold sendM4
  refine .get_bind (.ite (fun _ => .throw_bind) fun _ => ?_)
  refine .bind ((videoLines_keeps s).imp fun _ ht => ?_) fun lines t _ => .get_bind ?_
  · rw [ht]
    exact .same rfl rfl
  · dsimp only
    rw [setParameterLine]
    exact says_textParameters henv (by simp [requestLines]) _ sessionID _ t

omit henv in
theorem says_scheduleKeepAlive (sessionID : ℤ) (s : WifiDisplaySource) :
    Keeps (Says heard) (scheduleKeepAlive sessionID) s := by
  unfold scheduleKeepAlive
  exact .ite (fun _ => .throw_bind) fun _ => .modify (.log rfl rfl rfl)

theorem says_sendM16 (sessionID : ℤ) (s : WifiDisplaySource) :
    Keeps (Says heard) (sendM16 env sessionID) s := by
  have hsession : jstr "Session: " = jstr ("Session" ++ ":") ++ jstr " " := by decide
  have hheaders : jstr "Session: " ++ decimal s.mClientInfo.mPlaybackSessionID ++ crlf ++ crlf =
      headerLines [sessionHeader s.mClientInfo.mPlaybackSessionID [] List.not_mem_nil] ++ crlf ++
        [] := by
    have hline := @line_eq (sessionHeader s.mClientInfo.mPlaybackSessionID [] List.not_mem_nil)
      "Session" rfl
    rw [headerLines, List.flatMap_singleton, hline, hsession, crlf_eq]
    simp [sessionHeader]
  unfold sendM16
  refine .get_bind (.ite (fun _ => .throw_bind) fun _ => .get_bind ?_)
  rw [getParameterLine]
  dsimp only
  rw [hheaders]
  refine .bind (says_sendAndRegister henv (by simp [requestLines]) (.bare ?_) sessionID _ s) ?_
  · simp [sessionHeader]
  · exact fun err t _ => .ite (fun _ => .pure) fun _ =>
      .bind (says_scheduleKeepAlive ..) fun _ _ _ => .pure

omit henv in
theorem says_onReceiveM3Response [CharData] (sessionID : ℤ) (msg : ParsedMessage)
    (s : WifiDisplaySource) (hM4 : ∀ t, Keeps (Says heard) (sendM4 env sessionID) t) :
    Keeps (Says heard) (onReceiveM3Response env sessionID msg) s := by
  have hpicks : ∀ s t, Picks s t → Says heard s t := by
    intro s t h
    rw [h]
    exact .same rfl rfl
  unfold onReceiveM3Response
  refine .bind (call_keeps _ _) fun statusCode t _ => ?_
  split
  · exact .pure
  split
  · exact .pure
  split
  · exact .pure
  refine .bind (call_keeps _ _) fun port t _ => ?_
  cases port with
  | error err => exact .pure
  | ok port0 =>
      refine .modify_bind (.same rfl rfl) ?_
      refine .bind ((chooseVideo_keeps _ _).imp fun _ => hpicks _ _) fun err t _ => ?_
      refine .ite (fun _ => .pure) fun _ => ?_
      refine .bind ((chooseAudio_keeps _ _).imp fun _ => hpicks _ _) fun err t _ => ?_
      refine .ite (fun _ => .pure) fun _ => .get_bind (.ite (fun _ => .pure) fun _ => ?_)
      exact hM4 t

theorem says_handle [CharData] (func : HandleRTSPResponseFunc) (sessionID : ℤ)
    (msg : ParsedMessage) (s : WifiDisplaySource) :
    Keeps (Says heard) (func.handle env sessionID msg) s := by
  cases func with
  | onReceiveM1Response => exact checkStatus_keeps msg s
  | onReceiveM3Response => exact says_onReceiveM3Response sessionID msg s (says_sendM4 henv sessionID)
  | onReceiveM4Response =>
      refine .bind (call_keeps _ _) fun statusCode t _ => ?_
      split
      · exact .pure
      · exact says_sendTrigger henv sessionID _ t
  | onReceiveM5Response => exact checkStatus_keeps msg s
  | onReceiveM16Response =>
      refine .get_bind (.ite (fun _ => .throw_bind) fun _ => .get_bind ?_)
      refine .bind (.ite (fun _ => ?_) fun _ => .pure) fun _ _ _ => .pure
      exact .modify (.same rfl rfl)

theorem says_onResponse [CharData] (sessionID cseq : ℤ) (data : ParsedMessage)
    (s : WifiDisplaySource) : Keeps (Says heard) (onResponse env sessionID cseq data) s := by
  unfold onResponse
  refine .get_bind ?_
  split
  · exact .pure
  · rename_i func _
    exact .modify_bind (.log rfl rfl rfl) (says_handle henv func sessionID data _)

end

/-! ## Stopping -/

theorem says_destroySession (sessionID : ℤ) (s : WifiDisplaySource) :
    Keeps (Says heard) (destroySession sessionID) s :=
  .modify_bind (.same rfl rfl) (.modify (.log rfl rfl rfl))

theorem says_finishStop2 (s : WifiDisplaySource) : Keeps (Says heard) finishStop2 s := by
  unfold finishStop2
  refine .get_bind (.bind (.ite (fun _ => ?_) fun _ => .pure) fun _ t _ => ?_)
  · exact .bind (says_destroySession ..) fun _ _ _ => .modify (.same rfl rfl)
  refine .modify_bind (.same rfl rfl) (.get_bind ?_)
  split
  · exact .throw
  · exact .modify_bind (.log rfl rfl rfl) (.modify (.same rfl rfl))

theorem says_disconnectClient2 (s : WifiDisplaySource) :
    Keeps (Says heard) disconnectClient2 s := by
  unfold disconnectClient2
  refine .modify_bind (.same rfl rfl) (.get_bind ?_)
  refine .bind (.ite (fun _ => ?_) fun _ => .pure) fun _ t _ => .get_bind ?_
  · exact .bind (says_destroySession ..) fun _ _ _ => .modify (.same rfl rfl)
  exact .ite (fun _ => .throw_bind) fun _ => .modify_bind (.log rfl rfl rfl) (says_finishStop2 _)

theorem says_finishStop (s : WifiDisplaySource) : Keeps (Says heard) finishStop s := by
  unfold finishStop disconnectClientAsync
  refine .modify_bind (.same rfl rfl) (.get_bind ?_)
  split
  · exact says_disconnectClient2 _
  · exact .modify (.log rfl rfl rfl)

theorem says_finishPlay (env : Env) (s : WifiDisplaySource) :
    Keeps (Says heard) (finishPlay env) s := by
  unfold finishPlay play
  refine .get_bind (.bind (nonNull_keeps ..) fun _ t _ => ?_)
  refine .bind (.modify_bind (.same rfl rfl) (.modify_bind (.log rfl rfl rfl) .pure)) ?_
  exact fun err t _ => .ite (fun _ => .throw) fun _ => .pure

theorem says_scheduleReaper (s : WifiDisplaySource) : Keeps (Says heard) scheduleReaper s := by
  unfold scheduleReaper
  refine .get_bind (.ite (fun _ => .pure) fun _ => .modify_bind (.same rfl rfl) ?_)
  exact .modify (.log rfl rfl rfl)

theorem says_onReapDeadClients (env : Env) (s : WifiDisplaySource) :
    Keeps (Says heard) (onReapDeadClients env) s := by
  unfold onReapDeadClients
  refine .modify_bind (.same rfl rfl) (.get_bind (.ite (fun _ => .pure) fun _ => ?_))
  split
  · exact .pure
  · refine .ite (fun _ => ?_) fun _ => says_scheduleReaper _
    exact .bind (says_destroySession ..) fun _ _ _ => .modify (.same rfl rfl)

theorem says_onTeardownTriggerTimedOut (s : WifiDisplaySource) :
    Keeps (Says heard) onTeardownTriggerTimedOut s := by
  unfold onTeardownTriggerTimedOut
  refine .get_bind (.ite (fun _ => .ite (fun _ => .throw_bind) fun _ => ?_) fun _ => .pure)
  exact says_finishStop s

theorem says_onPlaybackSessionNotify (env : Env) (sessionID : ℤ) (n : PlaybackNotification)
    (s : WifiDisplaySource) :
    Keeps (Says heard) (onPlaybackSessionNotify env sessionID n) s := by
  unfold onPlaybackSessionNotify
  split
  · exact .pure
  · refine .modify_bind (.same rfl rfl) (.bind (says_finishPlay env _) fun _ t _ => ?_)
    exact .get_bind (.ite (fun _ => .modify (.same rfl rfl)) fun _ => .pure)
  · exact says_disconnectClient2 s
  · unfold onBinaryData
    refine .ite (fun _ => .throw_bind) fun _ => .ite (fun _ => .throw_bind) fun _ => .get_bind ?_
    split
    · exact .pure
    · exact .ite (fun _ => .modify_bind (.log rfl rfl rfl) (.modify (.log rfl rfl rfl))) fun _ => .throw

theorem says_onStart [CharData] (env : Env) (msg : ℕ) (iface : Option JString)
    (s : WifiDisplaySource) : Keeps (Says heard) (onStart env msg iface) s := by
  unfold onStart
  split
  · exact .throw
  dsimp only
  refine .bind (.ite (fun _ => .pure) fun _ => ?_) fun err t _ =>
    .modify_bind (.same rfl rfl) (.modify (.log rfl rfl rfl))
  unfold startServer createRTSPServer
  refine .ite (fun _ => .pure) fun _ => .bind (.ite (fun _ => .pure) fun _ => ?_) ?_
  · refine .bind (call_keeps ..) fun _ u _ => .ite (fun _ => .pure) fun _ => ?_
    exact .modify_bind (.same rfl rfl) (.modify_bind (.log rfl rfl rfl) .pure)
  · rintro (_ | mSessionID) u -
    · exact .pure
    · exact .modify_bind (.same rfl rfl) .pure

section

variable {env : Env} (henv : env.OneLine)

include henv

theorem says_onStop (msg : ℕ) (s : WifiDisplaySource) :
    Keeps (Says heard) (onStop env msg) s := by
  unfold onStop
  refine .modify_bind (.same rfl rfl) (.get_bind (.ite (fun _ => .throw_bind) fun _ => ?_))
  refine .ite (fun _ => ?_) fun _ => says_finishStop _
  refine .bind (says_sendTrigger henv ..) fun err t _ => .ite (fun _ => ?_) fun _ => ?_
  · exact .modify_bind (.same rfl rfl) (.modify (.log rfl rfl rfl))
  · exact says_finishStop t

theorem says_onTrigger (msg : ℕ) (expected next : State) (triggerType : TriggerType)
    (s : WifiDisplaySource) :
    Keeps (Says heard) (onTrigger env msg expected next triggerType) s := by
  unfold onTrigger
  refine .get_bind (.ite (fun _ => .modify (.log rfl rfl rfl)) fun _ => ?_)
  refine .modify_bind (.same rfl rfl) (.bind (says_sendTrigger henv ..) fun _ t _ => ?_)
  exact .modify (.log rfl rfl rfl)

theorem says_onClientConnected (sessionID : ℤ) (clientIP serverIP : Option JString)
    (serverPort : ℤ) (s : WifiDisplaySource) :
    Keeps (Says heard) (onClientConnected env sessionID clientIP serverIP serverPort) s := by
  unfold onClientConnected
  refine .get_bind (.ite (fun _ => says_destroySession ..) fun _ => .get_bind ?_)
  refine .ite (fun _ => .throw_bind) fun _ => .ite (fun _ => .throw_bind) fun _ => ?_
  refine .modify_bind (.same rfl rfl) (.ite (fun _ => .throw_bind) fun _ => ?_)
  refine .modify_bind (.same rfl rfl) (.ite (fun _ => says_destroySession ..) fun _ => ?_)
  refine .modify_bind (.same rfl rfl) (.modify_bind (.same rfl rfl) ?_)
  refine .modify_bind (.same rfl rfl) (.bind (says_sendM1 henv ..) fun err t _ => ?_)
  exact .ite (fun _ => .throw) fun _ => .pure

/-! ## Responses -/

variable {sessionID cseq : ℤ} (hheard : heard sessionID cseq)

include hheard

theorem says_sendErrorResponse {detail : JString}
    (hdetail : detail ∈ statuses) (s : WifiDisplaySource) :
    Keeps (Says heard) (sendErrorResponse env sessionID detail cseq) s := by
  have hsays := says_respond henv (List.mem_map_of_mem hdetail) .nil hheard (-1) s
  rw [headerLines, List.flatMap_nil, List.append_nil] at hsays
  exact .bind hsays fun _ _ _ => .pure

/-- An error response in front of the result. -/
theorem says_refuse {detail : JString} (hdetail : detail ∈ statuses)
    (err : ℤ) (s : WifiDisplaySource) :
    Keeps (Says heard) (do
      sendErrorResponse env sessionID detail cseq
      return err) s :=
  .bind (says_sendErrorResponse henv hheard hdetail s) fun _ _ _ => .pure

theorem says_sessionNotFound (s : WifiDisplaySource) :
    Keeps (Says heard) (sessionNotFound env sessionID cseq) s :=
  says_refuse henv hheard (by simp [statuses]) _ s

theorem says_okResponse (playbackSessionID : ℤ) {closing : List Header} {text : JString}
    (htext : text = headerLines closing ++ crlf) (hcloses : Closes closing [])
    (s : WifiDisplaySource) :
    Keeps (Says heard)
      (sendRequest sessionID (okResponse env cseq playbackSessionID ++ text)) s := by
  have hline : jstr "RTSP/1.0 200 OK\r\n" = jstr "RTSP/1.0 " ++ jstr "200 OK" ++ crlf := by
    decide
  have hmem : jstr "200 OK" ∈ statuses := by simp [statuses]
  have hsays := says_respond henv (List.mem_map_of_mem hmem) hcloses hheard playbackSessionID s
  rw [okResponse, hline, htext]
  simpa only [List.append_assoc] using hsays

/-- A response without closing headers. -/
theorem says_bareResponse (playbackSessionID : ℤ) (s : WifiDisplaySource) :
    Keeps (Says heard)
      (sendRequest sessionID (okResponse env cseq playbackSessionID ++ crlf)) s :=
  says_okResponse henv hheard playbackSessionID (List.nil_append _).symm .nil s

/-! ## The requests of the sink -/

omit henv hheard in
/-- No playback session comes about for an interleaved transport. -/
theorem not_interleaved {media : PlaybackSession.Media} {transport : Transport}
    {rtcpMode : TransportMode} {enableAudio enableVideo : Bool} {playbackSession : PlaybackSession}
    (h : PlaybackSession.init media transport.clientRtp transport.rtpMode transport.clientRtcp
      rtcpMode enableAudio enableVideo = .ok (OK, playbackSession)) :
    transport.rtpMode ≠ .TRANSPORT_TCP_INTERLEAVED := by
  intro hmode
  unfold PlaybackSession.init at h
  obtain ⟨err, -, h⟩ := bind_eq_ok.mp h
  dsimp only at h
  split at h
  · rename_i hne
    exact hne (congrArg Prod.fst (Except.ok.inj h))
  split at h
  · rename_i hne
    exact hne (congrArg Prod.fst (Except.ok.inj h))
  obtain ⟨err', herr, h⟩ := bind_eq_ok.mp h
  cases h
  rw [hmode] at herr
  unfold RTPSender.initAsync at herr
  split at herr
  · cases herr
  · cases herr

omit henv hheard in
/-- The line of another transport ends like all lines. -/
theorem exists_transportHeader {transport : Transport} (serverRtp : ℤ)
    (hmode : transport.rtpMode ≠ .TRANSPORT_TCP_INTERLEAVED) :
    ∃ header : Header, header.name = jstr "Transport" ∧
      transportLine transport serverRtp = headerLines [header] := by
  have hclean : ∀ n : ℤ, 0x0d ∉ decimal n := oneLine_decimal
  have hcolon : jstr "Transport: RTP/AVP/" = jstr "Transport" ++ 0x3a :: jstr " RTP/AVP/" := by
    decide
  refine ⟨⟨jstr "Transport", jstr " RTP/AVP/" ++
    ((if transport.rtpMode = .TRANSPORT_TCP then jstr "TCP" else jstr "UDP") ++
      (jstr ";unicast;client_port=" ++ (decimal transport.clientRtp ++
        (if 0 ≤ transport.clientRtcp then
          jstr "-" ++ decimal transport.clientRtcp ++ jstr ";server_port=" ++ decimal serverRtp ++
            jstr "-" ++ decimal (serverRtp + 1)
        else jstr ";server_port=" ++ decimal serverRtp)))), by decide, ?_⟩, rfl, ?_⟩
  · refine oneLine_append (by decide) (oneLine_append ?_ (oneLine_append (by decide)
      (oneLine_append (hclean _) ?_)))
    · split <;> decide
    · split
      · refine oneLine_append (oneLine_append (oneLine_append (oneLine_append (oneLine_append
          (by decide) (hclean _)) (by decide)) (hclean _)) (by decide)) (hclean _)
      · exact oneLine_append (by decide) (hclean _)
  · rw [transportLine, if_neg hmode, headerLines, List.flatMap_singleton, Header.line, hcolon,
      crlf_eq]
    simp only [List.append_assoc, List.cons_append]

theorem says_setUpPlaybackSession (transport : Transport) (s : WifiDisplaySource) :
    Keeps (Says heard) (setUpPlaybackSession env sessionID cseq transport) s := by
  unfold setUpPlaybackSession
  refine .get_bind (keeps_call_bind ?_)
  rintro ⟨err, playbackSession⟩ hinit
  refine .ite (fun _ => ?_) fun hok => ?_
  · refine says_refuse henv hheard ?_ _ s
    split <;> simp [statuses]
  have herr : err = OK := not_not.mp hok
  subst herr
  obtain ⟨header, hname, hline⟩ :=
    exists_transportHeader playbackSession.mLocalRTPPort (not_interleaved hinit)
  have htext : jstr "RTSP/1.0 200 OK\r\n" ++
      commonResponse env cseq (makeUniquePlaybackSessionID env) ++
      transportLine transport playbackSession.mLocalRTPPort ++ crlf =
      okResponse env cseq (makeUniquePlaybackSessionID env) ++
        (transportLine transport playbackSession.mLocalRTPPort ++ crlf) :=
    List.append_assoc ..
  refine .modify_bind (.same rfl rfl) (.modify_bind (.same rfl rfl) ?_)
  dsimp only
  rw [htext]
  refine .bind (says_okResponse henv hheard _ (congrArg (· ++ crlf) hline) (.bare ?_) _) ?_
  · simp [hname]
  intro err t _
  refine .ite (fun _ => .pure) fun _ => .modify_bind (.same rfl rfl) ?_
  refine .bind (says_scheduleReaper _) fun _ t _ => ?_
  exact .bind (says_scheduleKeepAlive ..) fun _ _ _ => .pure

variable [CharData]

omit henv hheard in
theorem status_of_parseTransport {transport detail : JString} {err : ℤ}
    (h : parseTransport transport = .ok (.error (detail, err))) :
    detail ∈ statuses := by
  have hbad : jstr "400 Bad Request" ∈ statuses := by simp [statuses]
  unfold parseTransport at h
  dsimp only at h
  split at h
  · split at h
    · cases h
    · obtain ⟨ports, -, h⟩ := bind_eq_ok.mp h
      split at h
      · cases h
      · cases h
        exact hbad
  · split at h
    · obtain ⟨ports, -, h⟩ := bind_eq_ok.mp h
      split at h
      · cases h
      · cases h
        exact hbad
    · split at h
      · cases h
      · cases h
        simp [statuses]

theorem says_onSetupRequest (data : ParsedMessage) (s : WifiDisplaySource) :
    Keeps (Says heard) (onSetupRequest env sessionID cseq data) s := by
  unfold onSetupRequest
  refine .get_bind (.ite (fun _ => .throw_bind) fun _ => .get_bind ?_)
  refine .ite (fun _ => says_refuse henv hheard (by simp [statuses]) _ _) fun _ => ?_
  split
  · exact says_refuse henv hheard (by simp [statuses]) _ _
  refine keeps_call_bind ?_
  rintro (⟨detail, err⟩ | transport) hparse
  · exact says_refuse henv hheard (status_of_parseTransport hparse) _ _
  refine .bind (call_keeps ..) fun uri t _ => ?_
  refine .ite (fun _ => says_refuse henv hheard (by simp [statuses]) _ _) fun _ => ?_
  refine .ite (fun _ => says_refuse henv hheard (by simp [statuses]) _ _) fun _ => ?_
  exact says_setUpPlaybackSession henv hheard transport t

def publicHeader : Header where
  name := jstr "Public"
  value := jstr " org.wfa.wfd1.0, SETUP, TEARDOWN, PLAY, PAUSE, GET_PARAMETER, SET_PARAMETER"
  name_visible := by decide
  value_oneLine := by decide

theorem says_onOptionsRequest (data : ParsedMessage) (s : WifiDisplaySource) :
    Keeps (Says heard) (onOptionsRequest env sessionID cseq data) s := by
  have htext :
      jstr "Public: org.wfa.wfd1.0, SETUP, TEARDOWN, PLAY, PAUSE, GET_PARAMETER, SET_PARAMETER\r\n" =
        headerLines [publicHeader] := by decide
  unfold onOptionsRequest
  refine keeps_findPlaybackSession_bind fun playbackSession _ _ => ?_
  refine .bind (.ite (fun _ => .modify (.same rfl rfl)) fun _ => .pure) fun _ t _ => ?_
  rw [List.append_assoc]
  refine .bind (says_okResponse henv hheard (-1) (congrArg (· ++ crlf) htext) (.bare ?_) t) ?_
  · simp [publicHeader]
  intro err t _
  exact .ite (fun _ => .pure) fun _ => says_sendM3 henv sessionID t

theorem says_onPlayRequest (data : ParsedMessage) (s : WifiDisplaySource) :
    Keeps (Says heard) (onPlayRequest env sessionID cseq data) s := by
  have htext : jstr "Range: npt=now-\r\n" ++ crlf =
      headerLines [⟨jstr "Range", jstr " npt=now-", by decide, by decide⟩] ++ crlf := by decide
  unfold onPlayRequest
  refine keeps_findPlaybackSession_bind fun playbackSession playbackSessionID _ => ?_
  refine .ite (fun _ => says_sessionNotFound henv hheard s) fun _ => .get_bind ?_
  refine .ite (fun _ => says_refuse henv hheard (by simp [statuses]) _ s) fun _ => ?_
  refine .bind (.ite (fun _ => says_finishPlay env s) fun _ => .pure) fun _ t _ => ?_
  rw [List.append_assoc]
  refine .bind (says_okResponse henv hheard _ htext (.bare (by simp)) t) fun err t _ => ?_
  refine .ite (fun _ => .pure) fun _ => ?_
  refine .ite (fun _ => .modify_bind (.same rfl rfl) .pure) fun _ => ?_
  exact .ite (fun _ => .throw_bind) fun _ => .modify_bind (.same rfl rfl) .pure

theorem says_onPauseRequest (data : ParsedMessage) (s : WifiDisplaySource) :
    Keeps (Says heard) (onPauseRequest env sessionID cseq data) s := by
  unfold onPauseRequest pause
  refine keeps_findPlaybackSession_bind fun playbackSession playbackSessionID _ => ?_
  refine .ite (fun _ => says_sessionNotFound henv hheard s) fun _ => .get_bind ?_
  refine .ite (fun _ => .pure) fun _ => ?_
  refine .bind (.modify_bind (.same rfl rfl) (.modify_bind (.log rfl rfl rfl) .pure)) ?_
  refine fun err t _ => .ite (fun _ => .throw_bind) fun _ => ?_
  refine .bind (says_bareResponse henv hheard _ t) fun err t _ => .ite (fun _ => .pure) fun _ => ?_
  exact .modify_bind (.same rfl rfl) .pure

theorem says_onTeardownRequest (data : ParsedMessage) (s : WifiDisplaySource) :
    Keeps (Says heard) (onTeardownRequest env sessionID cseq data) s := by
  have htext : jstr "Connection: close\r\n" ++ crlf =
      headerLines [⟨jstr "Connection", jstr " close", by decide, by decide⟩] ++ crlf := by decide
  unfold onTeardownRequest
  refine keeps_findPlaybackSession_bind fun playbackSession playbackSessionID _ => ?_
  refine .ite (fun _ => says_sessionNotFound henv hheard s) fun _ => ?_
  rw [List.append_assoc]
  refine .bind (says_okResponse henv hheard _ htext (.bare (by simp)) s) fun _ t _ => .get_bind ?_
  refine .bind (.ite (fun _ => .ite (fun _ => .throw_bind) fun _ => ?_) fun _ => .pure)
    fun _ _ _ => .pure
  exact says_finishStop t

theorem says_onGetParameterRequest (data : ParsedMessage) (s : WifiDisplaySource) :
    Keeps (Says heard) (onGetParameterRequest env sessionID cseq data) s := by
  unfold onGetParameterRequest
  refine keeps_findPlaybackSession_bind fun playbackSession playbackSessionID _ => ?_
  refine .ite (fun _ => says_sessionNotFound henv hheard s) fun _ => ?_
  exact .modify_bind (.same rfl rfl) (says_bareResponse henv hheard _ _)

theorem says_onSetParameterRequest (data : ParsedMessage) (s : WifiDisplaySource) :
    Keeps (Says heard) (onSetParameterRequest env sessionID cseq data) s := by
  unfold onSetParameterRequest requestIDRFrame
  refine keeps_findPlaybackSession_bind fun playbackSession playbackSessionID _ => ?_
  refine .ite (fun _ => says_sessionNotFound henv hheard s) fun _ => ?_
  refine .bind (.ite (fun _ => .modify_bind (.log rfl rfl rfl) (call_keeps ..)) fun _ => .pure) ?_
  exact fun _ t _ => .modify_bind (.same rfl rfl) (says_bareResponse henv hheard _ _)

theorem says_onRequest (method : JString) (data : ParsedMessage) (s : WifiDisplaySource) :
    Keeps (Says heard) (onRequest env sessionID cseq method data) s := by
  unfold onRequest
  refine .ite (fun _ => says_onOptionsRequest henv hheard data s) fun _ => ?_
  refine .ite (fun _ => says_onSetupRequest henv hheard data s) fun _ => ?_
  refine .ite (fun _ => says_onPlayRequest henv hheard data s) fun _ => ?_
  refine .ite (fun _ => says_onPauseRequest henv hheard data s) fun _ => ?_
  refine .ite (fun _ => says_onTeardownRequest henv hheard data s) fun _ => ?_
  refine .ite (fun _ => says_onGetParameterRequest henv hheard data s) fun _ => ?_
  refine .ite (fun _ => says_onSetParameterRequest henv hheard data s) fun _ => ?_
  exact says_refuse henv hheard (by simp [statuses]) _ s

omit hheard in
theorem says_onReceiveClientData (data : ParsedMessage) (s : WifiDisplaySource)
    (hheard : ∀ cseq, ParsedMessage.getInt data.mDict (jstr "cseq") (-1) = .ok cseq →
      heard sessionID cseq) :
    Keeps (Says heard) (onReceiveClientData env sessionID data) s := by
  unfold onReceiveClientData
  refine keeps_call_bind fun _ _ => keeps_call_bind fun method _ => ?_
  refine keeps_call_bind fun cseq hcseq => ?_
  have hnumber := hheard cseq hcseq
  refine .ite (fun hmissing => ?_) fun _ => ?_
  · rw [hmissing] at hnumber
    exact says_refuse henv hnumber (by simp [statuses]) _ s
  refine .ite (fun _ => says_onResponse henv sessionID cseq data s) fun _ => ?_
  refine keeps_call_bind fun version _ => ?_
  refine .ite (fun _ => says_refuse henv hnumber (by simp [statuses]) _ s) fun _ => ?_
  exact says_onRequest henv hnumber method data s

end

/-! ## Runs -/

variable [CharData]

/-- Something with this number comes in on this session. -/
def Hears (event : Event) (sessionID cseq : ℤ) : Prop :=
  ∃ env data, event = .message env (.rtspNotify (.session sessionID (.data data))) ∧
    ParsedMessage.getInt data.mDict (jstr "cseq") (-1) = .ok cseq

def Event.OneLine : Event → Prop
  | .message env _ => env.OneLine
  | _ => True

theorem says_onRtspNotify {env : Env} (henv : env.OneLine) (n : NetNotification)
    (s : WifiDisplaySource) (hheard : ∀ sessionID data cseq, n = .session sessionID (.data data) →
      ParsedMessage.getInt data.mDict (jstr "cseq") (-1) = .ok cseq → heard sessionID cseq) :
    Keeps (Says heard) (onRtspNotify env n) s := by
  unfold onRtspNotify
  split
  · exact says_onClientConnected henv ..
  · refine .bind (says_destroySession ..) fun _ t _ => .get_bind (.ite (fun _ => ?_) fun _ => .pure)
    exact .modify (.same rfl rfl)
  · rename_i sessionID data
    exact .bind (says_onReceiveClientData henv data s fun cseq => hheard sessionID data cseq rfl)
      fun _ _ _ => .pure
  · exact .pure
  all_goals exact .throw

theorem says_onMessageReceived {env : Env} (henv : env.OneLine) (msg : Message)
    (s : WifiDisplaySource) :
    Keeps (Says (Hears (.message env msg))) (onMessageReceived env msg) s := by
  cases msg with
  | start msg iface => exact says_onStart env msg iface s
  | rtspNotify n =>
      refine says_onRtspNotify henv n s ?_
      rintro sessionID data cseq rfl hcseq
      exact ⟨env, data, rfl, hcseq⟩
  | stop msg => exact says_onStop henv msg s
  | pause msg => exact says_onTrigger henv ..
  | resume msg => exact says_onTrigger henv ..
  | reapDeadClients => exact says_onReapDeadClients env s
  | playbackSessionNotify playbackSessionID sessionID n =>
      exact says_onPlaybackSessionNotify env sessionID n s
  | keepAlive sessionID =>
      refine .get_bind (.ite (fun _ => .pure) fun _ => ?_)
      exact .bind (says_sendM16 henv ..) fun _ _ _ => .pure
  | finishStop2 => exact says_finishStop2 s
  | teardownTriggerTimedOut => exact says_onTeardownTriggerTimedOut s

theorem says_step (event : Event) (hevent : event.OneLine) (s : WifiDisplaySource) :
    Says (Hears event) s (step s event).2 := by
  cases event with
  | start => exact .same rfl rfl
  | message env msg => exact (says_onMessageReceived hevent msg s).state
  | addSession sessionID mState => exact .same rfl rfl

omit [CharData] in
theorem Says.imp {heard' : ℤ → ℤ → Prop} (h : Says heard s t)
    (himp : ∀ sessionID cseq, heard sessionID cseq → heard' sessionID cseq) :
    Says heard' s t := by
  constructor
  intro hs
  obtain ⟨effects, hspeaks⟩ := h.speaks hs
  refine ⟨effects, hspeaks.effects_eq, hspeaks.numbered, fun sessionID data hmem => ?_⟩
  refine (hspeaks.texts sessionID data hmem).imp_right ?_
  rintro ⟨cseq, m, hheard, htext⟩
  exact ⟨cseq, m, himp _ _ hheard, htext⟩

theorem says_run (events : List Event) (hevents : ∀ event ∈ events, event.OneLine)
    {result : Except JavaException Unit} (hrun : run s events = (result, t)) :
    Says (fun sessionID cseq => ∃ event ∈ events, Hears event sessionID cseq) s t := by
  induction events generalizing s with
  | nil =>
      cases hrun
      exact .same rfl rfl
  | cons event events ih =>
      have hfirst : Says (fun sessionID cseq => ∃ event' ∈ event :: events,
          Hears event' sessionID cseq) s (step s event).2 :=
        (says_step event (hevents event List.mem_cons_self) s).imp fun _ _ h =>
          ⟨event, List.mem_cons_self, h⟩
      rw [run] at hrun
      split at hrun
      · rename_i u hstep
        rw [hstep] at hfirst
        have hrest := ih (fun event' hmem => hevents event' (List.mem_cons_of_mem _ hmem)) hrun
        refine IsTrans.trans _ _ _ hfirst (hrest.imp ?_)
        rintro _ _ ⟨event', hmem, h⟩
        exact ⟨event', List.mem_cons_of_mem _ hmem, h⟩
      · rename_i e u hstep
        cases hrun
        rwa [hstep] at hfirst

/-! ## What the sink reads -/

/-- The texts sent on a session, in order. -/
def texts (sessionID : ℤ) (effects : List Effect) : List JString :=
  effects.filterMap fun
    | .sendRequest sessionID' data => if sessionID' = sessionID then some data else none
    | _ => none

omit [CharData] in
theorem mem_texts {sessionID : ℤ} {effects : List Effect} {data : JString}
    (h : data ∈ texts sessionID effects) : .sendRequest sessionID data ∈ effects := by
  obtain ⟨effect, hmem, heq⟩ := List.mem_filterMap.mp h
  cases effect with
  | sendRequest sessionID' data' =>
      obtain ⟨rfl, rfl⟩ : sessionID' = sessionID ∧ data' = data := by simpa using heq
      exact hmem
  | _ => cases heq

/-- A request with the number of a handler that was registered on its session. -/
def IsRequest (effects : List Effect) (sessionID : ℤ) (msg : ParsedMessage) : Prop :=
  ∃ method ∈ [jstr "OPTIONS", jstr "GET_PARAMETER", jstr "SET_PARAMETER"], ∃ cseq func,
    .registerResponseHandler sessionID cseq func ∈ effects ∧
      kind msg = if 0 ≤ cseq then some (.request method cseq) else none

/-- A response with the number of something that came in on its session. -/
def IsReply (events : List Event) (sessionID : ℤ) (msg : ParsedMessage) : Prop :=
  ∃ cseq, (∃ event ∈ events, Hears event sessionID cseq) ∧
    (kind msg = if 0 ≤ cseq then some (.response cseq) else none) ∧
      ∃ statusCode ∈ ([200, 400, 403, 404, 405, 454, 455, 461, 505] : List ℤ),
        msg.getStatusCode = .ok statusCode

theorem Hears.bounds {event : Event} {sessionID cseq : ℤ} (h : Hears event sessionID cseq) :
    -2 ^ 31 ≤ cseq ∧ cseq < 2 ^ 31 := by
  obtain ⟨env, data, -, hcseq⟩ := h
  unfold ParsedMessage.getInt at hcseq
  split at hcseq
  · cases hcseq
    decide
  · exact parseInt_bounds hcseq

omit [CharData] in
theorem exists_forall₂ {α β : Type} {R : α → β → Prop} {P : β → Prop} {xs : List α}
    (h : ∀ x ∈ xs, ∃ y, R x y ∧ P y) : ∃ ys, List.Forall₂ R xs ys ∧ ∀ y ∈ ys, P y := by
  induction xs with
  | nil => exact ⟨[], .nil, by simp⟩
  | cons x xs ih =>
      obtain ⟨y, hy, hP⟩ := h x List.mem_cons_self
      obtain ⟨ys, hys, hall⟩ := ih fun x' hx' => h x' (List.mem_cons_of_mem x hx')
      exact ⟨y :: ys, .cons hy hys, List.forall_mem_cons.mpr ⟨hP, hall⟩⟩

/-- In every run the texts on a session, none of them longer than an array, are whole messages,
which a reader of the session gets one by one: requests with the numbers of the handlers that wait
for their responses, and responses with the numbers of what came in. A number below zero is not
written. -/
theorem texts_whole (hlower : LowersAscii) {table : VideoFormats.Table}
    {mNetSession : ℤ → Option ANetworkSession.Session.State} {mMediaProjection : Bool}
    {first : WifiDisplaySource} {events : List Event} {result : Except JavaException Unit}
    (hfirst : construct table mNetSession mMediaProjection = .ok first)
    (hevents : ∀ event ∈ events, event.OneLine) (hrun : run first events = (result, s))
    (sessionID : ℤ) (hsize : ∀ data ∈ texts sessionID s.effects, data.length < 2 ^ 31) :
    ∃ msgs, List.Forall₂ IsWhole (texts sessionID s.effects) msgs ∧
      ReadsAs (texts sessionID s.effects).flatten msgs ∧
      ∀ msg ∈ msgs, IsRequest s.effects sessionID msg ∨ IsReply events sessionID msg := by
  have hnumbered : Numbered first ∧ first.effects = [] := by
    obtain ⟨hregistry, hnone⟩ := construct_registry hfirst
    have hserial : first.mNextCSeq = 1 := congrArg Callbacks.Registry.serial hregistry
    rw [Numbered, hserial]
    exact ⟨by decide, hnone⟩
  obtain ⟨effects, hspeaks⟩ := (says_run events hevents hrun).speaks hnumbered.1
  have heffects : effects = s.effects := by
    rw [hspeaks.effects_eq, hnumbered.2, List.nil_append]
  subst heffects
  have heach : ∀ data ∈ texts sessionID s.effects, ∃ msg, IsWhole data msg ∧
      (IsRequest s.effects sessionID msg ∨ IsReply events sessionID msg) := by
    intro data hdata
    have hlength := hsize data hdata
    rcases hspeaks.texts sessionID data (mem_texts hdata) with hasks | hreplies
    · obtain ⟨cseq, func, m, hmem, hlo, hhi, htext, rfl⟩ := hasks
      obtain ⟨method, hmethod, hkind⟩ := htext.kind_request hlower hlo hhi
      exact ⟨m.parsed, m.isWhole (htext.measured hlower hlength) hlength,
        .inl ⟨method, hmethod, cseq, func, hmem, hkind⟩⟩
    · obtain ⟨cseq, m, hheard, htext, rfl⟩ := hreplies
      obtain ⟨event, hevent, hhears⟩ := hheard
      obtain ⟨hlo, hhi⟩ := hhears.bounds
      obtain ⟨hkind, hstatus⟩ := htext.kind_response hlower hlo hhi
      exact ⟨m.parsed, m.isWhole (htext.measured hlower hlength) hlength,
        .inr ⟨cseq, ⟨event, hevent, hhears⟩, hkind, hstatus⟩⟩
  obtain ⟨msgs, hwhole, hkinds⟩ := exists_forall₂ heach
  exact ⟨msgs, hwhole, readsAs_flatten hwhole, hkinds⟩

omit [CharData] in
theorem texts_whole_playing :
    ∃ s msgs, (∃ table mNetSession mMediaProjection first events,
        construct table mNetSession mMediaProjection = .ok first ∧
          @run CharData.ascii first events = (.ok (), s)) ∧
      (texts 2 s.effects).length = 6 ∧
      List.Forall₂ (@IsWhole CharData.ascii) (texts 2 s.effects) msgs ∧
      @ReadsAs CharData.ascii (texts 2 s.effects).flatten msgs := by
  let _ := CharData.ascii
  have hend : endsIn (setUpEvents ++ playEvents) fun s =>
      (texts 2 s.effects).map List.length = [106, 162, 219, 408, 169, 119] := by
    decide +kernel
  have hevents : ∀ event ∈ setUpEvents ++ playEvents, event.OneLine := by
    have henv : (quietEnv 0).OneLine := ⟨by decide, by decide⟩
    simp [setUpEvents, playEvents, Event.OneLine, henv]
  unfold endsIn at hend
  split at hend
  · rename_i first hfirst
    split at hend
    · rename_i s hrun
      have hlengths : (texts 2 s.effects).map List.length = _ := of_decide_eq_true hend
      have hsize : ∀ data ∈ texts 2 s.effects, data.length < 2 ^ 31 := by
        intro data hdata
        have hmem := List.mem_map_of_mem (f := List.length) hdata
        rw [hlengths] at hmem
        simp at hmem
        omega
      obtain ⟨msgs, hwhole, hreads, -⟩ :=
        texts_whole lowersAscii_ascii hfirst hevents hrun 2 hsize
      have hlength := congrArg List.length hlengths
      rw [List.length_map] at hlength
      exact ⟨s, msgs, ⟨_, _, _, first, _, hfirst, hrun⟩, hlength, hwhole, hreads⟩
    · cases hend
  · cases hend

end MirrorCast.WifiDisplaySource
