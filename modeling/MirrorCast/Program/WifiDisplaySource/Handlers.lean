import MirrorCast.Program.WifiDisplaySource.Responses

/-! # `WifiDisplaySource`: the requests of the sink, and all messages -/

namespace MirrorCast.WifiDisplaySource

open Java RTPBase
open ANetworkSession (OK)
open Errno (ERROR_MALFORMED ERROR_UNSUPPORTED ENOENT EINVAL INVALID_OPERATION)

/-! ## Stopping -/

def finishStop2 : Handler Unit := do
  let mSessionID := (← get).mSessionID
  when (mSessionID ≠ 0) do
    destroySession mSessionID
    modify fun s => { s with mSessionID := 0 }
  setState .STOPPED
  match (← get).mStopReplyTo with
  | none => throw .nullPointer
  | some msg =>
      log (.postResponse msg OK)
      modify fun s => { s with mStopReplyTo := none }

def disconnectClient2 : Handler Unit := do
  modifyClientInfo fun info => { info with mPlaybackSession := none }
  let mClientSessionID := (← get).mClientSessionID
  when (mClientSessionID ≠ 0) do
    destroySession mClientSessionID
    setClientSessionID 0
  if (← get).mMediaProjection = false then throw .nullPointer
  log .stopProjection
  finishStop2

def disconnectClientAsync : Handler Unit := do
  match (← get).mClientInfo.mPlaybackSession with
  | none => disconnectClient2
  | some _ => log .destroyAsync

def finishStop : Handler Unit := do
  setState .STOPPING
  disconnectClientAsync

def finishPlay (env : Env) : Handler Unit := do
  let _ ← nonNull (← get).mClientInfo.mPlaybackSession
  let err ← play env
  if err ≠ OK then throw .runtime

/-! ## `SETUP` -/

/-- What a `transport` header asks for: the mode and the two ports. -/
structure Transport where
  rtpMode : TransportMode
  clientRtp : ℤ
  clientRtcp : ℤ
  deriving DecidableEq, Repr

variable [CharData]

/-- The two numbers of `interleaved`. -/
def parseInterleaved (interleaved : Option JString) : Option (ℤ × ℤ) :=
  match interleaved.map (splitChar 0x2d) with
  | some [first, second] =>
      match parseInt first, parseInt second with
      | .ok clientRtp, .ok clientRtcp => some (clientRtp, clientRtcp)
      | _, _ => none
  | _ => none

/-- The ports of `client_port`, with `none` for a bad request. -/
def parseClientPort (clientPort : Option JString) : Except JavaException (Option (ℤ × ℤ)) :=
  match clientPort.map (splitChar 0x2d) with
  | none => .ok none
  | some [first, second] =>
      match parseInt first, parseInt second with
      | .ok clientRtp, .ok clientRtcp => .ok (some (clientRtp, clientRtcp))
      | _, _ => .ok none
  | some [] => .error .arrayIndexOutOfBounds
  | some (first :: _) =>
      match parseInt first with
      | .ok clientRtp => .ok (some (clientRtp, -1))
      | .error _ => .ok none

/-- The transport, or the status and the result of an error. -/
def parseTransport (transport : JString) : Except JavaException (Except (JString × ℤ) Transport) :=
  let badRequest := (jstr "400 Bad Request", ERROR_MALFORMED)
  let clientPort := ParsedMessage.getAttribute transport (jstr "client_port")
  if (jstr "RTP/AVP/TCP;").isPrefixOf transport then
    match parseInterleaved (ParsedMessage.getAttribute transport (jstr "interleaved")) with
    | some (clientRtp, clientRtcp) =>
        .ok (.ok ⟨.TRANSPORT_TCP_INTERLEAVED, clientRtp, clientRtcp⟩)
    | none => do
        match ← parseClientPort clientPort with
        | some (clientRtp, clientRtcp) => return .ok ⟨.TRANSPORT_TCP, clientRtp, clientRtcp⟩
        | none => return .error badRequest
  else if (jstr "RTP/AVP;unicast;").isPrefixOf transport ∨
      (jstr "RTP/AVP/UDP;unicast;").isPrefixOf transport then do
    match ← parseClientPort clientPort with
    | some (clientRtp, clientRtcp) => return .ok ⟨.TRANSPORT_UDP, clientRtp, clientRtcp⟩
    | none => return .error badRequest
  else if transport = jstr "RTP/AVP/UDP;unicast" then
    .ok (.ok ⟨.TRANSPORT_UDP, 19000, -1⟩)
  else .ok (.error (jstr "461 Unsupported Transport", ERROR_UNSUPPORTED))

def makeUniquePlaybackSessionID (env : Env) : ℤ := int32 |int32 env.nextInt|

/-- The `Transport` line of the response to `SETUP`. -/
def transportLine (transport : Transport) (serverRtp : ℤ) : JString :=
  if transport.rtpMode = .TRANSPORT_TCP_INTERLEAVED then
    jstr "Transport: RTP/AVP/TCP;interleaved=" ++ decimal transport.clientRtp ++ jstr "-" ++
      decimal transport.clientRtcp ++ jstr ";"
  else
    jstr "Transport: RTP/AVP/" ++
      (if transport.rtpMode = .TRANSPORT_TCP then jstr "TCP" else jstr "UDP") ++
      jstr ";unicast;client_port=" ++ decimal transport.clientRtp ++
      (if 0 ≤ transport.clientRtcp then
        jstr "-" ++ decimal transport.clientRtcp ++ jstr ";server_port=" ++ decimal serverRtp ++
          jstr "-" ++ decimal (serverRtp + 1)
      else jstr ";server_port=" ++ decimal serverRtp) ++ crlf

/-- `onSetupRequest` from the new playback session on. -/
def setUpPlaybackSession (env : Env) (sessionID cseq : ℤ) (transport : Transport) :
    Handler ℤ := do
  let s ← get
  let rtcpMode : TransportMode :=
    if transport.clientRtcp < 0 then .TRANSPORT_NONE else .TRANSPORT_UDP
  let (err, playbackSession) ← call (PlaybackSession.init env.media transport.clientRtp
    transport.rtpMode transport.clientRtcp rtcpMode s.mSinkSupportsAudio s.mSinkSupportsVideo)
  if err ≠ OK then
    let detail := if err = -ENOENT then jstr "404 Not Found" else jstr "403 Forbidden"
    sendErrorResponse env sessionID detail cseq
    return err
  updateLiveness env
  let playbackSessionID := makeUniquePlaybackSessionID env
  modifyClientInfo fun info =>
    { info with
      mPlaybackSessionID := playbackSessionID
      mPlaybackSession := some playbackSession }
  let err ← sendRequest sessionID (jstr "RTSP/1.0 200 OK\r\n" ++
    commonResponse env cseq playbackSessionID ++
    transportLine transport playbackSession.mLocalRTPPort ++ crlf)
  if err ≠ OK then return err
  setState .AWAITING_CLIENT_PLAY
  scheduleReaper
  scheduleKeepAlive sessionID
  return OK

def onSetupRequest (env : Env) (sessionID cseq : ℤ) (data : ParsedMessage) : Handler ℤ := do
  if sessionID ≠ (← get).mClientSessionID then throw .runtime
  if (← get).mClientInfo.mPlaybackSessionID ≠ -1 then
    sendErrorResponse env sessionID (jstr "400 Bad Request") cseq
    return ERROR_MALFORMED
  match ParsedMessage.getString data.mDict (jstr "transport") with
  | none =>
      sendErrorResponse env sessionID (jstr "400 Bad Request") cseq
      return ERROR_MALFORMED
  | some transport =>
      match ← call (parseTransport transport) with
      | .error (detail, err) =>
          sendErrorResponse env sessionID detail cseq
          return err
      | .ok transport =>
          let uri ← call (data.getRequestField 1)
          if (jstr "rtsp://").isPrefixOf (CharData.toLowerCase uri) = false then
            sendErrorResponse env sessionID (jstr "400 Bad Request") cseq
            return ERROR_MALFORMED
          if (jstr "/wfd1.0/streamid=0").isSuffixOf uri = false then
            sendErrorResponse env sessionID (jstr "404 Not found") cseq
            return ERROR_MALFORMED
          setUpPlaybackSession env sessionID cseq transport

/-! ## The other requests -/

/-- The first lines of a response that names the playback session. -/
def okResponse (env : Env) (cseq playbackSessionID : ℤ) : JString :=
  jstr "RTSP/1.0 200 OK\r\n" ++ commonResponse env cseq playbackSessionID

def onOptionsRequest (env : Env) (sessionID cseq : ℤ) (data : ParsedMessage) : Handler ℤ := do
  let (playbackSession, _) ← findPlaybackSession data
  when (playbackSession ≠ none) (updateLiveness env)
  let err ← sendRequest sessionID (okResponse env cseq (-1) ++
    jstr "Public: org.wfa.wfd1.0, SETUP, TEARDOWN, PLAY, PAUSE, GET_PARAMETER, SET_PARAMETER\r\n" ++
    crlf)
  if err ≠ OK then return err
  sendM3 env sessionID

/-- The reaction to a request without a playback session. -/
def sessionNotFound (env : Env) (sessionID cseq : ℤ) : Handler ℤ := do
  sendErrorResponse env sessionID (jstr "454 Session Not Found") cseq
  return ERROR_MALFORMED

def onPlayRequest (env : Env) (sessionID cseq : ℤ) (data : ParsedMessage) : Handler ℤ := do
  let (playbackSession, playbackSessionID) ← findPlaybackSession data
  if playbackSession = none then return ← sessionNotFound env sessionID cseq
  let s ← get
  if s.mState ≠ .AWAITING_CLIENT_PLAY ∧ s.mState ≠ .PAUSED_TO_PLAYING ∧ s.mState ≠ .PAUSED then
    sendErrorResponse env sessionID (jstr "455 Method Not Valid in This State") cseq
    return INVALID_OPERATION
  when (s.mPlaybackSessionEstablished = true) (finishPlay env)
  let err ← sendRequest sessionID
    (okResponse env cseq playbackSessionID ++ jstr "Range: npt=now-\r\n" ++ crlf)
  if err ≠ OK then return err
  if s.mState = .PAUSED_TO_PLAYING ∨ s.mPlaybackSessionEstablished = true then
    setState .PLAYING
    return OK
  if s.mState ≠ .AWAITING_CLIENT_PLAY then throw .runtime
  setState .ABOUT_TO_PLAY
  return OK

def onPauseRequest (env : Env) (sessionID cseq : ℤ) (data : ParsedMessage) : Handler ℤ := do
  let (playbackSession, playbackSessionID) ← findPlaybackSession data
  if playbackSession = none then return ← sessionNotFound env sessionID cseq
  let s ← get
  if s.mState ≠ .PLAYING_TO_PAUSED ∧ s.mState ≠ .PLAYING then return INVALID_OPERATION
  let err ← pause env
  if err ≠ OK then throw .runtime
  let err ← sendRequest sessionID (okResponse env cseq playbackSessionID ++ crlf)
  if err ≠ OK then return err
  setState .PAUSED
  return err

def onTeardownRequest (env : Env) (sessionID cseq : ℤ) (data : ParsedMessage) : Handler ℤ := do
  let (playbackSession, playbackSessionID) ← findPlaybackSession data
  if playbackSession = none then return ← sessionNotFound env sessionID cseq
  let _ ← sendRequest sessionID
    (okResponse env cseq playbackSessionID ++ jstr "Connection: close\r\n" ++ crlf)
  let s ← get
  when (s.mState = .AWAITING_CLIENT_TEARDOWN) do
    if s.mStopReplyTo = none then throw .runtime
    finishStop
  return OK

def onGetParameterRequest (env : Env) (sessionID cseq : ℤ) (data : ParsedMessage) :
    Handler ℤ := do
  let (playbackSession, playbackSessionID) ← findPlaybackSession data
  if playbackSession = none then return ← sessionNotFound env sessionID cseq
  updateLiveness env
  sendRequest sessionID (okResponse env cseq playbackSessionID ++ crlf)

def onSetParameterRequest (env : Env) (sessionID cseq : ℤ) (data : ParsedMessage) :
    Handler ℤ := do
  let (playbackSession, playbackSessionID) ← findPlaybackSession data
  if playbackSession = none then return ← sessionNotFound env sessionID cseq
  when (contains data.mContent (jstr "wfd_idr_request\r\n") = true) (requestIDRFrame env)
  updateLiveness env
  sendRequest sessionID (okResponse env cseq playbackSessionID ++ crlf)

/-! ## `onReceiveClientData` -/

def onResponse (env : Env) (sessionID cseq : ℤ) (data : ParsedMessage) : Handler ℤ := do
  match (← get).mResponseHandlers (sessionID, cseq) with
  | none => return ERROR_MALFORMED
  | some func =>
      modify fun s =>
        { s with
          mResponseHandlers := Function.update s.mResponseHandlers (sessionID, cseq) none
          effects := s.effects ++ [.handle sessionID cseq func] }
      func.handle env sessionID data

def onRequest (env : Env) (sessionID cseq : ℤ) (method : JString) (data : ParsedMessage) :
    Handler ℤ :=
  if method = jstr "OPTIONS" then onOptionsRequest env sessionID cseq data
  else if method = jstr "SETUP" then onSetupRequest env sessionID cseq data
  else if method = jstr "PLAY" then onPlayRequest env sessionID cseq data
  else if method = jstr "PAUSE" then onPauseRequest env sessionID cseq data
  else if method = jstr "TEARDOWN" then onTeardownRequest env sessionID cseq data
  else if method = jstr "GET_PARAMETER" then onGetParameterRequest env sessionID cseq data
  else if method = jstr "SET_PARAMETER" then onSetParameterRequest env sessionID cseq data
  else do
    sendErrorResponse env sessionID (jstr "405 Method Not Allowed") cseq
    return ERROR_UNSUPPORTED

def onReceiveClientData (env : Env) (sessionID : ℤ) (data : ParsedMessage) : Handler ℤ := do
  call data.checkToString
  let method ← call (data.getRequestField 0)
  let cseq ← call (ParsedMessage.getInt data.mDict (jstr "cseq") (-1))
  if cseq = -1 then
    sendErrorResponse env sessionID (jstr "400 Bad Request") (-1)
    return ERROR_MALFORMED
  if (jstr "RTSP/").isPrefixOf method then return ← onResponse env sessionID cseq data
  let version ← call (data.getRequestField 2)
  if version ≠ jstr "RTSP/1.0" then
    sendErrorResponse env sessionID (jstr "505 RTSP Version not supported") cseq
    return ERROR_UNSUPPORTED
  onRequest env sessionID cseq method data

/-! ## `onMessageReceived` -/

/-- The interface without a port, the port, and the error of one that is not a port. -/
def parseIface (iface : JString) : JString × ℤ × ℤ :=
  match iface.idxOf? 0x3a with
  | none => (iface, 7236, OK)
  | some colonPos =>
      match parseInt (iface.drop (colonPos + 1)) with
      | .error _ => (iface, 7236, -EINVAL)
      | .ok port =>
          if 65535 < port then (iface, port, -EINVAL) else (iface.take colonPos, port, OK)

/-- The branch of `WHAT_START` for an interface that could be parsed. -/
def startServer (env : Env) (iface : JString) (port : ℤ) : Handler ℤ := do
  if env.isKnownHost = false then return -EINVAL
  match ← createRTSPServer env iface port with
  | none => return - ANetworkSession.EIO
  | some mSessionID =>
      modify fun s => { s with mSessionID }
      return OK

def onStart (env : Env) (msg : ℕ) (iface : Option JString) : Handler Unit := do
  match iface with
  | none => throw .noSuchElement
  | some iface =>
      let (iface, port, err) := parseIface iface
      let err ← (if err ≠ OK then return err else startServer env iface port : Handler ℤ)
      setState .AWAITING_CLIENT_CONNECTION
      log (.postResponse msg err)

def onClientConnected (env : Env) (sessionID : ℤ) (clientIP serverIP : Option JString)
    (serverPort : ℤ) : Handler Unit := do
  if 0 < (← get).mClientSessionID then destroySession sessionID
  else
    if (← get).mState ≠ .AWAITING_CLIENT_CONNECTION then throw .runtime
    if clientIP = none then throw .noSuchElement
    modifyClientInfo fun info => { info with mRemoteIP := clientIP }
    if serverIP = none then throw .noSuchElement
    modifyClientInfo fun info => { info with mLocalIP := serverIP }
    if clientIP = serverIP then destroySession sessionID
    else
      modifyClientInfo fun info => { info with mLocalPort := serverPort, mPlaybackSessionID := -1 }
      setClientSessionID sessionID
      setState .AWAITING_CLIENT_SETUP
      let err ← sendM1 env sessionID
      if err ≠ OK then throw .runtime

def onRtspNotify (env : Env) (n : NetNotification) : Handler Unit := do
  match n with
  | .clientConnected sessionID clientIP serverIP serverPort =>
      onClientConnected env sessionID clientIP serverIP serverPort
  | .session sessionID (.error _ _ _) =>
      destroySession sessionID
      when (sessionID = (← get).mClientSessionID) (setClientSessionID 0)
  | .session sessionID (.data msg) => let _ ← onReceiveClientData env sessionID msg
  | .networkStall => return
  | .session _ .connected => throw .runtime
  | .session _ (.datagram _) => throw .runtime
  | .session _ (.binaryData _ _) => throw .runtime
  | .session _ (.webSocketMessage _ _) => throw .runtime

def onStop (env : Env) (msg : ℕ) : Handler Unit := do
  modify fun s => { s with mStopReplyTo := some msg }
  let s ← get
  if State.AWAITING_CLIENT_TEARDOWN.ordinal ≤ s.mState.ordinal then throw .runtime
  if State.AWAITING_CLIENT_PLAY.ordinal ≤ s.mState.ordinal then
    let err ← sendTrigger env s.mClientSessionID .TRIGGER_TEARDOWN
    if err = OK then
      setState .AWAITING_CLIENT_TEARDOWN
      post .teardownTriggerTimedOut (TEARDOWN_TRIGGER_TIMEOU_SECS * 1000000)
    else finishStop
  else finishStop

/-- The reaction to `pause()` and `resume()`. -/
def onTrigger (env : Env) (msg : ℕ) (expected next : State) (triggerType : TriggerType) :
    Handler Unit := do
  let s ← get
  if s.mState ≠ expected then log (.postResponse msg INVALID_OPERATION)
  else
    setState next
    let _ ← sendTrigger env s.mClientSessionID triggerType
    log (.postResponse msg OK)

def onReapDeadClients (env : Env) : Handler Unit := do
  modify fun s => { s with mReaperPending := false }
  let s ← get
  if s.mClientSessionID = 0 then return
  match s.mClientInfo.mPlaybackSession with
  | none => return
  | some _ =>
      if s.mLastLifesignUs + PLAYBACK_SESSION_TIMEOUT_US < env.nowUs then
        destroySession s.mClientSessionID
        setClientSessionID 0
      else scheduleReaper

def onBinaryData (sessionID channel : ℤ) (data : List UInt8) : Handler Unit := do
  if 0xff ≤ channel then throw .runtime
  if 0xffff ≤ data.length then throw .runtime
  let header : List UInt8 :=
    [0x24, toByte channel, toByte (data.length / 2 ^ 8 : ℕ), toByte data.length]
  match (← get).mNetSession sessionID with
  | none => return
  | some mState =>
      if mState = .CONNECTED ∨ mState = .DATAGRAM then
        log (.sendData sessionID header)
        log (.sendData sessionID data)
      else throw .runtime

def onPlaybackSessionNotify (env : Env) (sessionID : ℤ) (n : PlaybackNotification) :
    Handler Unit := do
  match n with
  | .sessionDead => return
  | .sessionEstablished =>
      modify fun s => { s with mPlaybackSessionEstablished := true }
      finishPlay env
      when ((← get).mState = .ABOUT_TO_PLAY) (setState .PLAYING)
  | .sessionDestroyed => disconnectClient2
  | .binaryData channel data => onBinaryData sessionID channel data

def onTeardownTriggerTimedOut : Handler Unit := do
  let s ← get
  when (s.mState = .AWAITING_CLIENT_TEARDOWN) do
    if s.mStopReplyTo = none then throw .runtime
    finishStop

def onKeepAlive (env : Env) (sessionID : ℤ) : Handler Unit := do
  if (← get).mClientSessionID ≠ sessionID then return
  let _ ← sendM16 env sessionID

def onMessageReceived (env : Env) (msg : Message) : Handler Unit :=
  match msg with
  | .start msg iface => onStart env msg iface
  | .rtspNotify n => onRtspNotify env n
  | .stop msg => onStop env msg
  | .pause msg => onTrigger env msg .PLAYING .PLAYING_TO_PAUSED .TRIGGER_PAUSE
  | .resume msg => onTrigger env msg .PAUSED .PAUSED_TO_PLAYING .TRIGGER_PLAY
  | .reapDeadClients => onReapDeadClients env
  | .playbackSessionNotify _ sessionID n => onPlaybackSessionNotify env sessionID n
  | .keepAlive sessionID => onKeepAlive env sessionID
  | .finishStop2 => WifiDisplaySource.finishStop2
  | .teardownTriggerTimedOut => onTeardownTriggerTimedOut

/-! ## Runs -/

/-- The check that the method `start` makes on the thread of its caller before it posts. -/
def start (s : WifiDisplaySource) : Except JavaException Unit :=
  if s.mState = .INITIALIZED then .ok () else .error .runtime

/-- What happens to a source: a call of `start` passes its check, a message is handled, or
another thread adds a session to `mNetSession`. -/
inductive Event where
  | start
  | message (env : Env) (msg : Message)
  | addSession (sessionID : ℤ) (mState : ANetworkSession.Session.State)

/-- The fields after an event, and the exception it ended in. -/
def step (s : WifiDisplaySource) (event : Event) :
    Except JavaException Unit × WifiDisplaySource :=
  match event with
  | .start => (start s, s)
  | .message env msg => (onMessageReceived env msg).run s
  | .addSession sessionID mState =>
      (.ok (), { s with mNetSession := Function.update s.mNetSession sessionID (some mState) })

/-- A run, which ends at the first exception. -/
def run (s : WifiDisplaySource) : List Event → Except JavaException Unit × WifiDisplaySource
  | [] => (.ok (), s)
  | event :: events =>
      match step s event with
      | (.ok (), s) => run s events
      | (.error e, s) => (.error e, s)

end MirrorCast.WifiDisplaySource
