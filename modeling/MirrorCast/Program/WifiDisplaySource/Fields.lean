import MirrorCast.Program.Parameters
import MirrorCast.Program.PlaybackSession
import MirrorCast.Program.VideoFormats
import MirrorCast.Program.WifiDisplaySource

/-! # `WifiDisplaySource`: its fields, its messages and its effects -/

namespace MirrorCast

open Java

namespace WifiDisplaySource

inductive State where
  | INITIALIZED
  | AWAITING_CLIENT_CONNECTION
  | AWAITING_CLIENT_SETUP
  | AWAITING_CLIENT_PLAY
  | ABOUT_TO_PLAY
  | PLAYING
  | PLAYING_TO_PAUSED
  | PAUSED
  | PAUSED_TO_PLAYING
  | AWAITING_CLIENT_TEARDOWN
  | STOPPING
  | STOPPED
  deriving DecidableEq, Repr

def State.ordinal : State → ℕ
  | .INITIALIZED => 0
  | .AWAITING_CLIENT_CONNECTION => 1
  | .AWAITING_CLIENT_SETUP => 2
  | .AWAITING_CLIENT_PLAY => 3
  | .ABOUT_TO_PLAY => 4
  | .PLAYING => 5
  | .PLAYING_TO_PAUSED => 6
  | .PAUSED => 7
  | .PAUSED_TO_PLAYING => 8
  | .AWAITING_CLIENT_TEARDOWN => 9
  | .STOPPING => 10
  | .STOPPED => 11

inductive TriggerType where
  | TRIGGER_SETUP
  | TRIGGER_TEARDOWN
  | TRIGGER_PAUSE
  | TRIGGER_PLAY
  deriving DecidableEq, Repr

/-- The methods that are registered for responses. -/
inductive HandleRTSPResponseFunc where
  | onReceiveM1Response
  | onReceiveM3Response
  | onReceiveM4Response
  | onReceiveM5Response
  | onReceiveM16Response
  deriving DecidableEq, Repr

structure ClientInfo where
  mRemoteIP : Option JString
  mLocalIP : Option JString
  mLocalPort : ℤ
  mPlaybackSessionID : ℤ
  mPlaybackSession : Option PlaybackSession
  deriving DecidableEq, Repr

/-- The object `mChosenVideoConfig`. -/
structure ChosenVideoConfig where
  width : ℤ
  height : ℤ
  framesPerSecond : ℤ
  interlaced : Bool
  profileType : Option VideoFormats.ProfileType
  levelType : Option VideoFormats.LevelType
  deriving DecidableEq, Repr

/-- What an instance of `ANetworkSession` posts for the source. -/
inductive NetNotification where
  | clientConnected (sessionID : ℤ) (clientIP serverIP : Option JString) (serverPort : ℤ)
  | session (sessionID : ℤ) (n : ANetworkSession.Notification)
  | networkStall

/-- What a playback session posts, with the identifiers it was given. -/
inductive PlaybackNotification where
  | sessionDead
  | binaryData (channel : ℤ) (data : List UInt8)
  | sessionEstablished
  | sessionDestroyed

/-- The messages that the handler receives. The messages of `start`, `stop`, `pause` and
`resume` are numbered, since their responses go back to their callers. -/
inductive Message where
  | start (msg : ℕ) (iface : Option JString)
  | rtspNotify (n : NetNotification)
  | stop (msg : ℕ)
  | pause (msg : ℕ)
  | resume (msg : ℕ)
  | reapDeadClients
  | playbackSessionNotify (playbackSessionID sessionID : ℤ) (n : PlaybackNotification)
  | keepAlive (sessionID : ℤ)
  | finishStop2
  | teardownTriggerTimedOut

/-- What the source has done, in order. -/
inductive Effect where
  | sendRequest (sessionID : ℤ) (data : JString)
  | sendData (sessionID : ℤ) (data : List UInt8)
  | registerResponseHandler (sessionID cseq : ℤ) (func : HandleRTSPResponseFunc)
  /-- The method registered for a response is called. -/
  | handle (sessionID cseq : ℤ) (func : HandleRTSPResponseFunc)
  | destroySession (sessionID : ℤ)
  | createRTSPServer (iface : JString) (port : ℤ)
  | post (msg : Message) (delayMillis : ℤ)
  | postResponse (msg : ℕ) (err : ℤ)
  | play
  | pause
  | requestIDRFrame
  | destroyAsync
  | stopProjection

/-- What the platform has for the source while it handles a message: the time and the date, the
release of the system, a random number, whether the interface is a known host, the outcome
of opening and binding a server socket, and the media of the playback session. -/
structure Env where
  nowUs : ℤ
  date : JString
  release : JString
  nextInt : ℤ
  isKnownHost : Bool
  opensServer : Bool
  bindsServer : Bool
  serverSessionID : ℤ
  media : PlaybackSession.Media

end WifiDisplaySource

open WifiDisplaySource

/-- The fields of the class. Of `mNetSession` there are the sessions it knows, of
`mMediaProjection` whether it is not null; `mLastLifesignUs` is a field of the playback session,
`table` the table all `VideoFormats` share, and `effects` what was done so far. -/
structure WifiDisplaySource where
  mState : State
  mSupportedSourceVideoFormats : VideoFormats.Formats
  mNetSession : ℤ → Option ANetworkSession.Session.State
  mMediaProjection : Bool
  mSessionID : ℤ
  mStopReplyTo : Option ℕ
  mWfdClientRtpPorts : Option JString
  mChosenRTPPort : ℤ
  mSinkSupportsVideo : Bool
  mSupportedSinkVideoFormats : VideoFormats.Formats
  mChosenVideoResolutionType : VideoFormats.ResolutionType
  mChosenVideoResolutionIndex : ℤ
  mChosenVideoProfile : Option VideoFormats.ProfileType
  mChosenVideoLevel : Option VideoFormats.LevelType
  mChosenVideoConfig : ChosenVideoConfig
  mSinkSupportsAudio : Bool
  mUsingPCMAudio : Bool
  mClientSessionID : ℤ
  mClientInfo : ClientInfo
  mReaperPending : Bool
  mNextCSeq : ℤ
  mResponseHandlers : ℤ × ℤ → Option HandleRTSPResponseFunc
  mPlaybackSessionEstablished : Bool
  mLastLifesignUs : ℤ
  table : VideoFormats.Table
  effects : List Effect

namespace WifiDisplaySource

/-- The constructor, with the class `VideoFormats` and the sessions as they are. -/
def construct (table : VideoFormats.Table)
    (mNetSession : ℤ → Option ANetworkSession.Session.State) (mMediaProjection : Bool) :
    Except JavaException WifiDisplaySource := do
  let source ← VideoFormats.construct table
  let sink ← VideoFormats.construct source.table
  let source := VideoFormats.disableAll ⟨sink.table, source.this⟩
  let source ← VideoFormats.setNativeResolution source .RESOLUTION_CEA 5
  let source ← VideoFormats.enableResolutionUpto source .RESOLUTION_CEA 5 .PROFILE_CHP .LEVEL_32
  return {
    mState := .INITIALIZED
    mSupportedSourceVideoFormats := source.this
    mNetSession
    mMediaProjection
    mSessionID := 0
    mStopReplyTo := none
    mWfdClientRtpPorts := none
    mChosenRTPPort := -1
    mSinkSupportsVideo := false
    mSupportedSinkVideoFormats := sink.this
    mChosenVideoResolutionType := .RESOLUTION_CEA
    mChosenVideoResolutionIndex := 0
    mChosenVideoProfile := none
    mChosenVideoLevel := none
    mChosenVideoConfig := ⟨0, 0, 0, false, none, none⟩
    mSinkSupportsAudio := false
    mUsingPCMAudio := false
    mClientSessionID := 0
    mClientInfo := ⟨none, none, 0, 0, none⟩
    mReaperPending := false
    mNextCSeq := 1
    mResponseHandlers := fun _ => none
    mPlaybackSessionEstablished := false
    mLastLifesignUs := 0
    table := source.table
    effects := [] }

/-- A method of the source; the fields stay as they are when it throws. -/
abbrev Handler := ExceptT JavaException (StateM WifiDisplaySource)

/-- A call of something that has no access to the fields. -/
def call {α : Type} (x : Except JavaException α) : Handler α :=
  match x with
  | .ok a => return a
  | .error e => throw e

/-- An `if` without an `else`. -/
def when (c : Prop) [Decidable c] (x : Handler Unit) : Handler Unit := if c then x else return ()

def log (effect : Effect) : Handler Unit :=
  modify fun s => { s with effects := s.effects ++ [effect] }

/-- An assignment to `mState`. -/
def setState (mState : State) : Handler Unit := modify fun s => { s with mState }

def setClientSessionID (mClientSessionID : ℤ) : Handler Unit :=
  modify fun s => { s with mClientSessionID }

/-- An assignment to fields of `mClientInfo`. -/
def modifyClientInfo (f : ClientInfo → ClientInfo) : Handler Unit :=
  modify fun s => { s with mClientInfo := f s.mClientInfo }

/-! ## `mNetSession` -/

/-- `mNetSession.sendRequest(sessionID, data)`. -/
def sendRequest (sessionID : ℤ) (data : JString) : Handler ℤ := do
  match (← get).mNetSession sessionID with
  | none => return -Errno.ENOENT
  | some mState =>
      if mState = .CONNECTED ∨ mState = .DATAGRAM then
        log (.sendRequest sessionID data)
        return ANetworkSession.OK
      else throw .runtime

/-- `mNetSession.destroySession(sessionID)`. -/
def destroySession (sessionID : ℤ) : Handler Unit := do
  modify fun s => { s with mNetSession := Function.update s.mNetSession sessionID none }
  log (.destroySession sessionID)

/-- `mNetSession.createRTSPServer(mInterfaceAddr, port, notify)`, with `none` for an
`IOException`. -/
def createRTSPServer (env : Env) (iface : JString) (port : ℤ) : Handler (Option ℤ) := do
  if env.opensServer = false then return none
  call (checkPort port)
  if env.bindsServer = false then return none
  let listening := some ANetworkSession.Session.State.LISTENING_RTSP
  modify fun s =>
    { s with mNetSession := Function.update s.mNetSession env.serverSessionID listening }
  log (.createRTSPServer iface port)
  return some env.serverSessionID

/-! ## `mClientInfo.mPlaybackSession` -/

def updateLiveness (env : Env) : Handler Unit :=
  modify fun s => { s with mLastLifesignUs := env.nowUs }

def play (env : Env) : Handler ℤ := do
  updateLiveness env
  log .play
  return ANetworkSession.OK

def pause (env : Env) : Handler ℤ := do
  updateLiveness env
  log .pause
  return ANetworkSession.OK

def requestIDRFrame (env : Env) : Handler Unit := do
  log .requestIDRFrame
  call (PlaybackSession.requestIDRFrame env.media.mTracks)

/-- What the data says is the session with its identifier: without a `session` header it is
the one there is. -/
def findPlaybackSession [CharData] (data : ParsedMessage) :
    Handler (Option PlaybackSession × ℤ) := do
  let playbackSessionID ← call (ParsedMessage.getInt data.mDict (jstr "session") (-1))
  let info := (← get).mClientInfo
  if playbackSessionID = -1 then return (info.mPlaybackSession, info.mPlaybackSessionID)
  if playbackSessionID ≠ info.mPlaybackSessionID then return (none, playbackSessionID)
  return (info.mPlaybackSession, playbackSessionID)

end WifiDisplaySource

end MirrorCast
