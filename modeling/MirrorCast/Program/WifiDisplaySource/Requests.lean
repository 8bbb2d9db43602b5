import MirrorCast.Program.WifiDisplaySource.Fields

/-! # `WifiDisplaySource`: the requests to the sink -/

namespace MirrorCast.WifiDisplaySource

open Java
open ANetworkSession (OK)

def REAPER_INTERVAL_US : ℤ := 1000000

def TEARDOWN_TRIGGER_TIMEOU_SECS : ℤ := 2

def PLAYBACK_SESSION_TIMEOUT_SECS : ℤ := 30

def PLAYBACK_SESSION_TIMEOUT_US : ℤ := PLAYBACK_SESSION_TIMEOUT_SECS * 1000000

def USER_AGENT (env : Env) : JString :=
  jstr "stagefright/1.2 (Linux;Android " ++ env.release ++ jstr ")"

def crlf : JString := jstr "\r\n"

/-- What `appendCommonResponse` appends. -/
def commonResponse (env : Env) (cseq playbackSessionID : ℤ) : JString :=
  jstr "Date: " ++ env.date ++ crlf ++ jstr "Server: " ++ USER_AGENT env ++ crlf ++
    (if 0 ≤ cseq then jstr "CSeq: " ++ decimal cseq ++ crlf else []) ++
    (if 0 ≤ playbackSessionID then
      jstr "Session: " ++ decimal playbackSessionID ++ jstr ";timeout=" ++
        decimal PLAYBACK_SESSION_TIMEOUT_SECS ++ crlf
    else [])

/-- The headers of a body, and the body. -/
def textParameters (body : JString) : JString :=
  jstr "Content-Type: text/parameters\r\n" ++ jstr "Content-Length: " ++ decimal body.length ++
    crlf ++ crlf ++ body

def registerResponseHandler (sessionID cseq : ℤ) (func : HandleRTSPResponseFunc) : Handler Unit :=
  modify fun s =>
    { s with
      mResponseHandlers := Function.update s.mResponseHandlers (sessionID, cseq) (some func)
      effects := s.effects ++ [.registerResponseHandler sessionID cseq func] }

/-- A request, and if it could be sent the handler of its response. -/
def sendAndRegister (env : Env) (sessionID : ℤ) (line headers : JString)
    (func : HandleRTSPResponseFunc) : Handler ℤ := do
  let mNextCSeq := (← get).mNextCSeq
  let err ← sendRequest sessionID (line ++ commonResponse env mNextCSeq (-1) ++ headers)
  if err ≠ OK then return err
  registerResponseHandler sessionID mNextCSeq func
  modify fun s => { s with mNextCSeq := int32 (mNextCSeq + 1) }
  return OK

def sendM1 (env : Env) (sessionID : ℤ) : Handler ℤ :=
  sendAndRegister env sessionID (jstr "OPTIONS * RTSP/1.0\r\n")
    (jstr "Require: org.wfa.wfd1.0\r\n\r\n") .onReceiveM1Response

def sendM3 (env : Env) (sessionID : ℤ) : Handler ℤ :=
  sendAndRegister env sessionID (jstr "GET_PARAMETER rtsp://localhost/wfd1.0 RTSP/1.0\r\n")
    (textParameters (jstr "wfd_video_formats\r\nwfd_audio_codecs\r\nwfd_client_rtp_ports\r\n"))
    .onReceiveM3Response

/-- A method of an instance of `VideoFormats`, which writes the table of all of them. -/
def withTable (f : VideoFormats.State → Except JavaException VideoFormats.State)
    (this : VideoFormats.Formats) : Handler VideoFormats.Formats := do
  let formats ← call (f ⟨(← get).table, this⟩)
  modify fun s => { s with table := formats.table }
  return formats.this

/-- A dereference. -/
def nonNull {α : Type} (x : Option α) : Handler α :=
  match x with
  | some a => return a
  | none => throw .nullPointer

/-- The lines of the body of M4 for a sink with video. -/
def chosenVideoLines : Handler JString := do
  let s ← get
  let constructed ← call (VideoFormats.construct s.table)
  modify fun s => { s with table := constructed.table }
  let chosen ← withTable (fun formats => .ok (VideoFormats.disableAll formats)) constructed.this
  let chosen ← withTable (fun formats =>
    VideoFormats.setNativeResolution formats s.mChosenVideoResolutionType
      s.mChosenVideoResolutionIndex) chosen
  let profile ← nonNull s.mChosenVideoProfile
  let level ← nonNull s.mChosenVideoLevel
  let chosen ← withTable (fun formats =>
    VideoFormats.setProfileLevel formats s.mChosenVideoResolutionType
      s.mChosenVideoResolutionIndex profile level) chosen
  let spec := VideoFormats.getFormatSpec (← get).table chosen true
  let config := s.mChosenVideoConfig
  let profileType ← nonNull config.profileType
  let levelType ← nonNull config.levelType
  return jstr "wfd_video_formats: " ++ spec ++ crlf ++ jstr "custom_video_formats: " ++
    decimal config.width ++ jstr " " ++ decimal config.height ++ jstr " " ++
    decimal config.framesPerSecond ++ jstr " " ++ decimal profileType.ordinal ++ jstr " " ++
    decimal levelType.ordinal ++ crlf

def videoLines : Handler JString := do
  if (← get).mSinkSupportsVideo then chosenVideoLines else return []

def sendM4 (env : Env) (sessionID : ℤ) : Handler ℤ := do
  if sessionID ≠ (← get).mClientSessionID then throw .runtime
  let formatLines ← videoLines
  let s ← get
  let audioLine :=
    if s.mSinkSupportsAudio then
      jstr "wfd_audio_codecs: " ++
        (if s.mUsingPCMAudio then jstr "LPCM 00000002 00" else jstr "AAC 00000001 00") ++ crlf
    else []
  let urlLine :=
    jstr "wfd_presentation_URL: rtsp://" ++ s.mClientInfo.mLocalIP.getD (jstr "null") ++
      jstr "/wfd1.0/streamid=0 none\r\n"
  let portsLine :=
    jstr "wfd_client_rtp_ports: " ++ s.mWfdClientRtpPorts.getD (jstr "null") ++ crlf
  sendAndRegister env sessionID (jstr "SET_PARAMETER rtsp://localhost/wfd1.0 RTSP/1.0\r\n")
    (textParameters (formatLines ++ audioLine ++ urlLine ++ portsLine)) .onReceiveM4Response

def TriggerType.method : TriggerType → JString
  | .TRIGGER_SETUP => jstr "SETUP"
  | .TRIGGER_TEARDOWN => jstr "TEARDOWN"
  | .TRIGGER_PAUSE => jstr "PAUSE"
  | .TRIGGER_PLAY => jstr "PLAY"

/-- M5. -/
def sendTrigger (env : Env) (sessionID : ℤ) (triggerType : TriggerType) : Handler ℤ :=
  sendAndRegister env sessionID (jstr "SET_PARAMETER rtsp://localhost/wfd1.0 RTSP/1.0\r\n")
    (textParameters (jstr "wfd_trigger_method: " ++ triggerType.method ++ crlf))
    .onReceiveM5Response

/-! ## Timers -/

/-- `AMessage.obtain(what, this).post(delay)`; the unit of the delay is the millisecond. -/
def post (msg : Message) (delayMillis : ℤ) : Handler Unit := log (.post msg delayMillis)

def scheduleReaper : Handler Unit := do
  if (← get).mReaperPending then return
  modify fun s => { s with mReaperPending := true }
  post .reapDeadClients REAPER_INTERVAL_US

def scheduleKeepAlive (sessionID : ℤ) : Handler Unit := do
  if PLAYBACK_SESSION_TIMEOUT_US ≤ 5000000 then throw .runtime
  post (.keepAlive sessionID) (PLAYBACK_SESSION_TIMEOUT_US - 5000000)

def sendM16 (env : Env) (sessionID : ℤ) : Handler ℤ := do
  if sessionID ≠ (← get).mClientSessionID then throw .runtime
  let headers :=
    jstr "Session: " ++ decimal (← get).mClientInfo.mPlaybackSessionID ++ crlf ++ crlf
  let err ← sendAndRegister env sessionID
    (jstr "GET_PARAMETER rtsp://localhost/wfd1.0 RTSP/1.0\r\n") headers .onReceiveM16Response
  if err ≠ OK then return err
  scheduleKeepAlive sessionID
  return OK

def sendErrorResponse (env : Env) (sessionID : ℤ) (errorDetail : JString) (cseq : ℤ) :
    Handler Unit := do
  let _ ← sendRequest sessionID
    (jstr "RTSP/1.0 " ++ errorDetail ++ crlf ++ commonResponse env cseq (-1) ++ crlf)

end MirrorCast.WifiDisplaySource
