import MirrorCast.Program.WifiDisplaySource.Requests

/-! # `WifiDisplaySource`: the responses of the sink -/

namespace MirrorCast.WifiDisplaySource

open Java
open ANetworkSession (OK)
open Errno (ERROR_MALFORMED ERROR_UNSUPPORTED)

variable [CharData]

/-- What a method returns at once for a response with this status. -/
def statusError (statusCode : ℤ) : Option ℤ :=
  if statusCode = 0 then some ERROR_MALFORMED
  else if statusCode ≠ 200 then some ERROR_UNSUPPORTED
  else none

/-- A response of which only the status matters. -/
def checkStatus (msg : ParsedMessage) : Handler ℤ := do
  let statusCode ← call msg.getStatusCode
  return (statusError statusCode).getD OK

def onReceiveM1Response (msg : ParsedMessage) : Handler ℤ := checkStatus msg

/-! ## M3 -/

/-- Some digits, and what follows them. -/
def takeDigits (s : JString) : Option (JString × JString) :=
  if digitsLength s = 0 then none else some (s.take (digitsLength s), s.drop (digitsLength s))

/-- The groups of `RTP/AVP/(?:UDP|TCP);unicast (\d+) (\d+) mode=play`. -/
def matchRtpPorts (value : JString) : Option (JString × JString) := do
  let rest ← value.dropPrefix? (jstr "RTP/AVP/UDP;unicast ") <|>
    value.dropPrefix? (jstr "RTP/AVP/TCP;unicast ")
  let (port0, rest) ← takeDigits rest
  let rest ← rest.dropPrefix? (jstr " ")
  let (port1, rest) ← takeDigits rest
  if rest = jstr " mode=play" then return (port0, port1) else none

/-- The groups of `(\d+) (\d+) (\d+) (\d+) (\d+)`. -/
def matchCustomFormat (value : JString) : Option (List JString) :=
  let groups := value.splitOn 0x20
  if groups.length = 5 ∧ ∀ group ∈ groups, group ≠ [] ∧ digitsLength group = group.length then
    some groups
  else none

/-- The choice of the ports: an error or `port0`. -/
def choosePort (value : JString) : Except JavaException (Except ℤ ℤ) :=
  match matchRtpPorts value with
  | some (group1, group2) => do
      let port0 ← parseInt group1
      let port1 ← parseInt group2
      return if port0 = 0 ∨ 65535 < port0 ∨ port1 ≠ 0 then .error ERROR_MALFORMED else .ok port0
  | none =>
      .ok (if value = jstr "RTP/AVP/TCP;interleaved mode=play" then .error ERROR_UNSUPPORTED
        else .ok 0)

def modifyConfig (f : ChosenVideoConfig → ChosenVideoConfig) : Handler Unit :=
  modify fun s => { s with mChosenVideoConfig := f s.mChosenVideoConfig }

/-- `values()[index]`. -/
def valueOf {α : Type} (values : List α) (index : ℤ) : Except JavaException α :=
  match if index < 0 then none else values[index.toNat]? with
  | some value => .ok value
  | none => .error .arrayIndexOutOfBounds

/-- The branch for `custom_video_formats`. -/
def chooseCustomFormat (width height framesPerSecond profile level : JString) : Handler Unit := do
  let width ← call (parseInt width)
  modifyConfig fun config => { config with width }
  let height ← call (parseInt height)
  modifyConfig fun config => { config with height }
  let framesPerSecond ← call (parseInt framesPerSecond)
  modifyConfig fun config => { config with framesPerSecond }
  let profile ← call (parseInt profile)
  let profile ← call (valueOf VideoFormats.ProfileType.values profile)
  modify fun s => { s with mChosenVideoProfile := some profile }
  let level ← call (parseInt level)
  let level ← call (valueOf VideoFormats.LevelType.values level)
  modify fun s => { s with mChosenVideoLevel := some level }
  modifyConfig fun config => { config with profileType := some profile, levelType := some level }
  modify fun s => { s with mSinkSupportsVideo := true }

/-- `mSupportedSinkVideoFormats.parseFormatSpec(value)`. -/
def parseFormatSpec (value : JString) : Handler Bool := do
  let s ← get
  let (formats, parsed) :=
    VideoFormats.parseFormatSpec ⟨s.table, s.mSupportedSinkVideoFormats⟩ value
  modify fun s =>
    { s with table := formats.table, mSupportedSinkVideoFormats := formats.this }
  call parsed

/-- The branch for `wfd_video_formats`, when it is not `none`. -/
def chooseVideoFormat (value : JString) : Handler ℤ := do
  modify fun s => { s with mSinkSupportsVideo := true }
  let parsed ← parseFormatSpec value
  if parsed = false then return ERROR_MALFORMED
  let s ← get
  let choice ← call (VideoFormats.pickBestFormat s.table s.mSupportedSinkVideoFormats
    s.mSupportedSourceVideoFormats)
  match choice with
  | none => return ERROR_UNSUPPORTED
  | some choice =>
      modify fun s =>
        { s with
          mChosenVideoResolutionType := choice.type
          mChosenVideoResolutionIndex := choice.index
          mChosenVideoProfile := some choice.profile
          mChosenVideoLevel := some choice.level }
      match ← call (VideoFormats.getConfiguration choice.type choice.index) with
      | none => throw .runtime
      | some fc =>
          modify fun s =>
            { s with mChosenVideoConfig := ⟨fc.width, fc.height, fc.framesPerSecond,
                fc.interlaced, some choice.profile, some choice.level⟩ }
          return OK

def chooseVideo (params : List (JString × JString)) : Handler ℤ := do
  match (Parameters.getParameter params (jstr "custom_video_formats")).bind matchCustomFormat with
  | some [width, height, framesPerSecond, profile, level] =>
      chooseCustomFormat width height framesPerSecond profile level
      return OK
  | _ =>
      match Parameters.getParameter params (jstr "wfd_video_formats") with
      | none => return ERROR_MALFORMED
      | some value => if value = jstr "none" then return OK else chooseVideoFormat value

/-- The modes of `(\p{XDigit}{8}) (\p{XDigit}{2})`, and 0 for anything else. -/
def audioModes (s : JString) : Except JavaException ℕ :=
  match VideoFormats.matchHere [8, 2] s with
  | some ([modes, latency], []) => do
      let modes ← parseHex (2 ^ 31) modes
      let _ ← parseHex (2 ^ 31) latency
      return modes
  | _ => .ok 0

def getAudioModes (s codec : JString) : Except JavaException ℕ :=
  match s with
  | [] => .error .stringIndexOutOfBounds
  | c :: rest =>
      if c = 0x30 then .ok 0
      else if codec.isPrefixOf (c :: rest) ∧ (c :: rest).length = codec.length then
        .error .stringIndexOutOfBounds
      else if codec.isPrefixOf (c :: rest) ∧ (c :: rest)[codec.length]? = some 0x20 then
        audioModes ((c :: rest).drop (codec.length + 1))
      else
        match (c :: rest).idxOf? 0x2c with
        | none => .ok 0
        | some commaPos => getAudioModes (trim (rest.drop commaPos)) codec
termination_by s.length
decreasing_by
  have htrim := length_trim_le (rest.drop commaPos)
  rw [List.length_drop] at htrim
  rw [List.length_cons]
  omega

def chooseAudio (params : List (JString × JString)) : Handler ℤ := do
  match Parameters.getParameter params (jstr "wfd_audio_codecs") with
  | none => return ERROR_MALFORMED
  | some value =>
      modify fun s => { s with mSinkSupportsAudio := false }
      if value = jstr "none" then return OK
      let aac ← call (getAudioModes value (jstr "AAC"))
      let lpcm ← call (getAudioModes value (jstr "LPCM"))
      if aac.testBit 0 then
        modify fun s => { s with mUsingPCMAudio := false }
        return OK
      if lpcm.testBit 1 then
        modify fun s => { s with mUsingPCMAudio := true }
        return OK
      return ERROR_UNSUPPORTED

def onReceiveM3Response (env : Env) (sessionID : ℤ) (msg : ParsedMessage) : Handler ℤ := do
  let statusCode ← call msg.getStatusCode
  if let some err := statusError statusCode then return err
  match Parameters.parse msg.mContent with
  | none => return ERROR_MALFORMED
  | some params =>
      match Parameters.getParameter params (jstr "wfd_client_rtp_ports") with
      | none => return ERROR_MALFORMED
      | some value =>
          match ← call (choosePort value) with
          | .error err => return err
          | .ok port0 =>
              modify fun s =>
                { s with mWfdClientRtpPorts := some value, mChosenRTPPort := port0,
                         mSinkSupportsVideo := false }
              let err ← chooseVideo params
              if err ≠ OK then return err
              let err ← chooseAudio params
              if err ≠ OK then return err
              let s ← get
              if s.mSinkSupportsVideo = false ∧ s.mSinkSupportsAudio = false then
                return ERROR_UNSUPPORTED
              sendM4 env sessionID

/-! ## The other responses -/

def onReceiveM4Response (env : Env) (sessionID : ℤ) (msg : ParsedMessage) : Handler ℤ := do
  let statusCode ← call msg.getStatusCode
  match statusError statusCode with
  | some err => return err
  | none => sendTrigger env sessionID .TRIGGER_SETUP

def onReceiveM5Response (msg : ParsedMessage) : Handler ℤ := checkStatus msg

def onReceiveM16Response (env : Env) (sessionID : ℤ) : Handler ℤ := do
  if sessionID ≠ (← get).mClientSessionID then throw .runtime
  when ((← get).mClientInfo.mPlaybackSession ≠ none) (updateLiveness env)
  return OK

/-- `func.handle(sessionID, msg)`. -/
def HandleRTSPResponseFunc.handle (func : HandleRTSPResponseFunc) (env : Env) (sessionID : ℤ)
    (msg : ParsedMessage) : Handler ℤ :=
  match func with
  | .onReceiveM1Response => WifiDisplaySource.onReceiveM1Response msg
  | .onReceiveM3Response => WifiDisplaySource.onReceiveM3Response env sessionID msg
  | .onReceiveM4Response => WifiDisplaySource.onReceiveM4Response env sessionID msg
  | .onReceiveM5Response => WifiDisplaySource.onReceiveM5Response msg
  | .onReceiveM16Response => WifiDisplaySource.onReceiveM16Response env sessionID

end MirrorCast.WifiDisplaySource
