import MirrorCast.Program.ANetworkSession

/-! # `PlaybackSession`: what the RTSP source calls of it -/

namespace MirrorCast

open Java

namespace Errno

def ENOENT : ℤ := 2
def EINVAL : ℤ := 22
def INVALID_OPERATION : ℤ := -38
def ERROR_MALFORMED : ℤ := -1007
def ERROR_UNSUPPORTED : ℤ := -1010

end Errno

namespace RTPBase

inductive TransportMode where
  | TRANSPORT_UNDEFINED
  | TRANSPORT_NONE
  | TRANSPORT_UDP
  | TRANSPORT_TCP
  | TRANSPORT_TCP_INTERLEAVED
  deriving DecidableEq, Repr

end RTPBase

open RTPBase

/-- `new InetSocketAddress(host, port)`. -/
def checkPort (port : ℤ) : Except JavaException Unit :=
  if port < 0 ∨ 0xffff < port then .error .illegalArgument else .ok ()

namespace RTPSender

/-- `initAsync` of a sender that was just constructed, when its attempts to bind a pair of ports
come to an end. -/
def initAsync (remoteRTPPort : ℤ) (rtpMode : TransportMode) (remoteRTCPPort : ℤ)
    (rtcpMode : TransportMode) : Except JavaException ℤ := do
  if rtpMode = .TRANSPORT_UNDEFINED ∨ rtpMode = .TRANSPORT_NONE ∨
      rtcpMode = .TRANSPORT_UNDEFINED then
    return Errno.INVALID_OPERATION
  if rtpMode = .TRANSPORT_TCP_INTERLEAVED then throw .runtime
  if rtcpMode = .TRANSPORT_TCP_INTERLEAVED then throw .runtime
  if (rtcpMode = .TRANSPORT_NONE ∧ 0 ≤ remoteRTCPPort) ∨
      (rtcpMode ≠ .TRANSPORT_NONE ∧ remoteRTCPPort < 0) then
    return Errno.INVALID_OPERATION
  checkPort remoteRTPPort
  if 0 ≤ remoteRTCPPort then checkPort remoteRTCPPort
  return ANetworkSession.OK

end RTPSender

/-- A session that was initialized; its life sign is kept by the source. -/
structure PlaybackSession where
  mLocalRTPPort : ℤ
  deriving DecidableEq, Repr

namespace PlaybackSession

/-- A track, with whether it has a converter: it has none if it comes from an extractor, nor
after it was stopped. -/
structure Track where
  mIsAudio : Bool
  hasConverter : Bool
  deriving DecidableEq, Repr

/-- What the media framework and the other handlers of the session make of its tracks: the
result of setting the tracks up, of adding them to the packetizer, the local port, and the
tracks there are. -/
structure Media where
  setup : Except JavaException ℤ
  addTrack : ℤ
  localRTPPort : ℤ
  mTracks : List Track

def setupPacketizer (media : Media) (enableAudio enableVideo : Bool) : Except JavaException ℤ :=
  if enableAudio = false ∧ enableVideo = false then .error .runtime else media.setup

/-- `init` of a new session: the result and, if it is `OK`, the session. -/
def init (media : Media) (clientRtp : ℤ) (rtpMode : TransportMode) (clientRtcp : ℤ)
    (rtcpMode : TransportMode) (enableAudio enableVideo : Bool) :
    Except JavaException (ℤ × PlaybackSession) := do
  let err ← setupPacketizer media enableAudio enableVideo
  let err ←
    if err ≠ ANetworkSession.OK then pure err
    else if media.addTrack ≠ ANetworkSession.OK then pure media.addTrack
    else RTPSender.initAsync clientRtp rtpMode clientRtcp rtcpMode
  return (err, ⟨media.localRTPPort⟩)

/-- `requestIDRFrame` throws at a video track that has no converter. -/
def requestIDRFrame (tracks : List Track) : Except JavaException Unit :=
  if tracks.any fun track => !track.mIsAudio && !track.hasConverter then .error .nullPointer
  else .ok ()

end PlaybackSession

end MirrorCast
