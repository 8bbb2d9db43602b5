import MirrorCast.Library.Looper
import MirrorCast.Program.PlaybackSession

/-! # `PlaybackSession`: a session that mirrors the screen, its sender, its tracks and their threads

The session, its tracks, `MediaSender` and `RTPSender` are handlers of one looper. Each track has a
`MediaPuller` and a `Converter` with a looper of their own, and a thread for what its codec puts
out. A handler takes a step of its own for each message that it posts and for each change that
another thread can see, so other threads come in between. -/

namespace MirrorCast.PlaybackSession.Mirroring

open Java RTPBase
open ANetworkSession (OK)

/-! ## A track and its threads -/

/-- The messages of a `MediaPuller`. -/
inductive PullerMessage where
  | WHAT_START
  | WHAT_STOP
  | WHAT_PULL (generation : ℤ)
  | WHAT_PAUSE
  | WHAT_RESUME
  deriving DecidableEq, Repr

/-- The messages of a `Converter`. -/
inductive ConverterMessage where
  | WHAT_MEDIA_PULLER_NOTIFY
  | WHAT_REQUEST_IDR_FRAME
  | WHAT_SHUTDOWN
  | WHAT_DROP_A_FRAME
  deriving DecidableEq, Repr

/-- How far a `MediaPuller` is with a message: what it does next. -/
inductive PullerPoint where
  /-- `WHAT_START`: it has scheduled a pull. -/
  | postResponse
  /-- `WHAT_PULL`: `mSource.doPull()` has begun; whether the encoder was released then. -/
  | doPull (released : Bool)
  | notifyPullSuccess
  | schedulePull
  /-- `WHAT_STOP`: the source has stopped. -/
  | notifyStopped
  | quit
  deriving DecidableEq, Repr

/-- How far a `Converter` is with a message. -/
inductive ConverterPoint where
  /-- In the loop of `mEncoder.doEncode()`. -/
  | doEncode
  /-- `WHAT_SHUTDOWN`: the encoder is released. -/
  | notifyShutdownCompleted
  | quit
  deriving DecidableEq, Repr

/-- What the looper of the session gets from a track and its threads. -/
inductive TrackMessage where
  /-- `WHAT_CONVERTER_NOTIFY`: the access units are numbered. -/
  | WHAT_ACCESS_UNIT (number : ℕ)
  | WHAT_EOS
  | WHAT_SHUTDOWN_COMPLETED
  /-- To the track. -/
  | WHAT_MEDIA_PULLER_STOPPED
  /-- `WHAT_TRACK_NOTIFY`. -/
  | WHAT_STOPPED
  deriving DecidableEq, Repr

/-- `hasConverter` is whether `mConverter` is not null; `mMediaPuller` never is. -/
structure Track extends PlaybackSession.Track where
  mStarted : Bool
  deriving DecidableEq, Repr

/-- A key of `mTracks`: the track while it is there, and the threads that were made for it. -/
structure Slot where
  track : Option Track
  /-- The puller. `responded` is whether the response to `WHAT_START` is there. -/
  puller : Looper PullerMessage PullerPoint
  mPullGeneration : ℤ
  mPaused : Bool
  responded : Bool
  /-- The converter. -/
  converter : Looper ConverterMessage ConverterPoint
  mNumFramesToDrop : ℤ
  /-- The encoder: how many images are in `mWriterImageQueue` or buffers in
  `mPendingInputBuffer`, how many the codec was given and how many it gave back. -/
  isVideo : Bool
  released : Bool
  waiting : ℕ
  encoded : ℕ
  outputs : ℕ
  /-- What the callback of the codec that is at work has yet to post. -/
  notify : Option TrackMessage
  deriving DecidableEq, Repr

/-- How a pull ends that does not wait for ever: with data, without, or because there is no
input buffer to pull into. -/
inductive Pulled where
  | data
  | noData
  | noBuffer
  deriving DecidableEq, Repr

/-- What a codec calls back for: a buffer, or a new format, of which there is whether it has both
`csd-0` and `csd-1`. -/
inductive Output where
  | accessUnit
  | codecConfig
  | endOfStream
  | formatChanged (hasCsd : Bool)
  deriving DecidableEq, Repr

namespace Slot

/-- What a track was made with. -/
def new (mIsAudio : Bool) : Slot where
  track := some ⟨⟨mIsAudio, true⟩, false⟩
  puller := .new
  mPullGeneration := 0
  mPaused := false
  responded := false
  converter := .new
  mNumFramesToDrop := 0
  isVideo := !mIsAudio
  released := false
  waiting := 0
  encoded := 0
  outputs := 0
  notify := none

/-- A key that was never used. -/
def unused : Slot :=
  { new true with
    track := none
    puller := Looper.new.quit
    converter := Looper.new.quit
    released := true }

def postPuller (slot : Slot) (m : PullerMessage) : Slot :=
  { slot with puller := slot.puller.post m }

def postConverter (slot : Slot) (m : ConverterMessage) : Slot :=
  { slot with converter := slot.converter.post m }

/-- What an operation makes of a slot, and what it posts to the looper of the session. -/
abbrev Result := Except JavaException (Slot × List TrackMessage)

/-! ### `Track` -/

/-- The first half of `stopAsync`. -/
def shutdownConverter (slot : Slot) : Slot :=
  if slot.track.any (·.hasConverter) then slot.postConverter .WHAT_SHUTDOWN else slot

/-- The second half, with what it posts to the track. -/
def stopPuller (slot : Slot) : Slot × List TrackMessage :=
  match slot.track with
  | none => (slot, [])
  | some track =>
      if track.mStarted then (slot.postPuller .WHAT_STOP, [])
      else (slot, [.WHAT_MEDIA_PULLER_STOPPED])

def pause (slot : Slot) : Slot :=
  if slot.track.isSome then slot.postPuller .WHAT_PAUSE else slot

def resume (slot : Slot) : Slot :=
  if slot.track.isSome then slot.postPuller .WHAT_RESUME else slot

/-- Whether `requestIDRFrame` throws. -/
def lacksConverter (slot : Slot) : Bool :=
  slot.track.any fun track => !track.mIsAudio && !track.hasConverter

def requestIDRFrame (slot : Slot) : Slot :=
  if slot.track.any fun track => !track.mIsAudio then
    slot.postConverter .WHAT_REQUEST_IDR_FRAME else slot

/-- `WHAT_MEDIA_PULLER_STOPPED`. -/
def onMediaPullerStopped (slot : Slot) : Slot × List TrackMessage :=
  ({ slot with
      track := slot.track.map fun track => { track with hasConverter := false, mStarted := false } },
    [.WHAT_STOPPED])

/-- The end of `start`, when the puller has responded. -/
def started (slot : Slot) : Slot :=
  { slot with
    track := slot.track.map fun track => { track with mStarted := true }
    responded := false }

/-! ### `MediaPuller` -/

def schedulePull (slot : Slot) : Slot := slot.postPuller (.WHAT_PULL slot.mPullGeneration)

def pullerAt (slot : Slot) (p : PullerPoint) : Slot := { slot with puller := slot.puller.goTo p }

def pullerDone (slot : Slot) : Slot := { slot with puller := slot.puller.done }

/-- The end of `mSource.doPull()`, and whether it returns `OK`. An encoder that was released has no
`mImageWriter` or `mAudioRecord`; a full queue of images drops its first one. -/
def doPull (slot : Slot) (released : Bool) (pulled : Pulled) : Except JavaException (Slot × Bool) :=
  if !slot.isVideo && pulled = .noBuffer then .error .noSuchElement
  else if slot.isVideo && pulled ≠ .data then .ok (slot, false)
  else if released then .error .nullPointer
  else if pulled = .data then
    .ok ({ slot with waiting := min (slot.waiting + 1) (if slot.isVideo then 2 else 1) }, true)
  else .ok (slot, false)

/-- The puller begins with a message. -/
def onPullerMessage (slot : Slot) : PullerMessage → Slot
  | .WHAT_START => slot.schedulePull.pullerAt .postResponse
  | .WHAT_STOP => { slot with released := true }.pullerAt .notifyStopped
  | .WHAT_PULL generation =>
      if generation ≠ slot.mPullGeneration then slot.pullerDone
      else slot.pullerAt (.doPull slot.released)
  | .WHAT_PAUSE => { slot with mPaused := true }.pullerDone
  | .WHAT_RESUME => { slot with mPaused := false }.pullerDone

/-- The puller goes on with its message. -/
def onPullerPoint (slot : Slot) (pulled : Pulled) : PullerPoint → Result
  | .postResponse => .ok ({ slot with responded := true }.pullerDone, [])
  | .doPull released => do
      let (slot, ok) ← slot.doPull released pulled
      if slot.mPaused then return (slot.pullerAt .schedulePull, [])
      else if ok then return (slot.pullerAt .notifyPullSuccess, [])
      else return (slot.pullerDone, [])
  | .notifyPullSuccess =>
      .ok ((slot.postConverter .WHAT_MEDIA_PULLER_NOTIFY).pullerAt .schedulePull, [])
  | .schedulePull => .ok (slot.schedulePull.pullerDone, [])
  | .notifyStopped => .ok
      ({ slot with mPullGeneration := int32 (slot.mPullGeneration + 1) }.pullerAt .quit,
        [.WHAT_MEDIA_PULLER_STOPPED])
  | .quit => .ok ({ slot with puller := slot.puller.quit.done }, [])

def runPuller (slot : Slot) (pulled : Pulled) : Result :=
  match slot.puller.point, slot.puller.messages with
  | some p, _ => slot.onPullerPoint pulled p
  | none, m :: _ => .ok (slot.onPullerMessage m, [])
  | none, [] => .ok (slot, [])

/-! ### `Converter` -/

def converterAt (slot : Slot) (p : ConverterPoint) : Slot :=
  { slot with converter := slot.converter.goTo p }

def converterDone (slot : Slot) : Slot := { slot with converter := slot.converter.done }

/-- The converter begins with a message. -/
def onConverterMessage (slot : Slot) : ConverterMessage → Except JavaException Slot
  | .WHAT_MEDIA_PULLER_NOTIFY =>
      if 0 < slot.mNumFramesToDrop then
        .ok { slot with mNumFramesToDrop := slot.mNumFramesToDrop - 1 }.converterDone
      else .ok (slot.converterAt .doEncode)
  | .WHAT_REQUEST_IDR_FRAME =>
      if slot.isVideo && slot.released then .error .nullPointer else .ok slot.converterDone
  | .WHAT_SHUTDOWN => .ok ({ slot with released := true }.converterAt .notifyShutdownCompleted)
  | .WHAT_DROP_A_FRAME =>
      .ok { slot with mNumFramesToDrop := int32 (slot.mNumFramesToDrop + 1) }.converterDone

/-- `mEncoder.doEncode()` encodes one image or buffer; only that of video looks for more. -/
def doEncode (slot : Slot) : Except JavaException Slot :=
  if slot.waiting = 0 then .ok slot.converterDone
  else if slot.released then .error .nullPointer
  else
    let slot := { slot with waiting := slot.waiting - 1, encoded := slot.encoded + 1 }
    .ok (if slot.isVideo then slot else slot.converterDone)

/-- The converter goes on with its message. -/
def onConverterPoint (slot : Slot) : ConverterPoint → Result
  | .doEncode => slot.doEncode.map (·, [])
  | .notifyShutdownCompleted => .ok (slot.converterAt .quit, [.WHAT_SHUTDOWN_COMPLETED])
  | .quit => .ok ({ slot with converter := slot.converter.quit.done }, [])

def runConverter (slot : Slot) : Result :=
  match slot.converter.point, slot.converter.messages with
  | some p, _ => slot.onConverterPoint p
  | none, m :: _ => (slot.onConverterMessage m).map (·, [])
  | none, [] => .ok (slot, [])

/-! ### `OutputCallback` -/

/-- The codec calls back, unless a callback is at work: then that posts its message.
`onOutputBufferAvailable` takes the encoder for one of video. A codec calls nobody back after it
was released, and puts out no unit that it was not given. -/
def output (slot : Slot) (o : Output) : Result :=
  match slot.notify with
  | some m => .ok ({ slot with notify := none }, [m])
  | none =>
      if slot.released then .ok (slot, [])
      else
        match o with
        | .codecConfig => .ok (slot, [])
        | .formatChanged hasCsd => if hasCsd then .ok (slot, []) else .error .nullPointer
        | .endOfStream => .ok ({ slot with notify := some .WHAT_EOS }, [])
        | .accessUnit =>
            if slot.encoded ≤ slot.outputs then .ok (slot, [])
            else if !slot.isVideo then .error .runtime
            else .ok
              ({ slot with
                  outputs := slot.outputs + 1
                  notify := some (.WHAT_ACCESS_UNIT slot.outputs) }, [])

end Slot

/-! ## The session and its sender -/

/-- What `RTPSender` notifies `MediaSender` of, and `MediaSender` the session. Of the latencies
there is whether the bit rate changes for them. -/
inductive SenderNotification where
  | WHAT_INIT_DONE (err : ℤ)
  | WHAT_ERROR (err : ℤ)
  | WHAT_NETWORK_STALL
  | WHAT_INFORM_SENDER (newBitrate : Bool)
  deriving DecidableEq, Repr

/-- What `mNetSession` notifies `RTPSender` of. Of a datagram there are the latencies in it, and
what `onRTCPData` throws after it has read them, if it does. -/
inductive NetNotification where
  | WHAT_ERROR (err : ℤ)
  | WHAT_CONNECTED
  | WHAT_NETWORK_STALL
  | WHAT_DATAGRAM (newBitrates : List Bool) (thrown : Option JavaException)
  deriving DecidableEq, Repr

/-- What a handler of the session still has to do: something with a track, a latency to report, or
to throw. -/
inductive Task where
  | stopAsync (trackIndex : ℕ)
  /-- The second half of `stopAsync`. -/
  | stopPuller (trackIndex : ℕ)
  | pause (trackIndex : ℕ)
  | resume (trackIndex : ℕ)
  | requestIDRFrame (trackIndex : ℕ)
  | informSender (newBitrate : Bool)
  | throw (e : JavaException)
  deriving DecidableEq, Repr

/-- The messages of the looper of the session. In front of them stands what the handler of the last
one still has to do. -/
inductive Message where
  | task (t : Task)
  /-- `WHAT_RTP_NOTIFY` or `WHAT_RTCP_NOTIFY`, to `RTPSender`. -/
  | net (isRTP : Bool) (n : NetNotification)
  /-- To `MediaSender`. -/
  | WHAT_SENDER_NOTIFY (generation : ℤ) (n : SenderNotification)
  | WHAT_MEDIA_SENDER_NOTIFY (n : SenderNotification)
  | WHAT_PAUSE
  | WHAT_RESUME
  | track (trackIndex : ℕ) (m : TrackMessage)
  deriving DecidableEq, Repr

/-- How a connection of `RTPSender` is. -/
inductive Link where
  | none
  | connecting
  | usable
  deriving DecidableEq, Repr

/-- A session of `mNetSession` that is connecting announces that it is connected or that it is
not, and once it has, all but that. -/
def Link.announces : Link → NetNotification → Bool
  | .none, _ => false
  | .connecting, .WHAT_CONNECTED => true
  | .connecting, .WHAT_ERROR _ => true
  | .connecting, _ => false
  | .usable, n => n ≠ .WHAT_CONNECTED

/-- A session of `mNetSession` that `RTPSender` has, by what the code keeps of it: whether it is
connected, and whether its number is still the one that was given out. -/
structure Leg where
  mode : TransportMode
  connected : Bool
  sessionID : Bool
  link : Link
  deriving DecidableEq, Repr

/-- What the session does to others. -/
inductive Effect where
  | queueAccessUnit (trackIndex number : ℕ)
  | WHAT_SESSION_DEAD
  | WHAT_SESSION_ESTABLISHED
  | WHAT_SESSION_DESTROYED
  deriving DecidableEq, Repr

inductive Thread where
  | main
  | puller (trackIndex : ℕ)
  | converter (trackIndex : ℕ)
  | output (trackIndex : ℕ)
  deriving DecidableEq, Repr

/-- The session, `MediaSender` and `RTPSender`, the messages of their looper, and the exception
that ended the process. While `starting` is not empty the looper waits for the puller of its first
track; `tracks` is how many tracks were added. -/
structure State where
  queue : List Message
  starting : List ℕ
  tracks : ℕ
  slots : ℕ → Slot
  mVideoTrackIndex : Option ℕ
  mWeAreDead : Bool
  mPaused : Bool
  /-- Whether `mMediaSender` is not null. -/
  mMediaSender : Bool
  mInitDoneCount : ℤ
  mGeneration : ℤ
  rtp : Leg
  rtcp : Leg
  effects : List Effect
  exception : Option (Thread × JavaException)

/-- What `MediaSender.queueAccessUnit` comes to: whether it sends packets, and its result. -/
structure Queued where
  sends : Bool
  err : ℤ
  deriving DecidableEq, Repr

namespace State

def post (s : State) (m : Message) : State := { s with queue := s.queue ++ [m] }

def log (s : State) (e : Effect) : State := { s with effects := s.effects ++ [e] }

def throw (s : State) (thread : Thread) (e : JavaException) : State :=
  { s with exception := some (thread, e) }

def setSlot (s : State) (i : ℕ) (slot : Slot) : State :=
  { s with slots := Function.update s.slots i slot }

/-- What a thread does to the slot of a track. -/
def update (s : State) (thread : Thread) (i : ℕ) : Slot.Result → State
  | .error e => s.throw thread e
  | .ok (slot, ms) =>
      { s with
        queue := s.queue ++ ms.map (.track i)
        slots := Function.update s.slots i slot }

/-- The handler still has to do this. -/
def todo (s : State) (tasks : List Task) : State := { s with queue := tasks.map .task ++ s.queue }

/-- One after the other for all tracks. -/
def forTracks (s : State) (task : ℕ → Task) : State := s.todo ((List.range s.tracks).map task)

def notifySessionDead (s : State) : State :=
  { s.log .WHAT_SESSION_DEAD with mWeAreDead := true }

/-! ### `RTPSender` and `MediaSender` -/

/-- A message of `RTPSender` to `MediaSender`: its notification has the first generation. -/
def notifySender (s : State) (n : SenderNotification) : State := s.post (.WHAT_SENDER_NOTIFY 0 n)

def leg (s : State) (isRTP : Bool) : Leg := if isRTP then s.rtp else s.rtcp

def setLeg (s : State) (isRTP : Bool) (leg : Leg) : State :=
  if isRTP then { s with rtp := leg } else { s with rtcp := leg }

def onNetNotify (s : State) (isRTP : Bool) : NetNotification → State
  | .WHAT_ERROR err =>
      let s := s.setLeg isRTP { s.leg isRTP with sessionID := false }
      if !s.rtp.connected || s.rtp.mode ≠ .TRANSPORT_NONE && !s.rtcp.connected then
        s.notifySender (.WHAT_INIT_DONE err)
      else s.notifySender (.WHAT_ERROR err)
  | .WHAT_DATAGRAM newBitrates thrown =>
      if isRTP then s
      else s.todo (newBitrates.map .informSender ++ (thrown.map .throw).toList)
  | .WHAT_CONNECTED =>
      if (s.leg isRTP).mode ≠ .TRANSPORT_TCP then s.throw .main .runtime
      else if !(s.leg isRTP).sessionID then s.throw .main .runtime
      else
        let s := s.setLeg isRTP { s.leg isRTP with connected := true }
        if s.rtp.connected && (s.rtcp.mode = .TRANSPORT_NONE || s.rtcp.connected) then
          s.notifySender (.WHAT_INIT_DONE OK)
        else s
  | .WHAT_NETWORK_STALL => s.notifySender .WHAT_NETWORK_STALL

def notifySession (s : State) (n : SenderNotification) : State :=
  s.post (.WHAT_MEDIA_SENDER_NOTIFY n)

def onSenderNotify (s : State) : SenderNotification → State
  | .WHAT_INIT_DONE err =>
      let s := { s with mInitDoneCount := int32 (s.mInitDoneCount - 1) }
      if err ≠ OK then
        { s.notifySession (.WHAT_INIT_DONE err) with mGeneration := int32 (s.mGeneration + 1) }
      else if s.mInitDoneCount = 0 then s.notifySession (.WHAT_INIT_DONE OK)
      else s
  | n => s.notifySession n

/-! ### `PlaybackSession` -/

/-- `start` of the next track, until it waits for its puller; after the last one the session is
established. -/
def startNext (s : State) : State :=
  match s.starting with
  | [] => s.log .WHAT_SESSION_ESTABLISHED
  | i :: _ =>
      match (s.slots i).track with
      | none => s.throw .main .nullPointer
      | some track =>
          if track.mStarted then s.throw .main .runtime
          else s.setSlot i ((s.slots i).postPuller .WHAT_START)

def onMediaSenderInitialized (s : State) : State :=
  { s with
    starting := (List.range s.tracks).filter fun i => (s.slots i).track.isSome }.startNext

/-- What happens to the converter of the video track, if the session has one. -/
def withConverter (s : State) (f : ℕ → State) : State :=
  match s.mVideoTrackIndex with
  | none => s
  | some i =>
      match (s.slots i).track with
      | none => s.throw .main .nullPointer
      | some track => if track.hasConverter then f i else s

/-- `setVideoBitrate` of an encoder that was released throws. -/
def onMediaSenderNotify (s : State) : SenderNotification → State
  | .WHAT_INIT_DONE err => if err = OK then s.onMediaSenderInitialized else s.notifySessionDead
  | .WHAT_ERROR _ => s.notifySessionDead
  | .WHAT_NETWORK_STALL =>
      s.withConverter fun i => s.setSlot i ((s.slots i).postConverter .WHAT_DROP_A_FRAME)
  | .WHAT_INFORM_SENDER newBitrate =>
      s.withConverter fun i =>
        if newBitrate && (s.slots i).released then s.throw .main .nullPointer else s

/-- `mMediaSender.queueAccessUnit`; nothing is sent before `mRTPConnected`. -/
def onAccessUnit (s : State) (queued : Queued) (i number : ℕ) : State :=
  if !s.mMediaSender || (s.slots i).track.isNone then s.throw .main .nullPointer
  else if queued.sends && !s.rtp.connected then s.throw .main .runtime
  else
    let s := s.log (.queueAccessUnit i number)
    if queued.err = OK then s else s.notifySessionDead

/-- `WHAT_EOS`: the looper of the converter quits. -/
def onEOS (s : State) (i : ℕ) : State :=
  match (s.slots i).track with
  | none => s.throw .main .runtime
  | some track =>
      if track.hasConverter then
        s.setSlot i { s.slots i with track := none, converter := (s.slots i).converter.quit }
      else s.throw .main .nullPointer

/-- `removeCallbacksAndMessages(null)` of the track. -/
def removeTrackMessages (s : State) (i : ℕ) : State :=
  { s with queue := s.queue.filter (· ≠ .track i .WHAT_MEDIA_PULLER_STOPPED) }

def isToMediaSender : Message → Bool
  | .WHAT_SENDER_NOTIFY .. => true
  | _ => false

/-- The end of a session whose last track has stopped. -/
def destroyed (s : State) : State :=
  if s.mMediaSender then
    { s.log .WHAT_SESSION_DESTROYED with
      queue := s.queue.filter fun m => !isToMediaSender m
      mMediaSender := false }
  else s.throw .main .nullPointer

/-- `mTracks.size() != 0`. -/
def hasTracks (s : State) : Bool := (List.range s.tracks).any fun i => (s.slots i).track.isSome

def onStopped (s : State) (i : ℕ) : State :=
  match (s.slots i).track with
  | none => s.throw .main .nullPointer
  | some _ =>
      let s := (s.removeTrackMessages i).setSlot i { s.slots i with track := none }
      if s.hasTracks then s else s.destroyed

def onTrackMessage (s : State) (queued : Queued) (i : ℕ) : TrackMessage → State
  | .WHAT_ACCESS_UNIT number => if s.mWeAreDead then s else s.onAccessUnit queued i number
  | .WHAT_EOS => if s.mWeAreDead then s else s.onEOS i
  | .WHAT_SHUTDOWN_COMPLETED => s
  | .WHAT_MEDIA_PULLER_STOPPED => s.update .main i (.ok (s.slots i).onMediaPullerStopped)
  | .WHAT_STOPPED => s.onStopped i

def onTask (s : State) : Task → State
  | .stopAsync i => (s.setSlot i (s.slots i).shutdownConverter).todo [.stopPuller i]
  | .stopPuller i => s.update .main i (.ok (s.slots i).stopPuller)
  | .pause i => s.setSlot i (s.slots i).pause
  | .resume i => s.setSlot i (s.slots i).resume
  | .requestIDRFrame i =>
      if (s.slots i).lacksConverter then s.throw .main .nullPointer
      else s.setSlot i (s.slots i).requestIDRFrame
  | .informSender newBitrate => s.notifySender (.WHAT_INFORM_SENDER newBitrate)
  | .throw e => s.throw .main e

def onMessageReceived (s : State) (queued : Queued) : Message → State
  | .task t => s.onTask t
  | .net isRTP n => s.onNetNotify isRTP n
  | .WHAT_SENDER_NOTIFY generation n =>
      if generation ≠ s.mGeneration then s else s.onSenderNotify n
  | .WHAT_MEDIA_SENDER_NOTIFY n => s.onMediaSenderNotify n
  | .WHAT_PAUSE => if s.mPaused then s else { s.forTracks .pause with mPaused := true }
  | .WHAT_RESUME => if s.mPaused then { s.forTracks .resume with mPaused := false } else s
  | .track i m => s.onTrackMessage queued i m

/-- The looper of the session goes on: with the first message, or with the track whose puller has
responded. -/
def runMain (s : State) (queued : Queued) : State :=
  match s.starting with
  | i :: starting =>
      if (s.slots i).responded then
        { s with
          starting
          slots := Function.update s.slots i (s.slots i).started }.startNext
      else s
  | [] =>
      match s.queue with
      | [] => s
      | m :: queue => { s with queue }.onMessageReceived queued m

end State

/-! ## Runs -/

/-- What `WifiDisplaySource` calls, on the same looper. -/
inductive Call where
  | destroyAsync
  | play
  | pause
  | requestIDRFrame
  deriving DecidableEq, Repr

/-- Who moves next: a looper, the codec of a track, `WifiDisplaySource` between two messages, or
`mNetSession`. At any time a thread may throw something: what the platform throws, or what two
threads come to that use an encoder while one of them releases it. -/
inductive Event where
  | main (queued : Queued)
  | puller (trackIndex : ℕ) (pulled : Pulled)
  | converter (trackIndex : ℕ)
  | output (trackIndex : ℕ) (o : Output)
  | call (c : Call)
  | net (isRTP : Bool) (n : NetNotification)
  | fails (thread : Thread) (e : JavaException)
  deriving DecidableEq, Repr

namespace State

def call (s : State) : Call → State
  | .destroyAsync => s.forTracks .stopAsync
  | .play => s.post .WHAT_RESUME
  | .pause => s.post .WHAT_PAUSE
  | .requestIDRFrame => s.forTracks .requestIDRFrame

/-- Whether a handler of the looper is at work. -/
def busy (s : State) : Bool := s.starting ≠ [] || s.queue.head?.any fun m => m matches .task _

/-- What `mNetSession` announces. -/
def notified (s : State) (isRTP : Bool) (n : NetNotification) : State :=
  if (s.leg isRTP).link.announces n then
    (s.setLeg isRTP { s.leg isRTP with link := .usable }).post (.net isRTP n)
  else s

def next (s : State) : Event → State
  | .main queued => s.runMain queued
  | .puller i pulled => s.update (.puller i) i ((s.slots i).runPuller pulled)
  | .converter i => s.update (.converter i) i (s.slots i).runConverter
  | .output i o => s.update (.output i) i ((s.slots i).output o)
  | .call c => if s.busy then s else s.call c
  | .net isRTP n => s.notified isRTP n
  | .fails thread e => s.throw thread e

/-- Nothing happens after an exception. -/
def step (s : State) (event : Event) : State :=
  if s.exception.isSome then s else s.next event

/-- A connection when it was made. -/
def newLeg (mode : TransportMode) : Leg where
  mode := mode
  connected := mode = .TRANSPORT_UDP
  sessionID := mode ≠ .TRANSPORT_NONE
  link :=
    if mode = .TRANSPORT_NONE then .none
    else if mode = .TRANSPORT_UDP then .usable else .connecting

/-- A session after `init` has returned `OK`, with the tracks it has added. -/
def new (mIsAudio : List Bool) (rtpMode rtcpMode : TransportMode) : State where
  queue :=
    if rtpMode = .TRANSPORT_UDP ∧ (rtcpMode = .TRANSPORT_UDP ∨ rtcpMode = .TRANSPORT_NONE) then
      [.WHAT_SENDER_NOTIFY 0 (.WHAT_INIT_DONE OK)]
    else []
  starting := []
  tracks := mIsAudio.length
  slots := fun i => mIsAudio[i]?.elim .unused .new
  mVideoTrackIndex := (List.range mIsAudio.length).reverse.find? fun i => mIsAudio[i]? = some false
  mWeAreDead := false
  mPaused := false
  mMediaSender := true
  mInitDoneCount := 1
  mGeneration := 0
  rtp := newLeg rtpMode
  rtcp := newLeg rtcpMode
  effects := []
  exception := none

end State

end MirrorCast.PlaybackSession.Mirroring
