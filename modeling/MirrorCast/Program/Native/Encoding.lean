import MirrorCast.Library.Machine
import MirrorCast.Program.Native.MediaCodec

/-! # `MediaCodec.cpp`: the encoder thread and the rotations -/

namespace MirrorCast.Native.Encoding

open MediaCodec

/-- How far the encoder thread is in `startEncoder`. -/
inductive Encoder where
  /-- `isRecording` is read next. -/
  | looping
  | testingPlaying1
  | testingPlaying2
  /-- The loop of `drainOutputBufferForEncoder` tests `isPlaying1` or `isPlaying2` next. -/
  | draining (isPortrait : Bool)
  | dequeuing (isPortrait : Bool)
  /-- `handleOutputBufferImpl` reads `isKeyFrameWrite1` or `isKeyFrameWrite2` next. -/
  | handling (room : Room)
  /-- It writes the flag next. -/
  | marking (room : Room)
  | sending (room : Room)
  | releasing
  | ended
  deriving DecidableEq, Repr

/-- How far `fromPortraitToLandscape` or `fromLandscapeToPortrait` is: what it writes next, for
the orientation it goes to. -/
inductive Rotation where
  | idle
  | isPlaying1 (isPortrait : Bool)
  | isPlaying2 (isPortrait : Bool)
  | isKeyFrameWrite (isPortrait : Bool)
  | sendData (isPortrait : Bool)
  deriving DecidableEq, Repr

structure State where
  isRecording : Bool
  isPlaying1 : Bool
  isPlaying2 : Bool
  isKeyFrameWrite : KeyFrameWrite
  ONLY_OUTPUT_KEY_FRAME : Bool
  encoder : Encoder
  rotation : Rotation
  deriving DecidableEq, Repr

/-- What `startRecordScreen` leaves. -/
def State.initial (isPortrait : Bool) : State where
  isRecording := true
  isPlaying1 := isPortrait
  isPlaying2 := !isPortrait
  isKeyFrameWrite := ⟨false, false⟩
  ONLY_OUTPUT_KEY_FRAME := false
  encoder := .looping
  rotation := .idle

/-- What has been written to the socket. -/
inductive Sent where
  | frame (room : Room)
  | orientation (isPortrait : Bool)
  deriving DecidableEq, Repr

def Sent.bytes : Sent → List UInt8
  | frame room => room.frame
  | orientation isPortrait => if isPortrait then ORIENTATION_PORTRAIT else ORIENTATION_LANDSCAPE

/-- What `AMediaCodec_dequeueOutputBuffer` and `AMediaCodec_getOutputBuffer` return. -/
inductive Dequeued where
  | noIndex
  | nullptr
  | room (bytes : List UInt8) (flags : UInt32)
  deriving DecidableEq, Repr

/-- Who moves next. A write to the socket succeeds or fails as `written` says. -/
inductive Input where
  | encoder (dequeued : Dequeued) (written : Bool)
  /-- `fromLandscapeToPortrait` or `fromPortraitToLandscape` is called. -/
  | rotate (isPortrait : Bool)
  | rotation (written : Bool)
  | only_output_key_frame
  deriving DecidableEq, Repr

/-- `sendData(data_buffer, length)`, under `mutex1`. -/
def sendData (s : State) (written : Bool) (message : Sent) : State × List Sent :=
  if s.isRecording then
    if written then (s, [message])
    else ({ s with isRecording := false, isPlaying1 := false, isPlaying2 := false }, [])
  else (s, [])

def State.isPlaying (s : State) (isPortrait : Bool) : Bool :=
  if isPortrait then s.isPlaying1 else s.isPlaying2

def keyFrameWritten (k : KeyFrameWrite) (isPortrait : Bool) : Bool :=
  if isPortrait then k.portrait else k.landscape

def setKeyFrameWrite (k : KeyFrameWrite) (isPortrait value : Bool) : KeyFrameWrite :=
  if isPortrait then { k with portrait := value } else { k with landscape := value }

def isKey (flags : UInt32) : Bool := flags &&& 1 != 0

/-- The next step of `startEncoder`. -/
def startEncoder (s : State) (dequeued : Dequeued) (written : Bool) : State × List Sent :=
  match s.encoder with
  | .looping =>
      ({ s with encoder := if s.isRecording then .testingPlaying1 else .releasing }, [])
  | .testingPlaying1 =>
      ({ s with encoder := if s.isPlaying1 then .draining true else .testingPlaying2 }, [])
  | .testingPlaying2 =>
      ({ s with encoder := if s.isPlaying2 then .draining false else .looping }, [])
  | .draining isPortrait =>
      ({ s with encoder := if s.isPlaying isPortrait then .dequeuing isPortrait else .looping }, [])
  | .dequeuing isPortrait =>
      let encoder :=
        match dequeued with
        | .noIndex => .looping
        | .nullptr => .draining isPortrait
        | .room bytes flags =>
            if s.ONLY_OUTPUT_KEY_FRAME ∧ isKey flags = false then .draining isPortrait
            else .handling ⟨bytes, flags, isPortrait⟩
      ({ s with encoder }, [])
  | .handling room =>
      let encoder :=
        if keyFrameWritten s.isKeyFrameWrite room.isPortrait then .sending room
        else if isKey room.flags then .marking room
        else .draining room.isPortrait
      ({ s with encoder }, [])
  | .marking room =>
      let isKeyFrameWrite := setKeyFrameWrite s.isKeyFrameWrite room.isPortrait true
      ({ s with isKeyFrameWrite, encoder := .sending room }, [])
  | .sending room =>
      sendData { s with encoder := .draining room.isPortrait } written (.frame room)
  | .releasing =>
      ({ s with isRecording := false, isPlaying1 := false, isPlaying2 := false,
                isKeyFrameWrite := ⟨false, false⟩, encoder := .ended }, [])
  | .ended => (s, [])

/-- The next step of a rotation; `isPlaying1` comes first both ways. -/
def rotate (s : State) (written : Bool) : State × List Sent :=
  match s.rotation with
  | .idle => (s, [])
  | .isPlaying1 isPortrait =>
      ({ s with isPlaying1 := isPortrait, rotation := .isPlaying2 isPortrait }, [])
  | .isPlaying2 isPortrait =>
      ({ s with isPlaying2 := !isPortrait, rotation := .isKeyFrameWrite isPortrait }, [])
  | .isKeyFrameWrite isPortrait =>
      let isKeyFrameWrite := setKeyFrameWrite s.isKeyFrameWrite isPortrait false
      ({ s with isKeyFrameWrite, rotation := .sendData isPortrait }, [])
  | .sendData isPortrait => sendData { s with rotation := .idle } written (.orientation isPortrait)

def step : Machine.Step State Input Sent Empty := fun s i =>
  match i with
  | .encoder dequeued written => .ok (startEncoder s dequeued written)
  | .rotate isPortrait =>
      .ok (if s.rotation = .idle then { s with rotation := .isPlaying1 isPortrait } else s, [])
  | .rotation written => .ok (rotate s written)
  | .only_output_key_frame => .ok ({ s with ONLY_OUTPUT_KEY_FRAME := !s.ONLY_OUTPUT_KEY_FRAME }, [])

end MirrorCast.Native.Encoding
