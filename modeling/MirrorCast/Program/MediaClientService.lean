import MirrorCast.Library.JavaString
import MirrorCast.Library.Machine
import Mathlib.Logic.Function.Basic

/-! # `MediaClientService`: the client info, the rotations and the encoder threads -/

namespace MirrorCast.MediaClientService

open Java

/-! ## The client info -/

def FLAG : JString := jstr "@@@@@"

def ORIENTATION_PORTRAIT : ℤ := 1

def ORIENTATION_LANDSCAPE : ℤ := 2

/-- What `startRecordScreen` tells the server about. A device name that is not set is empty. -/
structure ClientInfo where
  DEVICE_NAME : JString
  mVideoMime : JString
  mScreenWidthPortrait : ℤ
  mScreenHeightPortrait : ℤ
  mScreenWidthLandscape : ℤ
  mScreenHeightLandscape : ℤ
  tempOrientation : ℤ
  deriving DecidableEq, Repr

namespace ClientInfo

def deviceName (i : ClientInfo) : JString :=
  if i.DEVICE_NAME = [] then jstr "MirrorCast" else i.DEVICE_NAME

/-- The text `startRecordScreen` builds; the width and the height are those of the orientation
at the start. -/
def sb (i : ClientInfo) : JString :=
  i.deviceName ++ FLAG ++ i.mVideoMime ++ FLAG ++
    (if i.tempOrientation = ORIENTATION_PORTRAIT then
      decimal i.mScreenWidthPortrait ++ FLAG ++ decimal i.mScreenHeightPortrait
    else if i.tempOrientation = ORIENTATION_LANDSCAPE then
      decimal i.mScreenWidthLandscape ++ FLAG ++ decimal i.mScreenHeightLandscape
    else []) ++
    FLAG ++ decimal i.tempOrientation

end ClientInfo

/-! ## Rotations and encoder threads -/

structure Fields where
  mIsRecording : Bool
  mIsHandlingPortrait : Bool
  mIsHandlingLandscape : Bool
  mIsKeyFrameWritePortrait : Bool
  mIsKeyFrameWriteLandscape : Bool
  deriving DecidableEq, Repr

def Fields.mIsHandling (f : Fields) (isPortrait : Bool) : Bool :=
  if isPortrait then f.mIsHandlingPortrait else f.mIsHandlingLandscape

/-- The steps of the calls below. A lock and its condition go by the orientation. -/
inductive Action where
  | mIsRecording (value : Bool)
  | mIsHandlingPortrait (value : Bool)
  | mIsHandlingLandscape (value : Bool)
  | mIsKeyFrameWritePortrait (value : Bool)
  | mIsKeyFrameWriteLandscape (value : Bool)
  /-- `sendData` of an orientation message. -/
  | sendData
  | lock (isPortrait : Bool)
  | signal (isPortrait : Bool)
  | unlock (isPortrait : Bool)
  deriving DecidableEq, Repr

/-- What an action writes. -/
def Action.write (f : Fields) : Action → Fields
  | mIsRecording value => { f with mIsRecording := value }
  | mIsHandlingPortrait value => { f with mIsHandlingPortrait := value }
  | mIsHandlingLandscape value => { f with mIsHandlingLandscape := value }
  | mIsKeyFrameWritePortrait value => { f with mIsKeyFrameWritePortrait := value }
  | mIsKeyFrameWriteLandscape value => { f with mIsKeyFrameWriteLandscape := value }
  | sendData | lock _ | signal _ | unlock _ => f

def releaseAll : List Action :=
  [.mIsRecording false, .mIsHandlingPortrait false, .mIsHandlingLandscape false,
    .mIsKeyFrameWritePortrait false, .mIsKeyFrameWriteLandscape false]

/-- The calls that control the encoder threads. -/
inductive Call where
  | fromPortraitToLandscape
  | fromLandscapeToPortrait
  | stopRecordScreen
  deriving DecidableEq, Repr

def Call.actions : Call → List Action
  | fromPortraitToLandscape =>
      [.mIsHandlingLandscape true, .mIsHandlingPortrait false, .mIsKeyFrameWriteLandscape false,
        .sendData, .lock false, .signal false, .unlock false]
  | fromLandscapeToPortrait =>
      [.mIsHandlingPortrait true, .mIsHandlingLandscape false, .mIsKeyFrameWritePortrait false,
        .sendData, .lock true, .signal true, .unlock true]
  | stopRecordScreen =>
      [.mIsRecording false, .lock true, .signal true, .unlock true, .lock false, .signal false,
        .unlock false] ++ releaseAll

/-- How far a `VideoDataEncodePortraitRunnable` or `VideoDataEncodeLandscapeRunnable` is. -/
inductive Encoder where
  /-- `while (mIsRecording)` is next. -/
  | looping
  | testing
  | locking
  /-- The thread has the lock and calls `await()` next. -/
  | awaiting
  /-- Blocked in `await()`. -/
  | waiting
  /-- Woken up, and in need of the lock. -/
  | woken
  | unlocking
  /-- In `feedInputBufferAndDrainOutputBuffer`. -/
  | feeding
  /-- A `sendData` in there has failed. -/
  | releasing (todo : List Action)
  | ended
  deriving DecidableEq, Repr

inductive Holder where
  | caller
  | encoder
  deriving DecidableEq, Repr

/-- The fields, the locks, the encoder threads, and what is left to do of the call under way. -/
structure State where
  fields : Fields
  lock : Bool → Option Holder
  encoder : Bool → Encoder
  todo : List Action

/-- What `startRecordScreen` leaves. -/
def State.initial (isPortrait : Bool) : State where
  fields := ⟨true, isPortrait, !isPortrait, false, false⟩
  lock := fun _ => none
  encoder := fun _ => .looping
  todo := []

/-- How feeding goes on. -/
inductive Feeding where
  | sendDataFails
  | returns (result : Bool)
  deriving DecidableEq, Repr

/-- Who moves next. -/
inductive Input where
  | call (c : Call)
  /-- The next step of the call; `written` is whether `sendData` succeeds. -/
  | caller (written : Bool)
  /-- An encoder thread. -/
  | encoder (isPortrait : Bool) (feeding : Feeding)
  /-- `await()` returns without a signal. -/
  | wake (isPortrait : Bool)
  deriving DecidableEq, Repr

def State.setEncoder (s : State) (o : Bool) (encoder : Encoder) : State :=
  { s with encoder := Function.update s.encoder o encoder }

def State.setLock (s : State) (o : Bool) (holder : Option Holder) : State :=
  { s with lock := Function.update s.lock o holder }

/-- `conditionPortrait.signal()` or `conditionLandscape.signal()`. -/
def State.signal (s : State) (o : Bool) : State :=
  if s.encoder o = .waiting then s.setEncoder o .woken else s

/-- The next step of a call. -/
def caller (s : State) (written : Bool) : State :=
  match s.todo with
  | [] => s
  | .sendData :: todo =>
      -- a failure ends in `stopRecordScreenForJni`
      if s.fields.mIsRecording ∧ written = false then { s with todo := releaseAll ++ todo }
      else { s with todo }
  | .lock o :: todo => if s.lock o = none then { s.setLock o (some .caller) with todo } else s
  | .signal o :: todo => { s.signal o with todo }
  | .unlock o :: todo => { s.setLock o none with todo }
  | action :: todo => { s with fields := action.write s.fields, todo }

/-- The next step of an encoder thread. -/
def encode (s : State) (o : Bool) (feeding : Feeding) : State :=
  match s.encoder o with
  | .looping => s.setEncoder o (if s.fields.mIsRecording then .testing else .ended)
  | .testing => s.setEncoder o (if s.fields.mIsHandling o then .feeding else .locking)
  | .locking =>
      if s.lock o = none then (s.setLock o (some .encoder)).setEncoder o .awaiting else s
  | .awaiting => (s.setLock o none).setEncoder o .waiting
  | .waiting => s
  | .woken =>
      if s.lock o = none then (s.setLock o (some .encoder)).setEncoder o .unlocking else s
  | .unlocking => (s.setLock o none).setEncoder o .feeding
  | .feeding =>
      match feeding with
      | .sendDataFails =>
          if s.fields.mIsRecording then s.setEncoder o (.releasing releaseAll) else s
      | .returns result => s.setEncoder o (if result then .looping else .ended)
  | .releasing [] => s.setEncoder o .feeding
  | .releasing (action :: todo) =>
      { s.setEncoder o (.releasing todo) with fields := action.write s.fields }
  | .ended => s

/-- A step. A thread that has to wait stays; the calls come one after the other. The monitor
that `sendData` and `stopRecordScreen` hold is left out, which only allows more orders. -/
def next (s : State) : Input → State
  | .call c => if s.todo = [] then { s with todo := c.actions } else s
  | .caller written => caller s written
  | .encoder o feeding => encode s o feeding
  | .wake o => s.signal o

def step : Machine.Step State Input Empty JavaException := fun s i => .ok (next s i, [])

end MirrorCast.MediaClientService
