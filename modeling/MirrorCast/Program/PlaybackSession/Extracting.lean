import MirrorCast.Library.Java
import MirrorCast.Library.Machine

/-! # `PlaybackSession`: playing from a media extractor -/

namespace MirrorCast.PlaybackSession

open Java

/-- A track of a session; the tracks of an extractor have no `mMediaPuller`. -/
structure PulledTrack where
  mMediaPuller : Bool
  deriving DecidableEq, Repr

/-- A `WHAT_PULL_EXTRACTOR_SAMPLE` message that was posted. -/
structure PullMessage where
  GENERATION : ℤ
  delayMillis : ℤ
  deriving DecidableEq, Repr

/-- A `WHAT_CONVERTER_NOTIFY` message with an access unit of the extractor. -/
structure AccessUnitMessage where
  TRACK_INDEX : ℤ
  TIME_US : ℤ
  deriving DecidableEq, Repr

/-- The fields of a session whose `mExtractor` is set that the handlers below use, the messages
it posted to itself, and the exception that ended its thread. -/
structure ExtractorSession where
  mPaused : Bool
  mTracks : List PulledTrack
  mExtractorTrackToInternalTrack : List (ℤ × ℤ)
  mPullExtractorPending : Bool
  mPullExtractorGeneration : ℤ
  mFirstSampleTimeRealUs : ℤ
  mFirstSampleTimeUs : ℤ
  pullMessages : List PullMessage
  accessUnitMessages : List AccessUnitMessage
  exception : Option JavaException
  deriving DecidableEq, Repr

/-- A session after `init`. -/
def ExtractorSession.new (mTracks : List PulledTrack)
    (mExtractorTrackToInternalTrack : List (ℤ × ℤ)) : ExtractorSession where
  mPaused := false
  mTracks := mTracks
  mExtractorTrackToInternalTrack := mExtractorTrackToInternalTrack
  mPullExtractorPending := false
  mPullExtractorGeneration := 0
  mFirstSampleTimeRealUs := -1
  mFirstSampleTimeUs := -1
  pullMessages := []
  accessUnitMessages := []
  exception := none

/-- What `mExtractor` answers while a sample is pulled; `nextTimeUs` after `advance`. -/
structure Sample where
  readSampleData : Except JavaException ℤ
  getSampleTime : ℤ
  getSampleTrackIndex : ℤ
  nextTimeUs : ℤ

/-- The messages that come up. A message of another kind touches the tracks only. -/
inductive ExtractorEvent where
  | WHAT_PAUSE
  | WHAT_RESUME (sampleTimeUs nowUs : ℤ)
  /-- The `i`-th pull message that is outstanding. -/
  | WHAT_PULL_EXTRACTOR_SAMPLE (i : ℕ) (sample : Sample) (nowUs : ℤ)
  | other (mTracks : List PulledTrack)

namespace ExtractorSession

def throw (s : ExtractorSession) (e : JavaException) : ExtractorSession :=
  { s with exception := some e }

/-- The first sample that has a time is due now. -/
def setFirstSampleTime (s : ExtractorSession) (sampleTimeUs nowUs : ℤ) : ExtractorSession :=
  if s.mFirstSampleTimeRealUs < 0 then
    { s with mFirstSampleTimeRealUs := nowUs, mFirstSampleTimeUs := sampleTimeUs }
  else s

/-- `msg.post(delayUs)`, which takes the delay for one in milliseconds. -/
def postPull (s : ExtractorSession) (delayUs : ℤ) : ExtractorSession :=
  { s with
    pullMessages := s.pullMessages ++ [⟨s.mPullExtractorGeneration, delayUs⟩]
    mPullExtractorPending := true }

def schedulePullExtractor (s : ExtractorSession) (sampleTimeUs nowUs : ℤ) : ExtractorSession :=
  if s.mPullExtractorPending then s
  else if sampleTimeUs ≠ -1 then
    let s := s.setFirstSampleTime sampleTimeUs nowUs
    let whenUs := int64 (sampleTimeUs - s.mFirstSampleTimeUs + s.mFirstSampleTimeRealUs)
    s.postPull (int64 (whenUs - nowUs))
  else s.postPull 1000000

/-- `SparseIntArray.get`. -/
def internalTrack (s : ExtractorSession) (trackIndex : ℤ) : ℤ :=
  ((s.mExtractorTrackToInternalTrack.find? fun e => e.1 = trackIndex).map Prod.snd).getD 0

def onPullExtractor (s : ExtractorSession) (sample : Sample) (nowUs : ℤ) : ExtractorSession :=
  match sample.readSampleData with
  | .error e => s.throw e
  | .ok size =>
      if size = -1 then s
      else if sample.getSampleTime = -1 then s.throw .runtime
      else
        let timeUs := int64 (s.mFirstSampleTimeRealUs + sample.getSampleTime -
          s.mFirstSampleTimeUs)
        if sample.getSampleTrackIndex = -1 then s.throw .runtime
        else
          let msg := ⟨s.internalTrack sample.getSampleTrackIndex, timeUs⟩
          { s with accessUnitMessages := s.accessUnitMessages ++ [msg] }.schedulePullExtractor
            sample.nextTimeUs nowUs

/-- The tracks are paused one after the other. -/
def onPause (s : ExtractorSession) : ExtractorSession :=
  let s := { s with
    mPullExtractorGeneration := int32 (s.mPullExtractorGeneration + 1)
    mFirstSampleTimeRealUs := -1
    mFirstSampleTimeUs := -1 }
  if s.mPaused then s
  else if s.mTracks.all PulledTrack.mMediaPuller then { s with mPaused := true }
  else s.throw .nullPointer

def onResume (s : ExtractorSession) (sampleTimeUs nowUs : ℤ) : ExtractorSession :=
  let s := s.schedulePullExtractor sampleTimeUs nowUs
  if ¬ s.mPaused then s
  else if s.mTracks.all PulledTrack.mMediaPuller then { s with mPaused := false }
  else s.throw .nullPointer

def onPull (s : ExtractorSession) (generation : ℤ) (sample : Sample) (nowUs : ℤ) :
    ExtractorSession :=
  if generation ≠ s.mPullExtractorGeneration then s
  else { s with mPullExtractorPending := false }.onPullExtractor sample nowUs

/-- `onMessageReceived`. -/
def onMessageReceived (s : ExtractorSession) : ExtractorEvent → ExtractorSession
  | .WHAT_PAUSE => s.onPause
  | .WHAT_RESUME sampleTimeUs nowUs => s.onResume sampleTimeUs nowUs
  | .WHAT_PULL_EXTRACTOR_SAMPLE i sample nowUs =>
      match s.pullMessages[i]? with
      | none => s
      | some msg =>
          { s with pullMessages := s.pullMessages.eraseIdx i }.onPull msg.GENERATION sample nowUs
  | .other mTracks => { s with mTracks := mTracks }

/-- Nothing is handled after an exception. -/
def step : Machine.Step ExtractorSession ExtractorEvent Unit JavaException := fun s event =>
  .ok (if s.exception.isSome then s else s.onMessageReceived event, [])

end ExtractorSession

end MirrorCast.PlaybackSession
