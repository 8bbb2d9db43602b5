import MirrorCast.Program.Native.MediaData

/-! # `MediaCodec.cpp` and `MediaData.cpp`: from `getData` to the codec -/

namespace MirrorCast.Native.Decoding

open C

/-! ## The buffers of the codec -/

/-- What `AMediaCodec_dequeueInputBuffer` and `AMediaCodec_getInputBuffer` return. -/
inductive InputRoom where
  /-- A negative index. -/
  | tryAgain
  | nullptr
  | room (capacity : ℕ)
  deriving DecidableEq, Repr

/-- One round of the loop in `drainOutputBuffer`: `isPlaying1` or `isPlaying2` is false, or what
`AMediaCodec_dequeueOutputBuffer` and `AMediaCodec_getOutputBuffer` return. -/
inductive OutputRoom where
  | stopped
  /-- A negative index. -/
  | noIndex
  | nullptr
  | room
  deriving DecidableEq, Repr

/-- What it returns, and the buffer that is queued to the codec, if any. -/
def feedInputBuffer (answer : InputRoom) (data : List UInt8) (size : ℕ) :
    Except Undefined (Bool × Option (List UInt8)) :=
  match answer with
  | .tryAgain => .ok (true, none)
  | .nullptr => .ok (false, none)
  | .room capacity => do
      let room ← memcpy (List.replicate capacity 0) 0 data 0 size
      return (true, some (room.take size))

/-- The rounds up to the one that ends the loop. -/
def drainOutputBuffer : List OutputRoom → Bool
  | [] => true
  | .stopped :: _ => true
  | .noIndex :: _ => true
  | .nullptr :: _ => false
  | .room :: rounds => drainOutputBuffer rounds

/-- The answers of the codec to one call of `feedInputBufferAndDrainOutputBuffer`. -/
structure Answers where
  input : InputRoom
  outputs : List OutputRoom
  deriving DecidableEq, Repr

def feedInputBufferAndDrainOutputBuffer (answers : Answers) (data : List UInt8) (size : ℕ) :
    Except Undefined (Bool × Option (List UInt8)) := do
  let (fed, queued) ← feedInputBuffer answers.input data size
  return (fed && drainOutputBuffer answers.outputs, queued)

/-! ## The decode thread -/

/-- What one round of the loop in `startDecoder` meets: the frame that `getData` returns, if it is
not null, the values of `isCurPortrait` at the reads of it, and the answers of the codec. -/
structure Round where
  getData : Option Data
  /-- when the frame is tested -/
  tested : Bool
  /-- when it is compared with `isPrePortrait` -/
  compared : Bool
  /-- when the SPS and PPS are chosen -/
  chosen : Bool
  /-- when it is assigned to `isPrePortrait` -/
  remembered : Bool
  configuring : Answers
  feeding : Answers
  deriving DecidableEq, Repr

/-- The frame is for the other orientation. -/
def passes (orientation : UInt8) (isCurPortrait : Bool) : Prop :=
  orientation = 1 ∧ isCurPortrait = false ∨ orientation = 2 ∧ isCurPortrait = true

instance (orientation : UInt8) (isCurPortrait : Bool) :
    Decidable (passes orientation isCurPortrait) := inferInstanceAs (Decidable (_ ∨ _))

/-- What a buffer is filled from. -/
inductive Source where
  | spsPps (isPortrait : Bool)
  | frame (data : Data)
  deriving DecidableEq, Repr

/-- A buffer that is queued to the codec. -/
structure Buffer where
  source : Source
  bytes : List UInt8
  deriving DecidableEq, Repr

/-- The loop of `startDecoder` over the rounds in which `isPlaying` is true: whether it ends with
an error, and the buffers queued to the codec. -/
def startDecoder (sps_pps_frame : Bool → List UInt8) (isPrePortrait : Bool) :
    List Round → Except Undefined (Bool × List Buffer)
  | [] => .ok (false, [])
  | round :: rounds =>
      match round.getData with
      | none => .ok (false, [])
      | some data => do
          let orientation ← data.orientation
          if passes orientation round.tested then startDecoder sps_pps_frame isPrePortrait rounds
          else do
            let changed := isPrePortrait ≠ round.compared
            -- what feeding the SPS and PPS returns is not looked at
            let configured ←
              if changed then do
                let frame := sps_pps_frame round.chosen
                let (_, queued) ←
                  feedInputBufferAndDrainOutputBuffer round.configuring frame frame.length
                pure (queued.map (Buffer.mk (.spsPps round.chosen)))
              else pure none
            let isPrePortrait := if changed then round.remembered else isPrePortrait
            let (ret, queued) ←
              feedInputBufferAndDrainOutputBuffer round.feeding data.data (data.data.length - 2)
            let queued := queued.map (Buffer.mk (.frame data))
            if ret = false then return (true, configured.toList ++ queued.toList)
            else do
              let (hasError, rest) ← startDecoder sps_pps_frame isPrePortrait rounds
              return (hasError, configured.toList ++ queued.toList ++ rest)

end MirrorCast.Native.Decoding
