import MirrorCast.Library.C
import MirrorCast.Program.SpsPps

/-! # `MediaCodec.cpp` -/

namespace MirrorCast.Native.MediaCodec

open C

def int2Bytes (frame : List UInt8) (length : ℤ) : List UInt8 :=
  (((frame.set 0 (Java.toByte length)).set 1 (Java.toByte (length / 2 ^ 8))).set 2
    (Java.toByte (length / 2 ^ 16))).set 3 (Java.toByte (length / 2 ^ 24))

/-! ## Sending -/

/-- An output buffer of an encoder. -/
structure Room where
  room : List UInt8
  flags : UInt32
  isPortrait : Bool
  deriving DecidableEq, Repr

namespace Room

/-- `"1"` is portrait, `"2"` landscape. -/
def orientation (r : Room) : UInt8 := if r.isPortrait then 1 else 2

/-- The `frame` that `handleOutputBufferImpl` builds. -/
def frame (r : Room) : List UInt8 :=
  let size := r.room.length
  let frame := List.replicate (size + 6) 0
  let frame := int2Bytes frame (size + 2)
  let frame := Java.blit frame 4 r.room
  let frame := frame.set (size + 5) r.flags.toUInt8
  frame.set (size + 4) r.orientation

end Room

/-- `isKeyFrameWrite1` and `isKeyFrameWrite2`. -/
structure KeyFrameWrite where
  portrait : Bool
  landscape : Bool
  deriving DecidableEq, Repr

/-- `handleOutputBufferImpl(room, roomInfo, isPortrait)`: the flags it leaves, and what it passes
to `sendData`. -/
def handleOutputBufferImpl (isKeyFrameWrite : KeyFrameWrite) (r : Room) :
    KeyFrameWrite × Option (List UInt8) :=
  if r.isPortrait then
    if isKeyFrameWrite.portrait = false then
      if r.flags &&& 1 ≠ 0 then ({ isKeyFrameWrite with portrait := true }, some r.frame)
      else (isKeyFrameWrite, none)
    else (isKeyFrameWrite, some r.frame)
  else
    if isKeyFrameWrite.landscape = false then
      if r.flags &&& 1 ≠ 0 then ({ isKeyFrameWrite with landscape := true }, some r.frame)
      else (isKeyFrameWrite, none)
    else (isKeyFrameWrite, some r.frame)

def ORIENTATION_PORTRAIT : List UInt8 := (int2Bytes (List.replicate 5 0) 1).set 4 255

def ORIENTATION_LANDSCAPE : List UInt8 := (int2Bytes (List.replicate 5 0) 1).set 4 254

/-- What can make the sender write while it is recording. -/
inductive Output where
  | handleOutputBufferImpl (r : Room)
  | fromPortraitToLandscape
  | fromLandscapeToPortrait
  deriving DecidableEq, Repr

/-- The arrays passed to `sendData`, in order. -/
def sent : KeyFrameWrite → List Output → List (List UInt8)
  | _, [] => []
  | s, .handleOutputBufferImpl r :: outputs =>
      (handleOutputBufferImpl s r).2.toList ++ sent (handleOutputBufferImpl s r).1 outputs
  | s, .fromPortraitToLandscape :: outputs =>
      ORIENTATION_LANDSCAPE :: sent { s with landscape := false } outputs
  | s, .fromLandscapeToPortrait :: outputs =>
      ORIENTATION_PORTRAIT :: sent { s with portrait := false } outputs

/-! ## Configuring -/

/-- `handleSpsPps(pFormat, sps_pps, size)` on a buffer of `size` bytes. -/
def handleSpsPps (sps_pps : List UInt8) : Except Undefined Configured := do
  match ← SpsPps.startCode .outOfBounds sps_pps with
  | some (mark, index) =>
      let sps_size := index
      let pps_size := sps_pps.length - index
      let sps ← memcpy (List.replicate sps_size 0) 0 sps_pps 0 sps_size
      let pps ← memcpy (List.replicate pps_size 0) 0 sps_pps index pps_size
      return ⟨mark, some (sps.take sps_size, pps.take pps_size)⟩
  | none =>
      let (mark, found) ← SpsPps.lengths .outOfBounds (fun b => b.toNat) sps_pps
      match found.spsIndex, found.ppsIndex with
      | some spsIndex, some ppsIndex =>
          let spsLength := found.spsLength.toNat
          let ppsLength := found.ppsLength.toNat
          let sps_size := spsLength
          let pps_size := ppsLength
          let sps := Java.blit (List.replicate (spsLength + 4) 0) 0 [0, 0, 0, 1]
          let pps := Java.blit (List.replicate (ppsLength + 4) 0) 0 [0, 0, 0, 1]
          let sps ← memcpy sps 4 sps_pps spsIndex spsLength
          let pps ← memcpy pps 4 sps_pps ppsIndex ppsLength
          -- the sizes leave out the start codes
          return ⟨mark, some (sps.take sps_size, pps.take pps_size)⟩
      | _, _ => return ⟨.MARK0, none⟩

end MirrorCast.Native.MediaCodec
