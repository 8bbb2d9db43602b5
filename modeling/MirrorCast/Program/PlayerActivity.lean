import MirrorCast.Program.SpsPps

/-! # `PlayerActivity`: the decode thread -/

namespace MirrorCast.PlayerActivity

open Java

/-- The array the loop of `VideoDataDecodeRunnable` hands to the decoder for one array out
of the queue, if any: frames of the other orientation are passed over, and the decoder gets
all bytes but the last two. -/
def feed (isPortrait : Bool) (frame : List UInt8) : Except JavaException (Option (List UInt8)) :=
  if frame.length < 2 then .error .arrayIndexOutOfBounds
  else
    let mark := frame.getD (frame.length - 2) 0
    if mark = 1 ∧ ¬ isPortrait then .ok none
    else if mark = 2 ∧ isPortrait then .ok none
    else .ok (some (frame.take (frame.length - 2)))

/-! ## Configuration -/

/-- The value of a Java `byte`. -/
def byteValue (b : UInt8) : ℤ := if b.toNat < 128 then b.toNat else b.toNat - 256

/-- The body of `handleSpsPps`, up to the exception that its `catch` clause takes. -/
def trySpsPps (sps_pps : List UInt8) : Except JavaException Configured := do
  match ← SpsPps.startCode .arrayIndexOutOfBounds sps_pps with
  | some (mark, index) =>
      let sps ← newArray index
      let pps ← newArray (sps_pps.length - index)
      let sps ← arraycopy sps_pps 0 sps 0 sps.length
      let pps ← arraycopy sps_pps index pps 0 pps.length
      return ⟨mark, some (sps, pps)⟩
  | none =>
      let (mark, found) ← SpsPps.lengths .arrayIndexOutOfBounds byteValue sps_pps
      match found.spsIndex, found.ppsIndex with
      | some spsIndex, some ppsIndex =>
          let sps ← newArray (found.spsLength + 4)
          let pps ← newArray (found.ppsLength + 4)
          -- the four stores into each array
          let sps ← arraycopy [0, 0, 0, 1] 0 sps 0 4
          let pps ← arraycopy [0, 0, 0, 1] 0 pps 0 4
          let sps ← arraycopy sps_pps spsIndex sps 4 found.spsLength
          let pps ← arraycopy sps_pps ppsIndex pps 4 found.ppsLength
          return ⟨mark, some (sps, pps)⟩
      | _, _ => return ⟨.MARK0, none⟩

def handleSpsPps (sps_pps : List UInt8) : Configured :=
  match trySpsPps sps_pps with
  | .ok configured => configured
  | .error _ => ⟨.MARK0, none⟩

end MirrorCast.PlayerActivity
