import Mathlib.Data.List.TakeWhile
import MirrorCast.Verification.Native.Reading

/-! # What the receive thread does with the client info -/

namespace MirrorCast.Native.Receiving

open C Java Chunked Native.MediaServer

variable {valueString : List UInt8 → Option (List UInt8)} {client : Client}

/-! ## Fields -/

/-- The string in the buffer of 1024 bytes that the info was read into. -/
def infoText (info : List UInt8) : List UInt8 := info.takeWhile (· ≠ 0)

/-- The pieces that are counted. -/
def infoFields (info : List UInt8) : List (List UInt8) :=
  (strsep 64 (infoText info)).filter (· ≠ [])

/-- The info leaves a zero in its buffer. -/
def Terminated (info : List UInt8) : Prop := info.length < 1024 ∨ 0 ∈ info

/-- What the thread does with the info stays in memory: the info ends and, for the native decoder,
names no mime. -/
def InfoFits (goJni : Bool) (info : List UInt8) : Prop :=
  Terminated info ∧ (goJni = true → (infoFields info).length ≤ 1)

end MirrorCast.Native.Receiving
