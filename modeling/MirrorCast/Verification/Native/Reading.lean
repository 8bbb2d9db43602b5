import MirrorCast.Program.Native.Receiving

/-! # What the receive thread reads depends on the bytes sent, not on how they arrive -/

namespace MirrorCast.Native.Receiving

open C Java Chunked Native.MediaServer

/-- What a client sends: the bytes that arrive between one failed read and the next. -/
abbrev Sent := ℕ → List UInt8

/-- `want` bytes are taken, or the reads end in a failure. -/
def take (want : ℤ) (sent : Sent) : Option (List UInt8) × Sent :=
  if want ≤ (sent 0).length then
    (some ((sent 0).take want.toNat), Function.update sent 0 ((sent 0).drop want.toNat))
  else (none, fun k => sent (k + 1))

/-- A buffer has room for what arrives of the `want` bytes. -/
def FitsIn (capacity : ℕ) (want : ℤ) (sent : Sent) : Prop :=
  want ≤ capacity ∨ (sent 0).length ≤ capacity

/-- The bytes already read, and those still sent. -/
def prepend (data : List UInt8) (sent : Sent) : Sent :=
  Function.update sent 0 (data ++ sent 0)

/-- A part of the thread stays in its buffers exactly if `safe` holds, and then it ends with a
result that `Q` holds of and leaves `sent` to be read. -/
def Serves {α : Type} (x : Except Undefined (α × Stream UInt8)) (safe : Prop) (Q : α → Prop)
    (sent : Sent) : Prop :=
  Stays x safe fun r => Q r.1 ∧ runs r.2 = sent

/-! ## One array -/

/-- The length that comes next, unless the reads end in a failure. -/
def announced (sent : Sent) : Option ℤ := (take 4 sent).1.map uint8tToInt

/-- The length and the array, unless the reads end in a failure. -/
def array (sent : Sent) : Option (ℤ × List UInt8) × Sent :=
  match announced sent, (take 4 sent).2 with
  | none, sent => (none, sent)
  | some want, sent => ((take want sent).1.map (want, ·), (take want sent).2)

/-- A buffer has room for what arrives of the array. -/
def ArrayFits (capacity : ℕ) (sent : Sent) : Prop :=
  ∀ want, announced sent = some want → FitsIn capacity want (take 4 sent).2

section

variable {sent : Sent} {want : ℤ} {capacity : ℕ}

end

end MirrorCast.Native.Receiving
