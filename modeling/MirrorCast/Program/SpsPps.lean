import MirrorCast.Library.Scanning

/-! # What the two `handleSpsPps` look for in the configuration of a video

Both read the same bytes in the same order; they differ in what an access out of range means
and in the value of a byte. -/

namespace MirrorCast

/-- How the parameter sets were found. -/
inductive Mark where
  | MARK0
  /-- `0 0 0 1 … 0 0 0 1 …` -/
  | MARK1
  /-- `0 0 1 … 0 0 1 …` -/
  | MARK2
  /-- `… 103 … 104 …` -/
  | MARK3
  /-- `… 39 … 40 …` -/
  | MARK4
  deriving DecidableEq, Repr

/-- The value returned and the bytes given to the format as `csd-0` and `csd-1`. -/
structure Configured where
  mark : Mark
  csd : Option (List UInt8 × List UInt8)
  deriving DecidableEq, Repr

namespace SpsPps

open Scanning

variable {ε : Type*}

/-- The second start code and what it is marked as, if the data begin with the first. -/
def startCode (oob : ε) (sps_pps : List UInt8) : Except ε (Option (Mark × ℕ)) := do
  if ← startsAt oob sps_pps 0 [0, 0, 0, 1] then
    let index ← findFrom oob sps_pps [0, 0, 0, 1] (sps_pps.length - 1) 1
    return index.map (.MARK1, ·)
  else if ← startsAt oob sps_pps 0 [0, 0, 1] then
    let index ← findFrom oob sps_pps [0, 0, 1] (sps_pps.length - 1) 1
    return index.map (.MARK2, ·)
  else return none

/-- Where the parameter sets begin, and the lengths in front of them. -/
structure Found where
  spsIndex : Option ℕ
  spsLength : ℤ
  ppsIndex : Option ℕ
  ppsLength : ℤ
  deriving DecidableEq, Repr

def Found.none : Found := ⟨.none, 0, .none, 0⟩

/-- One round of the loop over the bytes: the first `spsType` with a positive length counts, and
the last `ppsType`. -/
def note (oob : ε) (value : UInt8 → ℤ) (spsType ppsType : UInt8) (sps_pps : List UInt8) (i : ℕ)
    (found : Found) : Except ε Found := do
  let b ← read oob sps_pps i
  if b = spsType then
    if found.spsIndex = .none then
      let before ← read oob sps_pps (i - 1)
      let spsLength := value before
      return { found with spsIndex := if spsLength ≤ 0 then .none else some i, spsLength }
    else return found
  else if b = ppsType then
    let before ← read oob sps_pps (i - 1)
    return { found with ppsIndex := some i, ppsLength := value before }
  else return found

/-- The loop over the `n` bytes from `i` on. -/
def scan (oob : ε) (value : UInt8 → ℤ) (spsType ppsType : UInt8) (sps_pps : List UInt8) :
    ℕ → ℕ → Found → Except ε Found
  | 0, _, found => .ok found
  | n + 1, i, found => do
      let found ← note oob value spsType ppsType sps_pps i found
      scan oob value spsType ppsType sps_pps n (i + 1) found

/-- The search without start codes, for one pair of types and then for another. -/
def lengths (oob : ε) (value : UInt8 → ℤ) (sps_pps : List UInt8) : Except ε (Mark × Found) := do
  let found ← scan oob value 103 104 sps_pps sps_pps.length 0 .none
  if found.spsIndex = .none ∨ found.ppsIndex = .none then
    let found ← scan oob value 39 40 sps_pps sps_pps.length 0 .none
    return (.MARK4, found)
  else return (.MARK3, found)

end SpsPps

end MirrorCast
