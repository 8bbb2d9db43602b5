import MirrorCast.Library.Java

/-! # `AvcUtils`: finding NAL units between start codes -/

namespace MirrorCast.AvcUtils

/-- The first loop of `getNextNALUnit`: the offset of the first start code. -/
def findStartCode (offset : ℕ) : List UInt8 → Option ℕ
  | a :: b :: c :: rest =>
      if c = 1 ∧ a = 0 ∧ b = 0 then some offset
      else findStartCode (offset + 1) (b :: c :: rest)
  | _ => none

/-- The second loop: the offset of the `0x01` that ends the next start code, where
`before2` and `before1` are the bytes in front of the data. -/
def nextStartCode (before2 before1 : UInt8) (offset : ℕ) : List UInt8 → Option ℕ
  | [] => none
  | b :: rest =>
      if b = 1 ∧ before1 = 0 ∧ before2 = 0 then some offset
      else nextStartCode before1 b (offset + 1) rest

/-- The third loop: `endOffset` after the zeros in front of it are cut off. -/
def trimZeros (startOffset : ℕ) (data : List UInt8) : ℕ → ℕ
  | 0 => 0
  | endOffset + 1 =>
      if startOffset + 1 < endOffset + 1 ∧ data.getD endOffset 0 = 0 then
        trimZeros startOffset data endOffset
      else endOffset + 1

/-- The NAL unit found and the data left, or, for `-EAGAIN`, the data left. -/
def getNextNALUnit (data : List UInt8) (startCodeFollows : Bool) :
    Except (List UInt8) (List UInt8 × List UInt8) :=
  let size := data.length
  if size < 3 then
    .error data
  else
    match findStartCode 0 data with
    | none => .error (data.drop (size - 2))
    | some offset =>
        let startOffset := offset + 3
        let offset := nextStartCode (data.getD (startOffset - 2) 0) (data.getD (startOffset - 1) 0)
          startOffset (data.drop startOffset)
        match offset, startCodeFollows with
        | none, false => .error data
        | offset, _ =>
            let offset := offset.getD (size + 2)
            let endOffset := trimZeros startOffset data (offset - 2)
            let nal := (data.drop startOffset).take (endOffset - startOffset)
            .ok (nal, if offset + 2 < size then data.drop (offset - 2) else [])

theorem le_of_nextStartCode {before2 before1 : UInt8} {offset found : ℕ} {data : List UInt8}
    (h : nextStartCode before2 before1 offset data = some found) : offset ≤ found := by
  induction data generalizing before2 before1 offset with
  | nil => cases h
  | cons b rest ih =>
      rw [nextStartCode] at h
      split at h
      · cases h
        exact le_rfl
      · exact Nat.le_of_succ_le (ih h)

/-- The data left after a NAL unit is shorter, so `while (getNextNALUnit(…) == OK)` ends. -/
theorem length_getNextNALUnit {data nal rest : List UInt8} {startCodeFollows : Bool}
    (h : getNextNALUnit data startCodeFollows = .ok (nal, rest)) : rest.length < data.length := by
  unfold getNextNALUnit at h
  dsimp only at h
  split at h
  · cases h
  rename_i hsize
  split at h
  · cases h
  rename_i offset _
  split at h
  · cases h
  cases h
  rename_i next _
  split
  · rename_i hmore
    cases hnext : nextStartCode (data.getD (offset + 3 - 2) 0) (data.getD (offset + 3 - 1) 0)
        (offset + 3) (data.drop (offset + 3)) with
    | none =>
        rw [hnext, Option.getD_none] at hmore
        omega
    | some found =>
        have hle := le_of_nextStartCode hnext
        rw [Option.getD_some, List.length_drop]
        omega
  · rw [List.length_nil]
    omega

/-- The NAL units over which `while (getNextNALUnit(…, true) == OK)` runs. -/
def nalUnits (data : List UInt8) : List (List UInt8) :=
  match _h : getNextNALUnit data true with
  | .error _ => []
  | .ok (nal, rest) => nal :: nalUnits rest
termination_by data.length
decreasing_by exact length_getNextNALUnit _h

/-- `isIDR`, where `isIDRFlag` is the flag `IS_IDR` in the buffer's metadata. -/
def isIDR (isIDRFlag : Bool) (data : List UInt8) : Bool :=
  isIDRFlag || (nalUnits data).any fun nal =>
    decide (nal ≠ []) && decide (nal.getD 0 0 &&& 0x1f = 5)

end MirrorCast.AvcUtils
