import MirrorCast.Program.ABitReader

/-! # `AvcUtils`: parsing Exp-Golomb codes -/

namespace MirrorCast.AvcUtils

open Java BitReader

variable {R : Type} [BitReader R]

/-- Bits that were read are gone. -/
theorem readBits_budget (n : ℕ) (result : BitVec 32) (r : R) {x : BitVec 32}
    (h : (readBits n result r).1 = some x) : budget (readBits n result r).2 + n ≤ budget r := by
  fun_induction readBits n result r with
  | case1 result r => exact Nat.le_refl _
  | case2 n result r hn r' hfill => cases h
  | case3 n result r hn r' hfill m =>
      rename_i ih
      have hrest := ih h
      have hrefill := (refill_budget r (congrArg Prod.fst hfill)).1
      rw [hfill] at hrefill
      have hm : m = min n (toABitReader r').mNumBitsLeft := rfl
      have hconsume : budget (consume r' m) + m = budget r' := by
        simp only [budget, toABitReader_consume, ABitReader.budget, ABitReader.mSize_consume,
          ABitReader.mNumBitsLeft_consume]
        omega
      dsimp only at hrefill
      omega

theorem getBitsGraceful_one_budget {r r' : R} {x : BitVec 32}
    (h : getBitsGraceful 1 r = (some x, r')) : budget r' < budget r := by
  have hread : readBits 1 0 r = (some x, r') := h
  have hbudget := readBits_budget 1 0 r (congrArg Prod.fst hread)
  rw [hread] at hbudget
  exact hbudget

/-- `1 << n`, by the low five bits of `n`. -/
def oneShifted (n : ℤ) : BitVec 32 := 1#32 <<< (n % 32).toNat

/-- `((codeNum & 1) != 0) ? (codeNum + 1) / 2 : -(codeNum / 2)`. -/
def signedOf (codeNum : BitVec 32) : BitVec 32 :=
  if codeNum &&& 1 ≠ 0 then (codeNum + 1).sdiv 2 else -(codeNum.sdiv 2)

/-- `parseUE` begins by calling itself; `none` when the stack has no frame left for a call. -/
def parseUE : (frames : ℕ) → (br : R) → Option (Except JavaException (BitVec 32) × R)
  | 0, _ => none
  | frames + 1, br =>
      match parseUE frames br with
      | none => none
      | some (.error e, br) => some (.error e, br)
      | some (.ok codeNum, br) => some (.ok (signedOf codeNum), br)

/-- `while (br.getBits(1) == 0) ++numZeroes;` -/
def countZeroes (numZeroes : ℤ) (br : R) : Except JavaException ℤ × R :=
  match _h : getBits 1 br with
  | (.error e, br') => (.error e, br')
  | (.ok bit, br') =>
      if bit = 0 then countZeroes (int32 (numZeroes + 1)) br' else (.ok numZeroes, br')
termination_by budget br
decreasing_by
  unfold getBits at _h
  split at _h
  · rename_i hbits
    cases _h
    exact getBitsGraceful_one_budget hbits
  · cases _h

theorem countZeroes_of_ok {k : ℤ} {br br' : R} {bit : BitVec 32}
    (h : getBits 1 br = (.ok bit, br')) :
    countZeroes k br = if bit = 0 then countZeroes (int32 (k + 1)) br' else (.ok k, br') := by
  rw [countZeroes]
  split
  · rename_i hread
    rw [h] at hread
    cases hread
  · rename_i hread
    rw [h] at hread
    cases hread
    rfl

theorem countZeroes_of_error {k : ℤ} {br br' : R} {e : JavaException}
    (h : getBits 1 br = (.error e, br')) : countZeroes k br = (.error e, br') := by
  rw [countZeroes]
  split
  · rename_i hread
    rw [h] at hread
    cases hread
    rfl
  · rename_i hread
    rw [h] at hread
    cases hread

def parseSE (br : R) : Except JavaException (BitVec 32) × R :=
  match countZeroes 0 br with
  | (.error e, br) => (.error e, br)
  | (.ok numZeroes, br) =>
      match getBits numZeroes br with
      | (.error e, br) => (.error e, br)
      | (.ok x, br) => (.ok (x + oneShifted numZeroes - 1), br)

theorem parseSE_of_ok {br br' br'' : R} {numZeroes : ℤ} {x : BitVec 32}
    (hcount : countZeroes 0 br = (.ok numZeroes, br'))
    (hget : getBitsGraceful numZeroes br' = (some x, br'')) :
    parseSE br = (.ok (x + oneShifted numZeroes - 1), br'') := by
  have hbits : getBits numZeroes br' = (.ok x, br'') := by rw [getBits, hget]
  rw [parseSE, hcount]
  dsimp only
  rw [hbits]

/-- `while (br.getBitsWithFallback(1, 1) == 0) ++numZeroes;` -/
def countZeroesWithFallback (numZeroes : ℤ) (br : R) : ℤ × R :=
  match _h : getBitsWithFallback 1 1 br with
  | (bit, br') =>
      if _hbit : bit = 0 then countZeroesWithFallback (int32 (numZeroes + 1)) br'
      else (numZeroes, br')
termination_by budget br
decreasing_by
  unfold getBitsWithFallback at _h
  cases hbits : getBitsGraceful 1 br with
  | mk out br'' =>
      rw [hbits] at _h
      cases _h
      cases out with
      | none => cases _hbit
      | some x => exact getBitsGraceful_one_budget hbits

theorem countZeroesWithFallback_eq {k : ℤ} {br br' : R} {bit : BitVec 32}
    (h : getBitsWithFallback 1 1 br = (bit, br')) :
    countZeroesWithFallback k br =
      if bit = 0 then countZeroesWithFallback (int32 (k + 1)) br' else (k, br') := by
  rw [countZeroesWithFallback]
  split
  rename_i hread
  rw [h] at hread
  cases hread
  rfl

def parseUEWithFallback (br : R) (fallback : BitVec 32) : BitVec 32 × R :=
  let (numZeroes, br) := countZeroesWithFallback 0 br
  if numZeroes < 32 then
    match getBitsGraceful numZeroes br with
    | (some x, br) => (x + oneShifted numZeroes - 1, br)
    | (none, br) => (fallback, br)
  else (fallback, (skipBits numZeroes br).2)

theorem parseUEWithFallback_of_some {br br' br'' : R} {numZeroes : ℤ} {x : BitVec 32}
    (hcount : countZeroesWithFallback 0 br = (numZeroes, br')) (hfew : numZeroes < 32)
    (hget : getBitsGraceful numZeroes br' = (some x, br'')) (fallback : BitVec 32) :
    parseUEWithFallback br fallback = (x + oneShifted numZeroes - 1, br'') := by
  rw [parseUEWithFallback, hcount]
  dsimp only
  rw [if_pos hfew, hget]

theorem parseUEWithFallback_of_none {br br' : R} {numZeroes : ℤ}
    (hcount : countZeroesWithFallback 0 br = (numZeroes, br'))
    (hget : numZeroes < 32 → (getBitsGraceful numZeroes br').1 = none) (fallback : BitVec 32) :
    (parseUEWithFallback br fallback).1 = fallback := by
  rw [parseUEWithFallback, hcount]
  dsimp only
  split
  · rename_i hfew
    have hnone := hget hfew
    split
    · rename_i hsome
      rw [hsome] at hnone
      cases hnone
    · rfl
  · rfl

def parseSEWithFallback (br : R) (fallback : BitVec 32) : BitVec 32 × R :=
  let (codeNum, br) := parseUEWithFallback br (~~~0)
  if codeNum = ~~~0 then (fallback, br) else (signedOf codeNum, br)

end MirrorCast.AvcUtils
