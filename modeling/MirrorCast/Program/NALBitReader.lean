import MirrorCast.Program.ABitReader

/-! # `NALBitReader`: reading a NAL unit bit by bit, without its emulation prevention bytes -/

namespace MirrorCast

structure NALBitReader extends ABitReader where
  mNumZeros : ℕ

namespace NALBitReader

open ABitReader

def new (data : List UInt8) (size : ℕ) (h : size ≤ data.length) : NALBitReader :=
  ⟨ABitReader.new data size h, 0⟩

def isEmulationPreventionByte (numZeros : ℕ) (content : UInt8) : Bool :=
  decide (2 ≤ numZeros) && decide (content = 3)

/-- `++numZeros` for a zero byte, `numZeros = 0` for any other one. -/
def countZeros (numZeros : ℕ) (content : UInt8) : ℕ := if content = 0 then numZeros + 1 else 0

/-! ## Filling the reservoir -/

/-- A turn of the loop of `fillReservoir` that skips the byte, and one that takes it. -/
def skip (r : NALBitReader) (h : 0 < r.mSize) : NALBitReader :=
  ⟨r.toABitReader.advance h, countZeros r.mNumZeros (r.content h)⟩

def take (r : NALBitReader) (h : 0 < r.mSize) : NALBitReader :=
  ⟨(r.toABitReader.advance h).push (r.content h), countZeros r.mNumZeros (r.content h)⟩

def clear (r : NALBitReader) : NALBitReader := { r with mReservoir := 0 }

/-- The loop of `fillReservoir`. -/
def fill (r : NALBitReader) (i : Fin 5) : NALBitReader × Fin 5 :=
  if h : 0 < r.mSize ∧ i < 4 then
    if isEmulationPreventionByte r.mNumZeros (r.content h.1) then fill (r.skip h.1) i
    else fill (r.take h.1) ⟨i + 1, by omega⟩
  else (r, i)
termination_by r.mSize
decreasing_by all_goals exact Nat.sub_lt h.1 Nat.one_pos

def fillReservoir (r : NALBitReader) : Bool × NALBitReader :=
  if r.mSize = 0 then (false, { r with mOverRead := true })
  else
    let (r, i) := fill r.clear 0
    (true, ⟨r.toABitReader.align i, r.mNumZeros⟩)

def consume (r : NALBitReader) (m : ℕ) : NALBitReader := ⟨r.toABitReader.consume m, r.mNumZeros⟩

@[simp] theorem mSize_clear (r : NALBitReader) : r.clear.mSize = r.mSize := rfl

@[simp] theorem mSize_skip (r : NALBitReader) (h : 0 < r.mSize) :
    (r.skip h).mSize = r.mSize - 1 := rfl

@[simp] theorem mSize_take (r : NALBitReader) (h : 0 < r.mSize) :
    (r.take h).mSize = r.mSize - 1 := rfl

theorem fill_le (r : NALBitReader) (i : Fin 5) :
    (fill r i).1.mSize + (fill r i).2 ≤ r.mSize + i ∧ (fill r i).1.mSize ≤ r.mSize := by
  fun_induction fill r i with
  | case1 r i h hskip ih =>
      rw [mSize_skip] at ih
      omega
  | case2 r i h htake ih =>
      rw [mSize_take] at ih
      dsimp only at ih
      omega
  | case3 r i h => exact ⟨Nat.le_refl _, Nat.le_refl _⟩

theorem fill_lt (r : NALBitReader) (h : 0 < r.mSize) : (fill r 0).1.mSize < r.mSize := by
  have hlt := Nat.sub_lt h Nat.one_pos
  rw [fill, dif_pos ⟨h, by decide⟩]
  split
  · exact Nat.lt_of_le_of_lt (fill_le (r.skip h) 0).2 hlt
  · exact Nat.lt_of_le_of_lt (fill_le (r.take h) ⟨1, by decide⟩).2 hlt

theorem fillReservoir_budget (r : NALBitReader) (h : (fillReservoir r).1 = true) :
    (fillReservoir r).2.mSize < r.mSize ∧
      (fillReservoir r).2.toABitReader.budget ≤ 8 * r.mSize := by
  unfold fillReservoir at h ⊢
  split at h
  · cases h
  · rename_i hsize
    have hlt := fill_lt r.clear (Nat.pos_of_ne_zero hsize)
    have hle := (fill_le r.clear 0).1
    rw [if_neg hsize]
    simp only [budget, mSize_align, mNumBitsLeft_align]
    rw [Fin.val_zero, mSize_clear] at hle
    exact ⟨hlt, by omega⟩

instance : BitReader NALBitReader where
  toABitReader := toABitReader
  consume := consume
  fillReservoir := fillReservoir
  toABitReader_consume _ _ := rfl
  fillReservoir_budget := fillReservoir_budget

/-! ## Looking ahead -/

/-- The loop of `atLeastNumBitsLeft` over `data`, from `dataIndex` on: `numBitsRemaining` at its
end. -/
def lookAhead (data : List UInt8) : (size dataIndex : ℕ) → dataIndex + size ≤ data.length →
    (numZeros : ℕ) → (numBitsRemaining : ℤ) → ℤ
  | 0, _, _, _, numBitsRemaining => numBitsRemaining
  | size + 1, dataIndex, h, numZeros, numBitsRemaining =>
      if 0 < numBitsRemaining then
        let content := data.get ⟨dataIndex, by omega⟩
        lookAhead data size (dataIndex + 1) (by omega) (countZeros numZeros content)
          (if isEmulationPreventionByte numZeros content then numBitsRemaining
          else numBitsRemaining - 8)
      else numBitsRemaining

/-- `mData.slice()` begins with the buffer, wherever the reader is. -/
def atLeastNumBitsLeft (r : NALBitReader) (n : ℤ) : Bool :=
  let numBits := r.numBitsLeft
  if numBits < n then false
  else
    let numBitsRemaining := n - r.mNumBitsLeft
    let numBitsRemaining := lookAhead r.mData r.mSize 0
      (by
        have hindex := r.index_le
        omega) r.mNumZeros numBitsRemaining
    decide (numBitsRemaining ≤ 0)

end NALBitReader

end MirrorCast
