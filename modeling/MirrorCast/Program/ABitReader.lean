import MirrorCast.Library.Java
import Mathlib.Data.BitVec

/-! # `ABitReader`: reading a buffer bit by bit -/

namespace MirrorCast

open Java

/-- The fields of a reader. The last two say that every byte still to be read lies inside the
buffer, and that no more bits are counted than the reservoir has. -/
structure ABitReader where
  mData : List UInt8
  mDataIndex : ℕ
  mSize : ℕ
  /-- left-aligned bits -/
  mReservoir : BitVec 32
  mNumBitsLeft : ℕ
  mOverRead : Bool
  index_le : mDataIndex + mSize ≤ mData.length
  numBitsLeft_le : mNumBitsLeft ≤ 32

namespace ABitReader

def new (data : List UInt8) (size : ℕ) (h : size ≤ data.length) : ABitReader where
  mData := data
  mDataIndex := 0
  mSize := size
  mReservoir := 0
  mNumBitsLeft := 0
  mOverRead := false
  index_le := by omega
  numBitsLeft_le := by decide

/-- `mSize * 8 + mNumBitsLeft`, as an `int`. -/
def numBitsLeft (r : ABitReader) : ℤ := int32 (int32 (r.mSize * 8) + r.mNumBitsLeft)

/-- What can be read at most, in bits. -/
def budget (r : ABitReader) : ℕ := 8 * r.mSize + r.mNumBitsLeft

/-! ## Filling the reservoir -/

/-- `mData.get(mDataIndex)`. -/
def content (r : ABitReader) (h : 0 < r.mSize) : UInt8 :=
  r.mData.get ⟨r.mDataIndex, by
    have hindex := r.index_le
    omega⟩

/-- `++mDataIndex; --mSize;` -/
def advance (r : ABitReader) (h : 0 < r.mSize) : ABitReader :=
  { r with
    mDataIndex := r.mDataIndex + 1
    mSize := r.mSize - 1
    index_le := by
      have hindex := r.index_le
      omega }

/-- `mReservoir = (mReservoir << 8) | content;` -/
def push (r : ABitReader) (content : UInt8) : ABitReader :=
  { r with mReservoir := (r.mReservoir <<< 8) ||| content.toBitVec.setWidth 32 }

/-- `mNumBitsLeft = 8 * i; mReservoir <<= 32 - mNumBitsLeft;` where a shift of an `int` takes only
the low five bits of the distance. -/
def align (r : ABitReader) (i : Fin 5) : ABitReader :=
  { r with
    mNumBitsLeft := 8 * (i : ℕ)
    mReservoir := r.mReservoir <<< ((32 - 8 * (i : ℕ)) % 32)
    numBitsLeft_le := by omega }

/-- `mReservoir = 0;` -/
def clear (r : ABitReader) : ABitReader := { r with mReservoir := 0 }

/-- The loop of `fillReservoir`. -/
def fill (r : ABitReader) (i : Fin 5) : ABitReader × Fin 5 :=
  if h : 0 < r.mSize ∧ i < 4 then
    fill ((r.advance h.1).push (r.content h.1)) ⟨i + 1, by omega⟩
  else (r, i)
termination_by r.mSize
decreasing_by exact Nat.sub_lt h.1 Nat.one_pos

def fillReservoir (r : ABitReader) : Bool × ABitReader :=
  if r.mSize = 0 then (false, { r with mOverRead := true })
  else
    let (r, i) := fill r.clear 0
    (true, r.align i)

/-- `mReservoir <<= m; mNumBitsLeft -= m;` -/
def consume (r : ABitReader) (m : ℕ) : ABitReader :=
  { r with
    mReservoir := r.mReservoir <<< (m % 32)
    mNumBitsLeft := r.mNumBitsLeft - m
    numBitsLeft_le := by
      have hbits := r.numBitsLeft_le
      omega }

@[simp] theorem mSize_advance (r : ABitReader) (h : 0 < r.mSize) :
    (r.advance h).mSize = r.mSize - 1 := rfl

@[simp] theorem mSize_push (r : ABitReader) (content : UInt8) :
    (r.push content).mSize = r.mSize := rfl

@[simp] theorem mSize_clear (r : ABitReader) : r.clear.mSize = r.mSize := rfl

@[simp] theorem mReservoir_align (r : ABitReader) (i : Fin 5) :
    (r.align i).mReservoir = r.mReservoir <<< ((32 - 8 * (i : ℕ)) % 32) := rfl

@[simp] theorem mSize_align (r : ABitReader) (i : Fin 5) : (r.align i).mSize = r.mSize := rfl

@[simp] theorem mNumBitsLeft_align (r : ABitReader) (i : Fin 5) :
    (r.align i).mNumBitsLeft = 8 * i := rfl

@[simp] theorem mSize_consume (r : ABitReader) (m : ℕ) : (r.consume m).mSize = r.mSize := rfl

@[simp] theorem mNumBitsLeft_consume (r : ABitReader) (m : ℕ) :
    (r.consume m).mNumBitsLeft = r.mNumBitsLeft - m := rfl

/-- Each byte in the reservoir was taken off the buffer. -/
theorem fill_le (r : ABitReader) (i : Fin 5) :
    (fill r i).1.mSize + (fill r i).2 ≤ r.mSize + i ∧ (fill r i).1.mSize ≤ r.mSize := by
  fun_induction fill r i with
  | case1 r i h ih =>
      rw [mSize_push, mSize_advance] at ih
      dsimp only at ih
      omega
  | case2 r i h => exact ⟨Nat.le_refl _, Nat.le_refl _⟩

theorem fill_lt (r : ABitReader) (h : 0 < r.mSize) : (fill r 0).1.mSize < r.mSize := by
  have hle := (fill_le ((r.advance h).push (r.content h)) ⟨1, by decide⟩).2
  rw [mSize_push, mSize_advance] at hle
  rw [fill, dif_pos ⟨h, by decide⟩]
  exact Nat.lt_of_le_of_lt hle (Nat.sub_lt h Nat.one_pos)

/-- A reservoir that was filled makes the buffer shorter, by no less than it took. -/
theorem fillReservoir_budget (r : ABitReader) (h : (fillReservoir r).1 = true) :
    (fillReservoir r).2.mSize < r.mSize ∧ (fillReservoir r).2.budget ≤ 8 * r.mSize := by
  unfold fillReservoir at h ⊢
  split at h
  · cases h
  · rename_i hsize
    have hlt := fill_lt r.clear (Nat.pos_of_ne_zero hsize)
    have hle := (fill_le r.clear 0).1
    rw [if_neg hsize]
    simp only [budget, mSize_align, mNumBitsLeft_align]
    rw [Fin.val_zero, mSize_clear] at hle
    exact ⟨hlt, by omega⟩

end ABitReader

/-! ## The classes of readers -/

/-- `ABitReader` and what is derived from it: `fillReservoir` is the method that is overridden. -/
class BitReader (R : Type) where
  toABitReader : R → ABitReader
  consume : R → ℕ → R
  fillReservoir : R → Bool × R
  toABitReader_consume : ∀ r m, toABitReader (consume r m) = (toABitReader r).consume m
  fillReservoir_budget : ∀ r, (fillReservoir r).1 = true →
    (toABitReader (fillReservoir r).2).mSize < (toABitReader r).mSize ∧
      (toABitReader (fillReservoir r).2).budget ≤ 8 * (toABitReader r).mSize

instance : BitReader ABitReader where
  toABitReader := id
  consume := ABitReader.consume
  fillReservoir := ABitReader.fillReservoir
  toABitReader_consume _ _ := rfl
  fillReservoir_budget := ABitReader.fillReservoir_budget

namespace BitReader

variable {R : Type} [BitReader R]

def overRead (r : R) : Bool := (toABitReader r).mOverRead

def budget (r : R) : ℕ := (toABitReader r).budget

/-- `mNumBitsLeft != 0 || fillReservoir()`. -/
def refill (r : R) : Bool × R :=
  if (toABitReader r).mNumBitsLeft = 0 then fillReservoir r else (true, r)

theorem refill_budget (r : R) (h : (refill r).1 = true) : budget (refill r).2 ≤ budget r ∧
    ((toABitReader (refill r).2).mSize < (toABitReader r).mSize ∨
      (toABitReader (refill r).2).mSize = (toABitReader r).mSize ∧
        0 < (toABitReader (refill r).2).mNumBitsLeft) := by
  unfold refill at h ⊢
  split at h
  · rename_i hbits
    have hbudget := fillReservoir_budget r h
    rw [if_pos hbits]
    simp only [budget, ABitReader.budget] at hbudget ⊢
    omega
  · rename_i hbits
    rw [if_neg hbits]
    exact ⟨Nat.le_refl _, .inr ⟨rfl, Nat.pos_of_ne_zero hbits⟩⟩

/-! ## Reading -/

/-- The loop of `getBitsGraceful`: `none` for `false`, with the bits read lost. -/
def readBits (n : ℕ) (result : BitVec 32) (r : R) : Option (BitVec 32) × R :=
  if _hn : n = 0 then (some result, r)
  else
    match _h : refill r with
    | (false, r') => (none, r')
    | (true, r') =>
        let m := min n (toABitReader r').mNumBitsLeft
        readBits (n - m)
          ((result <<< (m % 32)) ||| ((toABitReader r').mReservoir >>> ((32 - m) % 32)))
          (consume r' m)
termination_by n + (toABitReader r).mSize
decreasing_by
  have hbudget := refill_budget r (congrArg Prod.fst _h)
  rw [_h] at hbudget
  rw [toABitReader_consume, ABitReader.mSize_consume]
  dsimp only at hbudget
  omega

def getBitsGraceful (n : ℤ) (r : R) : Option (BitVec 32) × R :=
  if 32 < n then (none, r) else readBits n.toNat 0 r

def getBitsWithFallback (n : ℤ) (fallback : BitVec 32) (r : R) : BitVec 32 × R :=
  let (out, r) := getBitsGraceful n r
  (out.getD fallback, r)

/-- `CheckUtils.check` fails with a `RuntimeException`; what has been read stays read. -/
def getBits (n : ℤ) (r : R) : Except JavaException (BitVec 32) × R :=
  match getBitsGraceful n r with
  | (some x, r) => (.ok x, r)
  | (none, r) => (.error .runtime, r)

def skipBits (n : ℤ) (r : R) : Bool × R :=
  if 32 < n then
    match getBitsGraceful 32 r with
    | (none, r) => (false, r)
    | (some _, r) => skipBits (n - 32) r
  else if 0 < n then
    let (out, r) := getBitsGraceful n r
    (out.isSome, r)
  else (true, r)
termination_by n.toNat

end BitReader

end MirrorCast
