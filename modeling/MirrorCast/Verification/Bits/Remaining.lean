import MirrorCast.Verification.Bits.Reservoir

/-! # Asking `NALBitReader` whether enough bits are left

`atLeastNumBitsLeft` scans as many bytes as are left, but from the beginning of the buffer. -/

namespace MirrorCast.Bits

open Java BitString BitReader NALBitReader

inductive Consumption where
  | getBits (n : ℤ)
  | skipBits (n : ℤ)

/-- The reader after a call; a check that fails in `getBits` leaves it as it is then. -/
def Consumption.run (r : NALBitReader) : Consumption → NALBitReader
  | .getBits n => (BitReader.getBits n r).2
  | .skipBits n => (BitReader.skipBits n r).2

/-- The reader of a byte string after calls. -/
def after (data : List UInt8) (calls : List Consumption) : NALBitReader :=
  calls.foldl Consumption.run (NALBitReader.new data data.length (Nat.le_refl _))

/-- The answer is the one that `skipBits` would give. -/
def Exact (r : NALBitReader) (n : ℤ) : Prop := r.atLeastNumBitsLeft n = (skipBits n r).1

/-- The bits in the reservoir and in the given bytes, less their emulation prevention bytes. -/
def payloadBits (r : NALBitReader) (bytes : List UInt8) : ℤ :=
  r.mNumBitsLeft + 8 * (Rbsp.payloadAfter r.mNumZeros bytes).length

/-- `n` is on the same side of the bits that are counted from the beginning of the buffer, as far
as `numBitsLeft()` goes, and of those that are left. -/
def CountsAlike (r : NALBitReader) (n : ℤ) : Prop :=
  let counted := min r.numBitsLeft (payloadBits r (r.mData.take r.mSize))
  let left := payloadBits r (unread r.toABitReader)
  n ≤ min counted left ∨ max counted left < n

theorem lookAhead_nonpos_iff (data : List UInt8) (size dataIndex : ℕ)
    (h : dataIndex + size ≤ data.length) (numZeros : ℕ) (numBitsRemaining : ℤ) :
    lookAhead data size dataIndex h numZeros numBitsRemaining ≤ 0 ↔
      numBitsRemaining ≤
        8 * (Rbsp.payloadAfter numZeros ((data.drop dataIndex).take size)).length := by
  induction size generalizing dataIndex numZeros numBitsRemaining with
  | zero => simp [lookAhead, Rbsp.payloadAfter]
  | succ size ih =>
      rw [lookAhead, List.drop_eq_getElem_cons (by omega), List.take_succ_cons]
      split
      · dsimp only
        rw [ih, Rbsp.payloadAfter, List.get_eq_getElem]
        by_cases hskip : isEmulationPreventionByte numZeros data[dataIndex] = true
        · have hthree := isEmulationPreventionByte_iff.mp hskip
          have hzeros : countZeros numZeros data[dataIndex] = 0 := by
            rw [hthree.2]
            rfl
          rw [if_pos hskip, if_pos hthree, hzeros]
        · have hother := fun h => hskip (isEmulationPreventionByte_iff.mpr h)
          rw [if_neg hskip, if_neg hother, List.length_cons, countZeros]
          push_cast
          constructor <;> intro hle <;> linarith
      · rename_i hdone
        constructor <;> intro <;> omega

theorem atLeastNumBitsLeft_eq (r : NALBitReader) (n : ℤ) :
    r.atLeastNumBitsLeft n =
      decide (n ≤ min r.numBitsLeft (payloadBits r (r.mData.take r.mSize))) := by
  have hlook := lookAhead_nonpos_iff r.mData r.mSize 0 (by have := r.index_le; omega) r.mNumZeros
    (n - r.mNumBitsLeft)
  rw [List.drop_zero] at hlook
  rw [atLeastNumBitsLeft]
  split
  · rename_i hmore
    exact (decide_eq_false fun hle => absurd (hle.trans (min_le_left _ _)) (not_le.mpr hmore)).symm
  · rename_i hwithin
    apply decide_eq_decide.mpr
    rw [hlook, payloadBits, le_min_iff]
    constructor
    · intro hle
      exact ⟨not_lt.mp hwithin, by linarith⟩
    · intro hle
      linarith [hle.2]

theorem length_bits (r : NALBitReader) :
    ((bits r).length : ℤ) = payloadBits r (unread r.toABitReader) := by
  have hheld : (held (BitReader.toABitReader r)).length = r.mNumBitsLeft := length_held r.toABitReader
  have hahead : (ofBytes (Refills.ahead r)).length = 8 * (unreadPayload r).length :=
    length_ofBytes (unreadPayload r)
  rw [bits, List.length_append, hheld, hahead, payloadBits, ← unreadPayload]
  push_cast
  rfl

/-- The answer is the right one iff `n` is on the same side of both counts. -/
theorem atLeastNumBitsLeft_exact_iff (data : List UInt8) (calls : List Consumption) (n : ℕ) :
    Exact (after data calls) n ↔ CountsAlike (after data calls) n := by
  generalize after data calls = r
  have hleft := length_bits r
  have hskip : (skipBits (n : ℤ) r).1 =
      decide ((n : ℤ) ≤ payloadBits r (unread r.toABitReader)) := by
    rw [(skipBits_eq n r).1, Int.toNat_natCast]
    exact decide_eq_decide.mpr (by omega)
  rw [Exact, atLeastNumBitsLeft_eq, hskip, decide_eq_decide, CountsAlike]
  generalize min r.numBitsLeft _ = counted
  generalize payloadBits r _ = left
  omega

/-- Behind four bytes that were read, the scan still sees these and not the zeros and the emulation
prevention byte that are left. -/
theorem atLeastNumBitsLeft_not_exact : ¬ ∀ (data : List UInt8) (calls : List Consumption) (n : ℕ),
    Exact (after data calls) n := by
  intro h
  have hexact := h [1, 1, 1, 1, 0, 0, 3] [.skipBits 32] 24
  revert hexact
  rw [Exact]
  decide +kernel

end MirrorCast.Bits
