import MirrorCast.Library.Java

/-! # `RTPUtils`: signed big-endian integers in a buffer -/

namespace MirrorCast

open Java

namespace RTPUtils

/-- The number that `n` bytes from `start` on make up. -/
def unsignedAt (data : List UInt8) (start n : ℕ) : ℕ :=
  ((data.drop start).take n).foldl (fun v b => v * 256 + b.toNat) 0

/-- `data.getShort(start)`, a signed value. -/
def U16_AT (data : List UInt8) (start : ℕ) : ℤ := (unsignedAt data start 2 : ℤ).bmod (2 ^ 16)

def U32_AT (data : List UInt8) (start : ℕ) : ℤ := int32 (unsignedAt data start 4)

def U64_AT (data : List UInt8) (start : ℕ) : ℤ := int64 (unsignedAt data start 8)

/-! ## Bounds -/

theorem foldl_bytes_lt (bytes : List UInt8) (v : ℕ) :
    bytes.foldl (fun v b => v * 256 + b.toNat) v < (v + 1) * 256 ^ bytes.length := by
  induction bytes generalizing v with
  | nil => simp
  | cons b bytes ih =>
      have hb := b.toNat_lt
      calc (b :: bytes).foldl (fun v b => v * 256 + b.toNat) v
          < (v * 256 + b.toNat + 1) * 256 ^ bytes.length := ih _
        _ ≤ ((v + 1) * 256) * 256 ^ bytes.length := Nat.mul_le_mul_right _ (by omega)
        _ = (v + 1) * 256 ^ (b :: bytes).length := by rw [List.length_cons, pow_succ', Nat.mul_assoc]

theorem unsignedAt_lt (data : List UInt8) (i n : ℕ) : unsignedAt data i n < 256 ^ n := by
  have hlength : ((data.drop i).take n).length ≤ n := List.length_take_le ..
  calc unsignedAt data i n < (0 + 1) * 256 ^ ((data.drop i).take n).length := foldl_bytes_lt _ _
    _ ≤ 256 ^ n := by
      rw [Nat.zero_add, Nat.one_mul]
      exact Nat.pow_le_pow_right (by decide) hlength

theorem U16_AT_cases (data : List UInt8) (i : ℕ) :
    unsignedAt data i 2 < 2 ^ 15 ∧ U16_AT data i = unsignedAt data i 2 ∨
      2 ^ 15 ≤ unsignedAt data i 2 ∧ U16_AT data i = unsignedAt data i 2 - 2 ^ 16 := by
  have hlt := unsignedAt_lt data i 2
  unfold U16_AT
  rw [Int.bmod_def]
  omega

end RTPUtils

end MirrorCast
