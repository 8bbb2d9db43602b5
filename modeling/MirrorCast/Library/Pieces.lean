import MirrorCast.Library.Java

/-! # Cutting a list into pieces of a fixed size

Piece `i` of `xs` holds the entries from `i * n` on, at most `n` of them. A buffer
that receives the pieces one behind the other ends up holding `xs`. -/

namespace Pieces

variable {α : Type*}

/-- Piece number `i`, counted from zero. -/
def piece (n : ℕ) (xs : List α) (i : ℕ) : List α := (xs.drop (i * n)).take n

/-- The number of pieces: full ones, and one more for a remainder. -/
def count (n len : ℕ) : ℕ := len / n + if len % n ≠ 0 then 1 else 0

/-- The number of pieces, computed with Java's truncating division. -/
theorem tdiv_add_tmod (n len : ℕ) :
    ((len : ℤ).tdiv n + if (len : ℤ).tmod n ≠ 0 then 1 else 0) = (count n len : ℤ) := by
  rw [← Int.ofNat_tdiv, ← Int.ofNat_tmod, count]
  by_cases h : len % n = 0
  · simp [h]
  · have hcast : ((len % n : ℕ) : ℤ) ≠ 0 := by exact_mod_cast h
    simp only [ne_eq, h, hcast, not_false_eq_true, if_true]
    push_cast
    rfl

theorem length_piece (n : ℕ) (xs : List α) (i : ℕ) :
    (piece n xs i).length = min n (xs.length - i * n) := by
  simp [piece, List.length_take, List.length_drop]

theorem take_append_piece (n : ℕ) (xs : List α) (i : ℕ) :
    xs.take (i * n) ++ piece n xs i = xs.take ((i + 1) * n) := by
  rw [piece, Nat.add_mul, Nat.one_mul, List.take_add]

theorem count_pos {n len : ℕ} (h : n < len) (hn : 0 < n) : 2 ≤ count n len := by
  unfold count
  have hdiv : 1 ≤ len / n := (Nat.one_le_div_iff hn).mpr (Nat.le_of_lt h)
  have hmod := Nat.div_add_mod len n
  split
  · omega
  · rename_i hzero
    have hzero : len % n = 0 := by simpa using hzero
    by_contra hlt
    have hone : len / n = 1 := by omega
    rw [hone, hzero] at hmod
    omega

/-- All pieces but the last are full, and the last one is not empty. -/
theorem count_bounds {n len : ℕ} (hn : 0 < n) (hlen : 0 < len) :
    (count n len - 1) * n < len ∧ len ≤ count n len * n := by
  have hmod := Nat.div_add_mod len n
  have hlt := Nat.mod_lt len hn
  unfold count
  split
  · rename_i hne
    have hne : len % n ≠ 0 := by simpa using hne
    rw [Nat.add_sub_cancel, Nat.add_mul, Nat.mul_comm (len / n) n]
    omega
  · rename_i hzero
    have hzero : len % n = 0 := by simpa using hzero
    have hpos : 0 < len / n := Nat.div_pos (Nat.le_of_dvd hlen (Nat.dvd_of_mod_eq_zero hzero)) hn
    rw [Nat.add_zero, Nat.sub_mul, Nat.mul_comm (len / n) n]
    omega

theorem length_piece_of_lt {n : ℕ} {xs : List α} {i : ℕ} (hn : 0 < n)
    (h : i + 1 < count n xs.length) : (piece n xs i).length = n := by
  have hlen : 0 < xs.length := by
    by_contra h0
    have : xs.length = 0 := by omega
    simp [this, count] at h
  have hb := (count_bounds hn hlen).1
  have hle : (i + 1) * n ≤ (count n xs.length - 1) * n := Nat.mul_le_mul_right n (by omega)
  rw [length_piece]
  rw [Nat.add_mul] at hle
  omega

theorem length_piece_last {n : ℕ} {xs : List α} {i : ℕ} (hn : 0 < n) (hlen : 0 < xs.length)
    (h : i + 1 = count n xs.length) : (piece n xs i).length = xs.length - i * n := by
  have hb := (count_bounds hn hlen).2
  rw [← h, Nat.add_mul] at hb
  rw [length_piece]
  omega

/-- A buffer that holds the first `i` pieces and zeros, of capacity `size`. -/
def filled [Zero α] (n : ℕ) (xs : List α) (size i : ℕ) : List α :=
  xs.take (i * n) ++ List.replicate (size - (xs.take (i * n)).length) 0

theorem filled_zero [Zero α] (n : ℕ) (xs : List α) (size : ℕ) :
    filled n xs size 0 = List.replicate size 0 := by
  simp [filled]

theorem length_filled [Zero α] {n : ℕ} {xs : List α} {size i : ℕ} (h : xs.length ≤ size) :
    (filled n xs size i).length = size := by
  simp only [filled, List.length_append, List.length_replicate, List.length_take]
  omega

/-- Writing piece `i` behind the first `i` pieces gives the first `i + 1` pieces. -/
theorem blit_filled [Zero α] (n : ℕ) (xs : List α) (size : ℕ) {i : ℕ} (h : i * n ≤ xs.length) :
    Java.blit (filled n xs size i) (i * n) (piece n xs i) = filled n xs size (i + 1) := by
  have hpre : (xs.take (i * n)).length = i * n := by
    simp [List.length_take, Nat.min_eq_left h]
  have hcat := take_append_piece n xs i
  have hlen : (xs.take ((i + 1) * n)).length = i * n + (piece n xs i).length := by
    rw [← hcat, List.length_append, hpre]
  have hblit := Java.blit_append hpre (piece n xs i) (List.replicate (size - i * n) 0)
  rw [filled, hpre, hblit, hcat, filled, hlen, List.drop_replicate, Nat.sub_sub]

end Pieces
