import MirrorCast.Library.BitString
import MirrorCast.Program.ABitReader

/-! # What a bit reader reads

A reader stands for the bits it has still to give: those in its reservoir and those of the bytes
that have not come there yet. -/

namespace MirrorCast.Bits

open BitString BitReader

/-- The bits in the reservoir. -/
def held (r : ABitReader) : List Bool := (ofWord r.mReservoir).take r.mNumBitsLeft

/-- What `fillReservoir` does for the bytes `ahead` of a reader. If it returns without a bit, the
reservoir is zero, as `getBitsGraceful` then adds it to its result. -/
class Refills (R : Type) extends BitReader R where
  ahead : R → List UInt8
  ahead_consume : ∀ r m, ahead (consume r m) = ahead r
  atEnd : ∀ r, (toABitReader r).mSize = 0 → ahead r = [] ∧ (fillReservoir r).1 = false ∧
    ahead (fillReservoir r).2 = [] ∧
    (toABitReader (fillReservoir r).2).mNumBitsLeft = (toABitReader r).mNumBitsLeft ∧
    overRead (fillReservoir r).2 = true
  refilled : ∀ r, 0 < (toABitReader r).mSize → (fillReservoir r).1 = true ∧
    ofBytes (ahead r) =
      held (toABitReader (fillReservoir r).2) ++ ofBytes (ahead (fillReservoir r).2) ∧
    ((toABitReader (fillReservoir r).2).mNumBitsLeft = 0 →
      (toABitReader (fillReservoir r).2).mReservoir = 0) ∧
    overRead (fillReservoir r).2 = overRead r

/-! ## The reservoir -/

theorem length_held (r : ABitReader) : (held r).length = r.mNumBitsLeft := by
  rw [held, List.length_take, length_ofWord, Nat.min_eq_left r.numBitsLeft_le]

theorem held_of_empty {r : ABitReader} (h : r.mNumBitsLeft = 0) : held r = [] := by
  rw [held, h, List.take_zero]

theorem held_consume {r : ABitReader} {m : ℕ} (hm : m ≤ r.mNumBitsLeft) :
    held (r.consume m) = (held r).drop m := by
  have hbits := r.numBitsLeft_le
  by_cases hfull : m = 32
  · have hnone : r.mNumBitsLeft - m = 0 := by omega
    have hlength := length_held r
    rw [held_of_empty hnone, List.drop_of_length_le (by omega)]
  · have hshift := take_ofWord_shiftLeft r.mReservoir m (r.mNumBitsLeft - m) (by omega)
    rw [held, held, List.drop_take, ← hshift]
    simp only [ABitReader.consume, Nat.mod_eq_of_lt (show m < 32 by omega)]

/-- The next bits go behind those read before, also where a shift by 32 does nothing. -/
theorem append_held {r : ABitReader} {m : ℕ} (bits : List Bool) (hm : m ≤ r.mNumBitsLeft)
    (hlength : bits.length + m ≤ 32) (hempty : m = 0 → r.mReservoir = 0) :
    (word 32 bits <<< (m % 32)) ||| (r.mReservoir >>> ((32 - m) % 32)) =
      word 32 (bits ++ (held r).take m) := by
  have htake : (held r).take m = (ofWord r.mReservoir).take m := by
    rw [held, List.take_take, Nat.min_eq_left hm]
  by_cases hzero : m = 0
  · rw [hempty hzero, hzero, List.take_zero, List.append_nil]
    simp
  · have hword := word_append 32 bits ((ofWord r.mReservoir).take m)
    have hgroup : ((ofWord r.mReservoir).take m).length = m := by
      rw [List.length_take, length_ofWord]
      omega
    rw [hgroup, word_take_ofWord r.mReservoir (by omega)] at hword
    rw [htake, ← hword, Nat.mod_eq_of_lt (show 32 - m < 32 by omega)]
    by_cases hfull : m = 32
    · have hnil : bits = [] := List.eq_nil_of_length_eq_zero (by omega)
      rw [hnil, word_nil]
      simp
    · rw [Nat.mod_eq_of_lt (show m < 32 by omega)]

/-! ## Calls -/

section Calls

variable {R : Type} [Refills R]

def bits (r : R) : List Bool := held (toABitReader r) ++ ofBytes (Refills.ahead r)

/-- `n` bits were asked for: so many are gone, or all, and then the reader is over-read. -/
structure Advances (r : R) (n : ℕ) (r' : R) : Prop where
  bits_eq : bits r' = (bits r).drop n
  overRead_eq : overRead r' = (overRead r || decide ((bits r).length < n))

theorem Advances.zero (r : R) : Advances r 0 r where
  bits_eq := List.drop_zero.symm
  overRead_eq := by simp

theorem Advances.trans {r r' r'' : R} {m n : ℕ} (h : Advances r m r') (h' : Advances r' n r'') :
    Advances r (m + n) r'' where
  bits_eq := by rw [h'.bits_eq, h.bits_eq, List.drop_drop]
  overRead_eq := by
    have hiff : (bits r).length < m + n ↔ (bits r).length < m ∨ (bits r).length - m < n := by omega
    rw [h'.overRead_eq, h.overRead_eq, h.bits_eq, List.length_drop, Bool.or_assoc,
      decide_eq_decide.mpr hiff, Bool.decide_or]

/-- Where there were not enough bits, it does not matter how many were asked for. -/
theorem Advances.more {r r' : R} {m n : ℕ} (h : Advances r m r') (hshort : (bits r).length < m)
    (hmn : m ≤ n) : Advances r n r' where
  bits_eq := by
    rw [h.bits_eq, List.drop_of_length_le (by omega), List.drop_of_length_le (by omega)]
  overRead_eq := by
    rw [h.overRead_eq, decide_eq_true hshort, decide_eq_true (Nat.lt_of_lt_of_le hshort hmn)]

theorem advances_consume {r : R} {m : ℕ} (hm : m ≤ (toABitReader r).mNumBitsLeft) :
    Advances r m (consume r m) where
  bits_eq := by
    have hlength := length_held (toABitReader r)
    rw [bits, bits, toABitReader_consume, held_consume hm, Refills.ahead_consume,
      List.drop_append_of_le_length (by omega)]
  overRead_eq := by
    have hlength := length_held (toABitReader r)
    have henough : ¬ (bits r).length < m := by
      rw [bits, List.length_append]
      omega
    rw [overRead, toABitReader_consume, decide_eq_false henough, Bool.or_false]
    rfl

/-- A reader that cannot refill its reservoir has no bits left. -/
theorem refill_false {r : R} (h : (refill r).1 = false) :
    bits r = [] ∧ bits (refill r).2 = [] ∧ overRead (refill r).2 = true := by
  unfold refill at h ⊢
  split at h
  · rename_i hempty
    have hsize : (toABitReader r).mSize = 0 := by
      by_contra hpos
      have htrue := (Refills.refilled r (Nat.pos_of_ne_zero hpos)).1
      rw [h] at htrue
      cases htrue
    obtain ⟨hahead, -, hahead', hempty', hover⟩ := Refills.atEnd r hsize
    rw [if_pos hempty, bits, bits, hahead, hahead', held_of_empty hempty,
      held_of_empty (hempty'.trans hempty)]
    exact ⟨rfl, rfl, hover⟩
  · cases h

theorem refill_true {r : R} (h : (refill r).1 = true) :
    Advances r 0 (refill r).2 ∧ ((toABitReader (refill r).2).mNumBitsLeft = 0 →
      (toABitReader (refill r).2).mReservoir = 0) := by
  unfold refill at h ⊢
  split at h
  · rename_i hempty
    have hsize : 0 < (toABitReader r).mSize := by
      by_contra hzero
      have hfalse := (Refills.atEnd r (Nat.eq_zero_of_not_pos hzero)).2.1
      rw [h] at hfalse
      cases hfalse
    obtain ⟨-, hbits, hzero, hover⟩ := Refills.refilled r hsize
    rw [if_pos hempty]
    refine ⟨⟨?_, ?_⟩, hzero⟩
    · rw [bits, ← hbits, bits, held_of_empty hempty, List.nil_append, List.drop_zero]
    · simpa using hover
  · rename_i hempty
    rw [if_neg hempty]
    exact ⟨Advances.zero r, fun hzero => absurd hzero hempty⟩

/-- The loop gives the next bits behind those of the result. -/
theorem readBits_eq (n : ℕ) {result : BitVec 32} {before : List Bool} (r : R)
    (hresult : result = word 32 before) (hlength : before.length + n ≤ 32) :
    (readBits n result r).1 =
        (if n ≤ (bits r).length then some (word 32 (before ++ (bits r).take n)) else none) ∧
      Advances r n (readBits n result r).2 := by
  fun_induction readBits n result r generalizing before with
  | case1 result r => simp [hresult, Advances.zero]
  | case2 n result r hn r' h =>
      obtain ⟨hbits, hbits', hover⟩ := refill_false (congrArg Prod.fst h)
      rw [h] at hbits' hover
      have hshort : (bits r).length < n := by
        rw [hbits]
        exact Nat.pos_of_ne_zero hn
      rw [if_neg (Nat.not_le_of_lt hshort)]
      refine ⟨rfl, ?_, ?_⟩
      · rw [hbits', hbits, List.drop_nil]
      · rw [hover, decide_eq_true hshort, Bool.or_true]
  | case3 n result r hn r' h m =>
      rename_i ih
      obtain ⟨hrefill, hempty⟩ := refill_true (congrArg Prod.fst h)
      rw [h] at hrefill hempty
      dsimp only at hrefill hempty
      have hmin : m = min n (toABitReader r').mNumBitsLeft := rfl
      have hm : m ≤ (toABitReader r').mNumBitsLeft := Nat.min_le_right _ _
      have hmn : m ≤ n := Nat.min_le_left _ _
      have hzero : m = 0 → (toABitReader r').mReservoir = 0 := fun hm => hempty (by omega)
      have hsame : bits r' = bits r := by rw [hrefill.bits_eq, List.drop_zero]
      have hheld : (held (toABitReader r')).take m = (bits r).take m := by
        rw [← hsame, bits, List.take_append_of_le_length (by rwa [length_held])]
      have hword := append_held before hm (by omega) hzero
      rw [hheld, ← hresult] at hword
      have hgroup : ((bits r).take m).length = m := by
        rw [← hheld, List.length_take, length_held, Nat.min_eq_left hm]
      have hconsume : Advances r m (consume r' m) := by
        simpa using hrefill.trans (advances_consume hm)
      obtain ⟨hvalue, hrest⟩ := ih hword (by rw [List.length_append, hgroup]; omega)
      have hnext := hconsume.trans hrest
      rw [Nat.add_sub_cancel' hmn] at hnext
      refine ⟨?_, hnext⟩
      have hiff : n - m ≤ (bits r).length - m ↔ n ≤ (bits r).length := by
        rw [List.length_take] at hgroup
        omega
      rw [hvalue, hconsume.bits_eq, List.length_drop, List.append_assoc, ← List.take_add,
        Nat.add_sub_cancel' hmn]
      simp only [hiff]

/-- `getBitsGraceful` gives the next group of bits. -/
theorem getBitsGraceful_eq {n : ℤ} (hn : n ≤ 32) (r : R) :
    (getBitsGraceful n r).1 = group 32 n.toNat (bits r) ∧
      Advances r n.toNat (getBitsGraceful n r).2 := by
  rw [getBitsGraceful, if_neg (by omega)]
  have h := readBits_eq n.toNat r (word_nil 32).symm (by rw [List.length_nil]; omega)
  rwa [List.nil_append] at h

theorem skipBits_eq (n : ℤ) (r : R) :
    (skipBits n r).1 = decide (n.toNat ≤ (bits r).length) ∧
      Advances r n.toNat (skipBits n r).2 := by
  fun_induction skipBits n r with
  | case1 n r hn r' h =>
      obtain ⟨hvalue, hadvances⟩ := getBitsGraceful_eq (n := 32) (le_refl 32) r
      rw [h] at hvalue hadvances
      have hshort : (bits r).length < 32 := by
        by_contra henough
        rw [group, if_pos (by simpa using henough)] at hvalue
        cases hvalue
      refine ⟨?_, hadvances.more hshort (by omega)⟩
      rw [decide_eq_false (by omega)]
  | case2 n r hn r' x h ih =>
      obtain ⟨hvalue, hadvances⟩ := getBitsGraceful_eq (n := 32) (le_refl 32) r
      rw [h] at hvalue hadvances
      have henough : 32 ≤ (bits r).length := by
        by_contra hshort
        rw [group, if_neg (by simpa using hshort)] at hvalue
        cases hvalue
      have hnext := hadvances.trans ih.2
      have hsum : (32 : ℤ).toNat + (n - 32).toNat = n.toNat := by omega
      rw [hsum] at hnext
      refine ⟨?_, hnext⟩
      rw [ih.1, hadvances.bits_eq, List.length_drop]
      exact decide_eq_decide.mpr (by omega)
  | case3 n r hn hpos out r' h =>
      obtain ⟨hvalue, hadvances⟩ := getBitsGraceful_eq (not_lt.mp hn) r
      rw [h] at hvalue hadvances
      refine ⟨?_, hadvances⟩
      dsimp only at hvalue
      rw [hvalue, group]
      split <;> simp [*]
  | case4 n r hn hpos =>
      have hzero : n.toNat = 0 := by omega
      rw [hzero]
      exact ⟨(decide_eq_true (Nat.zero_le _)).symm, Advances.zero r⟩

end Calls

end MirrorCast.Bits
