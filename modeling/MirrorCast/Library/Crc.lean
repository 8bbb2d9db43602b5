import Mathlib.Data.BitVec
import Mathlib.Logic.Function.Iterate
import Mathlib.Tactic.Common

/-! # Cyclic redundancy checks

A register of `w` bits, the highest bit first: bit by bit, and a byte at a time from a table. -/

namespace Crc

variable {w : ℕ} (poly : BitVec w)

/-! ## Bit by bit -/

/-- The register takes in a bit; if it differs from the one shifted out, the polynomial is added. -/
def bit (crc : BitVec w) (b : Bool) : BitVec w :=
  (crc <<< 1) ^^^ (if crc.msb ^^ b then poly else 0)

/-- The bits of a byte, the highest one first. -/
def bits (byte : UInt8) : List Bool := (List.range 8).map fun i => byte.toBitVec.getMsbD i

/-- What the register holds after the bytes. -/
def remainder (crc : BitVec w) (bytes : List UInt8) : BitVec w :=
  (bytes.flatMap bits).foldl (bit poly) crc

theorem remainder_append (crc : BitVec w) (xs ys : List UInt8) :
    remainder poly crc (xs ++ ys) = remainder poly (remainder poly crc xs) ys := by
  rw [remainder, List.flatMap_append, List.foldl_append]
  rfl

theorem bit_msb (crc : BitVec w) : bit poly crc crc.msb = crc <<< 1 := by
  rw [bit, Bool.xor_self, if_neg Bool.false_ne_true]
  exact BitVec.xor_zero

/-- A register that is fed its own bits shifts them out. -/
theorem foldl_bit_self (crc : BitVec w) (n : ℕ) :
    ((List.range n).map crc.getMsbD).foldl (bit poly) crc = crc <<< n := by
  induction n with
  | zero => rw [List.range_zero, List.map_nil, List.foldl_nil, BitVec.shiftLeft_zero]
  | succ n ih =>
      have hmsb : (crc <<< n).msb = crc.getMsbD n := by
        rw [BitVec.msb_eq_getMsbD_zero]
        simp
      rw [List.range_succ, List.map_append, List.foldl_append, ih, List.map_singleton,
        List.foldl_cons, List.foldl_nil, ← hmsb, bit_msb, BitVec.shiftLeft_add]

/-- The remainder behind the data makes the remainder of the whole zero. -/
theorem remainder_append_self {crc : BitVec w} {data tail : List UInt8}
    (htail : tail.flatMap bits = (List.range w).map (remainder poly crc data).getMsbD) :
    remainder poly crc (data ++ tail) = 0 := by
  rw [remainder_append, remainder, htail, foldl_bit_self, BitVec.shiftLeft_eq_zero le_rfl]
  rfl

/-! ## A byte at a time -/

/-- The register shifts once, with no bit taken in. -/
def shift (crc : BitVec w) : BitVec w := (crc <<< 1) ^^^ (if crc.msb then poly else 0)

/-- The entry of the table for a byte. -/
def table (i : BitVec 8) : BitVec w := (shift poly)^[8] (i.setWidth w <<< (w - 8))

/-- A byte taken in by way of the table. -/
def tableStep (crc : BitVec w) (byte : UInt8) : BitVec w :=
  (crc <<< 8) ^^^ table poly ((crc >>> (w - 8)).setWidth 8 ^^^ byte.toBitVec)

theorem shift_xor (x y : BitVec w) : shift poly (x ^^^ y) = shift poly x ^^^ shift poly y := by
  have hcancel (u v : BitVec w) : u ^^^ poly ^^^ (v ^^^ poly) = u ^^^ v := by
    calc u ^^^ poly ^^^ (v ^^^ poly) = u ^^^ v ^^^ (poly ^^^ poly) := by ac_rfl
      _ = u ^^^ v := by rw [BitVec.xor_self, BitVec.xor_zero]
  simp only [shift, BitVec.msb_xor, BitVec.shiftLeft_xor_distrib]
  cases x.msb <;> cases y.msb
  · simp
  · simp [BitVec.xor_assoc]
  · simp only [Bool.xor_false, if_true, Bool.false_eq_true, if_false]
    ac_rfl
  · simp [hcancel]

theorem iterate_shift_xor (n : ℕ) (x y : BitVec w) :
    (shift poly)^[n] (x ^^^ y) = (shift poly)^[n] x ^^^ (shift poly)^[n] y := by
  induction n generalizing x y with
  | zero => rfl
  | succ n ih => rw [Function.iterate_succ_apply, shift_xor, ih]; rfl

/-- Bits that come out as zeros are only shifted out. -/
theorem iterate_shift_of_clear {x : BitVec w} {n : ℕ} (h : ∀ i < n, x.getMsbD i = false) :
    (shift poly)^[n] x = x <<< n := by
  induction n with
  | zero => rw [BitVec.shiftLeft_zero]; rfl
  | succ n ih =>
      have hmsb : (x <<< n).msb = false := by
        rw [BitVec.msb_eq_getMsbD_zero]
        simpa using h n (Nat.lt_succ_self n)
      rw [Function.iterate_succ_apply', ih fun i hi => h i (Nat.lt_succ_of_lt hi), shift, hmsb,
        BitVec.shiftLeft_add]
      exact BitVec.xor_zero

/-- Taking in bits is adding them to the top of the register and shifting them out. -/
theorem foldl_bit_eq {bs : List Bool} (hlength : bs.length ≤ w) {x : BitVec w}
    (hx : ∀ i, x.getMsbD i = bs.getD i false) (crc : BitVec w) :
    bs.foldl (bit poly) crc = (shift poly)^[bs.length] (crc ^^^ x) := by
  induction bs generalizing crc x with
  | nil =>
      have hzero : x = 0 := BitVec.eq_of_getMsbD_eq fun i _ => by simp [hx]
      rw [hzero]
      exact BitVec.xor_zero.symm
  | cons b bs ih =>
      have htail : ∀ i, (x <<< 1).getMsbD i = bs.getD i false := fun i => by
        rw [BitVec.getMsbD_shiftLeft, hx, List.getD_cons_succ]
      have hbit : bit poly crc b = shift poly (crc ^^^ x) ^^^ x <<< 1 := by
        have hmsb : x.msb = b := by rw [BitVec.msb_eq_getMsbD_zero, hx, List.getD_cons_zero]
        rw [bit, shift, BitVec.msb_xor, hmsb, BitVec.shiftLeft_xor_distrib]
        generalize (if (crc.msb ^^ b) = true then poly else 0) = added
        calc crc <<< 1 ^^^ added
            = crc <<< 1 ^^^ added ^^^ (x <<< 1 ^^^ x <<< 1) := by
              rw [BitVec.xor_self, BitVec.xor_zero]
          _ = crc <<< 1 ^^^ x <<< 1 ^^^ added ^^^ x <<< 1 := by ac_rfl
      rw [List.foldl_cons, ih (Nat.le_of_succ_le hlength) htail, hbit, BitVec.xor_assoc,
        BitVec.xor_self, BitVec.xor_zero]
      rfl

theorem getD_bits (byte : UInt8) (i : ℕ) : (bits byte).getD i false = byte.toBitVec.getMsbD i := by
  rw [bits, List.getD_eq_getElem?_getD, List.getElem?_map]
  by_cases hi : i < 8
  · rw [List.getElem?_range hi]
    rfl
  · rw [List.getElem?_eq_none (by rw [List.length_range]; omega),
      BitVec.getMsbD_of_ge _ _ (by omega)]
    rfl

/-- A register is its low bits and, above them, its highest byte. -/
theorem split_high (hw : 8 ≤ w) (x : BitVec w) :
    x = (x <<< 8) >>> 8 ^^^ (((x >>> (w - 8)).setWidth 8).setWidth w <<< (w - 8)) := by
  apply BitVec.eq_of_getLsbD_eq
  intro i hi
  simp only [BitVec.getLsbD_xor, BitVec.getLsbD_ushiftRight, BitVec.getLsbD_shiftLeft,
    BitVec.getLsbD_setWidth]
  by_cases hhigh : w - 8 ≤ i
  · have hsub : w - 8 + (i - (w - 8)) = i := by omega
    simp [hi, hsub, show ¬ 8 + i < w by omega, show ¬ i < w - 8 by omega,
      show i - (w - 8) < w by omega, show i - (w - 8) < 8 by omega]
  · simp [hi, show 8 + i < w by omega, show i < w - 8 by omega]

/-- The table does to the register what the eight bits of the byte do. -/
theorem foldl_bits (hw : 8 ≤ w) (crc : BitVec w) (byte : UInt8) :
    (bits byte).foldl (bit poly) crc = tableStep poly crc byte := by
  have hbyte : ∀ i, (byte.toBitVec.setWidth w <<< (w - 8)).getMsbD i =
      (bits byte).getD i false := by
    intro i
    rw [getD_bits, BitVec.getMsbD_shiftLeft, BitVec.getMsbD_setWidth]
    have hindex : i + (w - 8) + 8 - w = i := by omega
    simp [hindex]
  have hlow : ∀ i < 8, ((crc <<< 8) >>> 8).getMsbD i = false := by
    intro i hi
    simp [BitVec.getMsbD_ushiftRight, hi]
  have hshift : ((crc <<< 8) >>> 8) <<< 8 = crc <<< 8 := by
    apply BitVec.eq_of_getMsbD_eq
    intro i hi
    rw [BitVec.getMsbD_shiftLeft, BitVec.getMsbD_ushiftRight, BitVec.getMsbD_shiftLeft,
      BitVec.getMsbD_shiftLeft]
    by_cases hin : i + 8 < w
    · simp [hin]
    · simp [BitVec.getMsbD_of_ge crc (i + 8) (by omega)]
  have hlength : (bits byte).length = 8 := rfl
  rw [foldl_bit_eq poly (hlength ▸ hw) hbyte, hlength, tableStep, table, BitVec.setWidth_xor,
    BitVec.shiftLeft_xor_distrib, iterate_shift_xor, iterate_shift_xor]
  conv_lhs => rw [split_high hw crc]
  rw [iterate_shift_xor, iterate_shift_of_clear poly hlow, hshift, BitVec.xor_assoc]

end Crc
