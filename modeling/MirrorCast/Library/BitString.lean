import MirrorCast.Library.Crc
import Mathlib.Tactic.Ring

/-! # Strings of bits

The highest bit of a word comes first. A string is read in groups, from its front. -/

namespace BitString

/-- The number that the bits are the binary digits of, the highest one first. -/
def value (bits : List Bool) : ℕ := bits.foldl (fun v b => 2 * v + b.toNat) 0

/-- The bits of a word. -/
def ofWord {w : ℕ} (x : BitVec w) : List Bool := (List.range w).map x.getMsbD

/-- The bits of bytes. -/
def ofBytes (bytes : List UInt8) : List Bool := bytes.flatMap Crc.bits

/-- The word whose low bits are the given ones. -/
def word (w : ℕ) (bits : List Bool) : BitVec w := BitVec.ofNat w (value bits)

/-- The next group of `n` bits, if there are so many. -/
def group (w n : ℕ) (bits : List Bool) : Option (BitVec w) :=
  if n ≤ bits.length then some (word w (bits.take n)) else none

/-! ## Numbers -/

@[simp] theorem value_nil : value [] = 0 := rfl

theorem value_concat (bits : List Bool) (b : Bool) :
    value (bits ++ [b]) = 2 * value bits + b.toNat := by
  rw [value, List.foldl_append]
  rfl

theorem value_append (xs ys : List Bool) :
    value (xs ++ ys) = value xs * 2 ^ ys.length + value ys := by
  induction ys using List.reverseRecOn with
  | nil => simp
  | append_singleton ys y ih =>
      rw [← List.append_assoc, value_concat, ih, value_concat, List.length_append,
        List.length_singleton, Nat.pow_succ]
      ring

theorem value_lt (bits : List Bool) : value bits < 2 ^ bits.length := by
  induction bits using List.reverseRecOn with
  | nil => simp
  | append_singleton bits b ih =>
      have hb := Bool.toNat_le b
      rw [value_concat, List.length_append, List.length_singleton, Nat.pow_succ]
      omega

theorem testBit_value (bits : List Bool) (i : ℕ) (hi : i < bits.length) :
    (value bits).testBit (bits.length - 1 - i) = bits[i] := by
  induction bits using List.reverseRecOn with
  | nil => simp at hi
  | append_singleton bits b ih =>
      rw [List.length_append, List.length_singleton] at hi
      simp only [List.length_append, List.length_singleton, Nat.add_sub_cancel, value_concat]
      by_cases hlast : i = bits.length
      · subst hlast
        cases b <;> simp [Nat.testBit_zero]
      · have hlt : i < bits.length := by omega
        have hsub : bits.length - i = bits.length - 1 - i + 1 := by omega
        have hdiv : (2 * value bits + b.toNat) / 2 = value bits := by
          have hb := Bool.toNat_lt b
          omega
        rw [hsub, Nat.testBit_succ, hdiv, ih hlt, List.getElem_append_left hlt]

/-! ## Words -/

@[simp] theorem length_ofWord {w : ℕ} (x : BitVec w) : (ofWord x).length = w := by
  simp [ofWord]

theorem getElem_ofWord {w : ℕ} (x : BitVec w) (i : ℕ) (hi : i < (ofWord x).length) :
    (ofWord x)[i] = x.getMsbD i := by
  simp [ofWord]

theorem ofWord_byte (byte : UInt8) : ofWord byte.toBitVec = Crc.bits byte := rfl

@[simp] theorem word_nil (w : ℕ) : word w [] = 0 := rfl

/-- Shifting a word and adding the next bits appends them. -/
theorem word_append (w : ℕ) (xs ys : List Bool) :
    word w xs <<< ys.length ||| word w ys = word w (xs ++ ys) := by
  apply BitVec.eq_of_toNat_eq
  have hor : value xs * 2 ^ ys.length + value ys = value xs * 2 ^ ys.length ||| value ys := by
    have hshift := Nat.shiftLeft_add_eq_or_of_lt (value_lt ys) (value xs)
    rwa [Nat.shiftLeft_eq] at hshift
  rw [BitVec.toNat_or, BitVec.toNat_shiftLeft, word, word, word, BitVec.toNat_ofNat,
    BitVec.toNat_ofNat, BitVec.toNat_ofNat, value_append, hor, Nat.or_mod_two_pow,
    Nat.shiftLeft_eq, Nat.mod_mul_mod]

/-- The first bits of a word are what a shift to the right leaves. -/
theorem word_take_ofWord {w : ℕ} (x : BitVec w) {n : ℕ} (hn : n ≤ w) :
    word w ((ofWord x).take n) = x >>> (w - n) := by
  have hvalue : value ((ofWord x).take n) = x.toNat / 2 ^ (w - n) := by
    induction n with
    | zero =>
        rw [List.take_zero, value_nil, Nat.sub_zero, Nat.div_eq_of_lt x.isLt]
    | succ n ih =>
        have hlength : n < (ofWord x).length := by
          rw [length_ofWord]
          omega
        have hsub : w - n = w - (n + 1) + 1 := by omega
        have hbit : x.getMsbD n = x.toNat.testBit (w - (n + 1)) := by
          rw [BitVec.getMsbD_eq_getLsbD, decide_eq_true (by omega), Bool.true_and, BitVec.getLsbD,
            show w - 1 - n = w - (n + 1) by omega]
        rw [List.take_add_one, List.getElem?_eq_getElem hlength, Option.toList_some, value_concat,
          ih (by omega), getElem_ofWord, hbit, hsub, Nat.pow_succ, ← Nat.div_div_eq_div_mul,
          Nat.toNat_testBit]
        omega
  apply BitVec.eq_of_toNat_eq
  rw [word, hvalue, BitVec.toNat_ofNat, BitVec.toNat_ushiftRight, Nat.shiftRight_eq_div_pow,
    Nat.mod_eq_of_lt ((Nat.div_le_self _ _).trans_lt x.isLt)]

theorem word_ofWord {w : ℕ} (x : BitVec w) : word w (ofWord x) = x := by
  have h := word_take_ofWord x le_rfl
  rwa [List.take_of_length_le (length_ofWord x).le, Nat.sub_self, BitVec.ushiftRight_zero] at h

/-- A shift to the left drops the first bits. -/
theorem take_ofWord_shiftLeft {w : ℕ} (x : BitVec w) (m n : ℕ) (h : m + n ≤ w) :
    (ofWord (x <<< m)).take n = ((ofWord x).drop m).take n := by
  apply List.ext_getElem
  · simp only [List.length_take, List.length_drop, length_ofWord]
    omega
  · intro i hi _
    simp only [List.getElem_take, List.getElem_drop, getElem_ofWord]
    rw [BitVec.getMsbD_shiftLeft, Nat.add_comm]

/-- Bits aligned to the left of a word are its first ones. -/
theorem take_ofWord_aligned {w : ℕ} (bits : List Bool) (h : bits.length ≤ w) :
    (ofWord (word w bits <<< (w - bits.length))).take bits.length = bits := by
  apply List.ext_getElem
  · simpa using h
  · intro i _ hi
    rw [List.getElem_take, getElem_ofWord, BitVec.getMsbD_shiftLeft, BitVec.getMsbD_eq_getLsbD,
      word, BitVec.getLsbD_ofNat, ← testBit_value bits i hi]
    simp only [show i + (w - bits.length) < w by omega,
      show w - 1 - (i + (w - bits.length)) = bits.length - 1 - i by omega,
      show bits.length - 1 - i < w by omega, decide_true, Bool.true_and]

/-! ## Bytes -/

@[simp] theorem ofBytes_nil : ofBytes [] = [] := rfl

@[simp] theorem ofBytes_cons (byte : UInt8) (bytes : List UInt8) :
    ofBytes (byte :: bytes) = Crc.bits byte ++ ofBytes bytes := List.flatMap_cons

theorem ofBytes_append (xs ys : List UInt8) : ofBytes (xs ++ ys) = ofBytes xs ++ ofBytes ys :=
  List.flatMap_append

@[simp] theorem length_ofBytes (bytes : List UInt8) : (ofBytes bytes).length = 8 * bytes.length := by
  induction bytes with
  | nil => rfl
  | cons byte bytes ih =>
      have hbyte : (Crc.bits byte).length = 8 := rfl
      rw [ofBytes_cons, List.length_append, ih, hbyte, List.length_cons]
      omega

/-- Shifting a word by a byte and adding the next one. -/
theorem word_push {w : ℕ} (bits : List Bool) (byte : UInt8) :
    word w bits <<< 8 ||| byte.toBitVec.setWidth w = word w (bits ++ Crc.bits byte) := by
  have hbyte : byte.toBitVec.setWidth w = word w (Crc.bits byte) := by
    apply BitVec.eq_of_toNat_eq
    have hvalue := congrArg BitVec.toNat (word_ofWord byte.toBitVec)
    have hlt : value (Crc.bits byte) < 2 ^ 8 := value_lt (Crc.bits byte)
    rw [ofWord_byte, word, BitVec.toNat_ofNat, Nat.mod_eq_of_lt hlt] at hvalue
    rw [BitVec.toNat_setWidth, word, BitVec.toNat_ofNat, hvalue]
  rw [hbyte]
  exact word_append w bits (Crc.bits byte)

end BitString
