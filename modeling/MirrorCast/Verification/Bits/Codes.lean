import MirrorCast.Library.ExpGolomb
import MirrorCast.Program.AvcUtils.Parsing
import MirrorCast.Verification.Bits.Reservoir

/-! # The parsers of Exp-Golomb codes

`parseSE` has the body that `parseUE` should have, and `parseUE` begins by calling itself. -/

namespace MirrorCast.Bits

open Java BitString ExpGolomb BitReader AvcUtils

section Readers

variable {R : Type} [Refills R]

/-! ## Counting zeros -/

theorem getBitsGraceful_group {n : ℤ} (hn : n ≤ 32) (r : R) :
    ∃ r', getBitsGraceful n r = (group 32 n.toNat (bits r), r') ∧
      bits r' = (bits r).drop n.toNat := by
  obtain ⟨hvalue, hadvances⟩ := getBitsGraceful_eq hn r
  exact ⟨_, Prod.ext hvalue rfl, hadvances.bits_eq⟩

theorem getBits_cons {r : R} {b : Bool} {rest : List Bool} (h : bits r = b :: rest) :
    ∃ r', getBits 1 r = (.ok (word 32 [b]), r') ∧
      getBitsWithFallback 1 1 r = (word 32 [b], r') ∧ bits r' = rest := by
  obtain ⟨r', hget, hbits⟩ := getBitsGraceful_group (n := 1) (by decide) r
  have hgroup : group 32 1 (bits r) = some (word 32 [b]) := by simp [group, h]
  rw [h] at hbits
  rw [Int.toNat_one, hgroup] at hget
  refine ⟨r', ?_, ?_, hbits⟩
  · rw [getBits, hget]
  · rw [getBitsWithFallback, hget]
    rfl

theorem getBits_nil {r : R} (h : bits r = []) :
    ∃ r', getBits 1 r = (.error .runtime, r') ∧ getBitsWithFallback 1 1 r = (1, r') ∧
      bits r' = [] := by
  obtain ⟨r', hget, hbits⟩ := getBitsGraceful_group (n := 1) (by decide) r
  rw [h] at hget hbits
  refine ⟨r', ?_, ?_, hbits⟩
  · rw [getBits, hget]
    rfl
  · rw [getBitsWithFallback, hget]
    rfl

/-- Both loops count the zeros as an `int` and stop behind the one that follows. Where none
follows, the first fails and the second takes the end for it. -/
theorem countZeroes_eq (r : R) {k : ℤ} (hk : int32 k = k) :
    ∃ r', countZeroes k r = (if (bits r).drop (leadingZeros (bits r)) = [] then .error .runtime
        else .ok (int32 (k + leadingZeros (bits r))), r') ∧
      countZeroesWithFallback k r = (int32 (k + leadingZeros (bits r)), r') ∧
      bits r' = (bits r).drop (leadingZeros (bits r) + 1) := by
  generalize hbits : bits r = bs
  induction bs generalizing r k with
  | nil =>
      obtain ⟨r', hget, hgetWith, hrest⟩ := getBits_nil hbits
      have hone : (1 : BitVec 32) ≠ 0 := by decide
      rw [countZeroes_of_error hget, countZeroesWithFallback_eq hgetWith, if_neg hone,
        leadingZeros_nil, Nat.cast_zero, add_zero, hk]
      exact ⟨r', rfl, rfl, hrest⟩
  | cons b bs ih =>
      obtain ⟨r', hget, hgetWith, hrest⟩ := getBits_cons hbits
      rw [countZeroes_of_ok hget, countZeroesWithFallback_eq hgetWith]
      cases b with
      | true =>
          have hone : word 32 [true] ≠ 0 := by decide
          rw [if_neg hone, if_neg hone, leadingZeros_true, Nat.cast_zero, add_zero, hk]
          exact ⟨r', rfl, rfl, hrest⟩
      | false =>
          have hwrap : int32 (int32 (k + 1)) = int32 (k + 1) := by
            simpa using int32_int32_add (k + 1) 0
          have hsum : int32 (int32 (k + 1) + leadingZeros bs) =
              int32 (k + leadingZeros (false :: bs)) := by
            rw [int32_int32_add, leadingZeros_false, Nat.cast_succ, add_assoc, add_comm (1 : ℤ)]
          have hzero : word 32 [false] = 0 := by decide
          obtain ⟨r'', hcount, hcountWith, hsuffix⟩ := ih r' hwrap hrest
          rw [hsum] at hcount hcountWith
          rw [if_pos hzero, if_pos hzero, hcount, hcountWith]
          exact ⟨r'', rfl, rfl, hsuffix⟩

theorem int32_zero : int32 0 = 0 := int32_eq (by decide) (by decide)

/-! ## What is read -/

/-- The number of zeros in front, as the code counts them. -/
def zeroCount (bs : List Bool) : ℤ := int32 (leadingZeros bs)

/-- The bits behind the one that follows the zeros. -/
def suffix (bs : List Bool) : List Bool := bs.drop (leadingZeros bs + 1)

/-- The bits of the code word behind the one. -/
def tail (bs : List Bool) : List Bool := (suffix bs).take (zeroCount bs).toNat

/-- The code number, as the code computes it. -/
def number (bs : List Bool) : BitVec 32 := word 32 (tail bs) + oneShifted (zeroCount bs) - 1

/-- The parsers with a fallback find a code word; the end of the bits counts as a one. -/
def Readable (bs : List Bool) : Prop := zeroCount bs < 32 ∧ zeroCount bs ≤ (suffix bs).length

/-- A one follows the zeros. -/
def HasOne (bs : List Bool) : Prop := bs.drop (leadingZeros bs) ≠ []

theorem parseUEWithFallback_of_readable {r : R} (h : Readable (bits r)) (fallback : BitVec 32) :
    ∃ r', parseUEWithFallback r fallback = (number (bits r), r') ∧
      bits r' = (suffix (bits r)).drop (zeroCount (bits r)).toNat ∧
      (HasOne (bits r) → parseSE r = (.ok (number (bits r)), r')) := by
  obtain ⟨r', hcount, hcountWith, hsuffix⟩ := countZeroes_eq r int32_zero
  rw [zero_add, ← zeroCount] at hcount hcountWith
  obtain ⟨r'', hget, hbits⟩ := getBitsGraceful_group h.1.le r'
  have hgroup : group 32 (zeroCount (bits r)).toNat (bits r') = some (word 32 (tail (bits r))) := by
    rw [group, hsuffix, ← suffix, if_pos (Int.toNat_le.mpr h.2), ← tail]
  rw [hgroup] at hget
  rw [hsuffix, ← suffix] at hbits
  refine ⟨r'', parseUEWithFallback_of_some hcountWith h.1 hget fallback, hbits, fun hone => ?_⟩
  rw [HasOne] at hone
  rw [if_neg hone] at hcount
  exact parseSE_of_ok hcount hget

theorem parseUEWithFallback_of_not_readable {r : R} (h : ¬ Readable (bits r))
    (fallback : BitVec 32) : (parseUEWithFallback r fallback).1 = fallback := by
  obtain ⟨r', -, hcountWith, hsuffix⟩ := countZeroes_eq r int32_zero
  rw [zero_add, ← zeroCount] at hcountWith
  apply parseUEWithFallback_of_none hcountWith
  intro hfew
  rw [(getBitsGraceful_eq hfew.le r').1, group, hsuffix, if_neg]
  intro henough
  exact h ⟨hfew, Int.toNat_le.mp henough⟩

theorem parseSE_of_not_hasOne {r : R} (h : ¬ HasOne (bits r)) :
    (parseSE r).1 = .error .runtime := by
  obtain ⟨r', hcount, -, -⟩ := countZeroes_eq r int32_zero
  rw [if_pos (not_not.mp h)] at hcount
  rw [parseSE, hcount]

end Readers

/-! ## Numbers -/

theorem exponent_eq (bs : List Bool) : (zeroCount bs % 32).toNat = leadingZeros bs % 32 := by
  have hmod := int32_emod (leadingZeros bs : ℤ)
  rw [← zeroCount] at hmod
  omega

theorem value_tail_lt {bs : List Bool} (h : zeroCount bs < 32) :
    value (tail bs) < 2 ^ (leadingZeros bs % 32) := by
  have hlength : (tail bs).length ≤ leadingZeros bs % 32 := by
    have hexponent := exponent_eq bs
    rw [tail, List.length_take]
    omega
  exact Nat.lt_of_lt_of_le (value_lt _) (Nat.pow_le_pow_right Nat.two_pos hlength)

theorem toNat_number {bs : List Bool} (h : zeroCount bs < 32) :
    (number bs).toNat = value (tail bs) + 2 ^ (leadingZeros bs % 32) - 1 := by
  have hlt := value_tail_lt h
  have hpos := Nat.two_pow_pos (leadingZeros bs % 32)
  have hle : 2 ^ (leadingZeros bs % 32) ≤ 2 ^ 31 := Nat.pow_le_pow_right Nat.two_pos (by omega)
  have hone : (oneShifted (zeroCount bs)).toNat = 2 ^ (leadingZeros bs % 32) := by
    rw [oneShifted, exponent_eq, BitVec.toNat_shiftLeft, Nat.shiftLeft_eq, BitVec.toNat_ofNat]
    omega
  rw [number, BitVec.toNat_sub, BitVec.toNat_add, hone, word, BitVec.toNat_ofNat]
  generalize 2 ^ (leadingZeros bs % 32) = p at *
  generalize value (tail bs) = v at *
  have hword : v % 2 ^ 32 = v := Nat.mod_eq_of_lt (by omega)
  rw [hword]
  change (2 ^ 32 - 1 + (v + p) % 2 ^ 32) % 2 ^ 32 = v + p - 1
  omega

/-- The code number is zero or one. -/
def IsSmall (bs : List Bool) : Prop :=
  leadingZeros bs % 32 = 0 ∨ leadingZeros bs % 32 = 1 ∧ value (tail bs) = 0

theorem isSmall_iff {bs : List Bool} (h : zeroCount bs < 32) :
    IsSmall bs ↔ (number bs).toNat ≤ 1 := by
  have hlt := value_tail_lt h
  rw [toNat_number h, IsSmall]
  generalize leadingZeros bs % 32 = e at *
  generalize value (tail bs) = v at *
  match e with
  | 0 =>
      rw [Nat.pow_zero] at *
      omega
  | 1 =>
      rw [Nat.pow_one] at *
      omega
  | e + 2 =>
      have hpos := Nat.two_pow_pos e
      rw [Nat.pow_succ, Nat.pow_succ] at *
      omega

theorem number_ne {bs : List Bool} (h : zeroCount bs < 32) : number bs ≠ ~~~0 := by
  intro heq
  have hlt := value_tail_lt h
  have hle : 2 ^ (leadingZeros bs % 32) ≤ 2 ^ 31 := Nat.pow_le_pow_right Nat.two_pos (by omega)
  have hnat := toNat_number h
  have hones : (~~~0 : BitVec 32).toNat = 2 ^ 32 - 1 := by decide
  rw [heq, hones] at hnat
  omega

theorem toInt_half (x : BitVec 32) (hx : x.toInt % 2 = 0) : (x.sdiv 2).toInt = x.toInt / 2 := by
  have htwo : (2 : BitVec 32).toInt = 2 := by decide
  rw [BitVec.toInt_sdiv_of_ne_or_ne x 2 (.inr (by decide)), htwo,
    Int.tdiv_eq_ediv_of_dvd (Int.dvd_of_emod_eq_zero hx)]

/-- The mapping to signed values keeps zero and one only. -/
theorem signedOf_eq_self_iff (c : BitVec 32) : signedOf c = c ↔ c.toNat ≤ 1 := by
  have hone : (1 : BitVec 32).toNat = 1 := by decide
  have hodd : c &&& 1 ≠ 0 ↔ c.toNat % 2 = 1 := by
    rw [ne_eq, ← BitVec.toNat_inj, BitVec.toNat_and, hone, Nat.and_one_is_mod]
    exact Nat.mod_two_ne_zero
  have hlt := c.isLt
  have hint : c.toInt = if c.toNat < 2 ^ 31 then (c.toNat : ℤ) else c.toNat - 2 ^ 32 := by
    rw [BitVec.toInt_eq_toNat_cond]
    split <;> split <;> omega
  rw [signedOf, ← BitVec.toInt_inj]
  split
  · rename_i h
    have hparity := hodd.mp h
    have hsucc : (c + 1).toInt = int32 (c.toInt + 1) := by
      rw [BitVec.toInt_add]
      rfl
    have hvalue : int32 (c.toInt + 1) = c.toInt + 1 ∨
        c.toInt = 2 ^ 31 - 1 ∧ int32 (c.toInt + 1) = -2 ^ 31 := by
      by_cases hmax : c.toInt = 2 ^ 31 - 1
      · exact .inr ⟨hmax, by rw [hmax, int32_wraps] <;> decide⟩
      · exact .inl (int32_eq (by split at hint <;> omega) (by split at hint <;> omega))
    have heven : (c + 1).toInt % 2 = 0 := by
      rw [hsucc]
      split at hint <;> omega
    rw [toInt_half _ heven, hsucc]
    split at hint <;> omega
  · rename_i h
    have hparity : c.toNat % 2 = 0 := by
      have hcases := Nat.mod_two_eq_zero_or_one c.toNat
      tauto
    have heven : c.toInt % 2 = 0 := by split at hint <;> omega
    have hneg : (-(c.sdiv 2)).toInt = int32 (-(c.toInt / 2)) := by
      rw [BitVec.toInt_neg, toInt_half c heven]
      rfl
    have hvalue : int32 (-(c.toInt / 2)) = -(c.toInt / 2) :=
      int32_eq (by split at hint <;> omega) (by split at hint <;> omega)
    rw [hneg, hvalue]
    split at hint <;> omega

/-! ## How the parsers end -/

/-- No stack is enough. -/
theorem parseUE_eq_none {R : Type} (frames : ℕ) (r : R) : parseUE frames r = none := by
  induction frames with
  | zero => rfl
  | succ frames ih => rw [parseUE, ih]

section Ends

variable {R : Type} [BitReader R]

theorem eq_runtime_of_getBits {n : ℤ} {r r' : R} {e : JavaException}
    (h : getBits n r = (.error e, r')) : e = .runtime := by
  unfold getBits at h
  split at h
  · cases h
  · cases h
    rfl

theorem eq_runtime_of_countZeroes {k : ℤ} {r r' : R} {e : JavaException}
    (h : countZeroes k r = (.error e, r')) : e = .runtime := by
  fun_induction countZeroes k r with
  | case1 k r e r' hget =>
      cases h
      exact eq_runtime_of_getBits hget
  | case2 k r r' hget ih => exact ih h
  | case3 k r bit r' hget hbit => cases h

theorem eq_runtime_of_parseSE {r r' : R} {e : JavaException}
    (h : parseSE r = (.error e, r')) : e = .runtime := by
  unfold parseSE at h
  split at h
  · rename_i hcount
    cases h
    exact eq_runtime_of_countZeroes hcount
  · split at h
    · rename_i hget
      cases h
      exact eq_runtime_of_getBits hget
    · cases h

end Ends

/-! ## The parsers -/

section Parsers

variable {R : Type} [Refills R]

/-- What is asked of a parser: it returns or fails a check, it gives the value of the first code word
and goes behind it, and it agrees with its sibling where that does not return the fallback. -/
structure Parses (r : R) (value : ℕ → BitVec 32) (withFallback : BitVec 32 → BitVec 32 × R)
    (outcome : Option (Except JavaException (BitVec 32) × R)) : Prop where
  ends : ∃ result r', outcome = some (result, r') ∧ ∀ e, result = .error e → e = .runtime
  decodes : ∀ codeNum rest, decode (bits r) = some (codeNum, rest) →
    leadingZeros (bits r) < 32 → ∃ r', outcome = some (.ok (value codeNum), r') ∧ bits r' = rest
  agrees : ∀ fallback, (withFallback fallback).1 ≠ fallback →
    ∃ r', outcome = some (.ok (withFallback fallback).1, r') ∧
      bits r' = bits (withFallback fallback).2

/-- With stack enough, `parseUE` parses unsigned codes. -/
def ParsesUnsigned (r : R) : Prop :=
  ∃ frames, Parses r (BitVec.ofNat 32) (parseUEWithFallback r) (parseUE frames r)

/-- `parseSE` parses signed codes. -/
def ParsesSigned (r : R) : Prop :=
  Parses r (fun codeNum => BitVec.ofInt 32 (signed codeNum)) (parseSEWithFallback r)
    (some (parseSE r))

theorem not_parsesUnsigned (r : R) : ¬ ParsesUnsigned r := by
  intro h
  obtain ⟨frames, hparses⟩ := h
  obtain ⟨result, r', houtcome, -⟩ := hparses.ends
  rw [parseUE_eq_none] at houtcome
  cases houtcome

theorem parseSEWithFallback_of_readable {r : R} (h : Readable (bits r)) (fallback : BitVec 32) :
    ∃ r', parseSEWithFallback r fallback = (signedOf (number (bits r)), r') ∧
      bits r' = (suffix (bits r)).drop (zeroCount (bits r)).toNat ∧
      (HasOne (bits r) → parseSE r = (.ok (number (bits r)), r')) := by
  obtain ⟨r', hparse, hrest, hsame⟩ := parseUEWithFallback_of_readable h (~~~0)
  refine ⟨r', ?_, hrest, hsame⟩
  simp only [parseSEWithFallback, hparse]
  rw [if_neg (number_ne h.1)]

theorem parseSEWithFallback_of_not_readable {r : R} (h : ¬ Readable (bits r))
    (fallback : BitVec 32) : (parseSEWithFallback r fallback).1 = fallback := by
  have hparse := parseUEWithFallback_of_not_readable h (~~~0)
  simp only [parseSEWithFallback, hparse]
  rfl

/-- A whole code word with fewer than 32 zeros. -/
theorem readable_of_decode {bs rest : List Bool} {codeNum : ℕ}
    (h : decode bs = some (codeNum, rest)) (hzeros : leadingZeros bs < 32) :
    Readable bs ∧ HasOne bs ∧ (number bs).toNat = codeNum ∧
      (suffix bs).drop (zeroCount bs).toNat = rest := by
  obtain ⟨behind, hone, hlength, hvalue, hrest⟩ := decode_eq_some h
  have hcount : zeroCount bs = leadingZeros bs := int32_natCast (by omega)
  have hsuffix : suffix bs = behind := by rw [suffix, ← List.drop_drop, hone, List.drop_one]; rfl
  have htail : tail bs = behind.take (leadingZeros bs) := by
    rw [tail, hsuffix, hcount, Int.toNat_natCast]
  have hfew : zeroCount bs < 32 := by omega
  refine ⟨⟨hfew, ?_⟩, ?_, ?_, ?_⟩
  · rw [hsuffix, hcount]
    exact_mod_cast hlength
  · rw [HasOne, hone]
    exact List.cons_ne_nil _ _
  · have hpos := Nat.two_pow_pos (leadingZeros bs)
    rw [toNat_number hfew, htail, Nat.mod_eq_of_lt hzeros, hvalue]
    omega
  · rw [hsuffix, hcount, Int.toNat_natCast, hrest]

/-- If a sibling gives `x` on readable strings and the fallback on all others, `parseSE` parses like
it where that is its own number. -/
theorem parses_iff {r : R} (value : ℕ → BitVec 32) {withFallback : BitVec 32 → BitVec 32 × R}
    {x : BitVec 32}
    (hread : Readable (bits r) → ∀ fallback, ∃ r', withFallback fallback = (x, r') ∧
      bits r' = (suffix (bits r)).drop (zeroCount (bits r)).toNat ∧
      (HasOne (bits r) → parseSE r = (.ok (number (bits r)), r')))
    (hnot : ¬ Readable (bits r) → ∀ fallback, (withFallback fallback).1 = fallback)
    (hvalue : x = number (bits r) → value (number (bits r)).toNat = number (bits r)) :
    Parses r value withFallback (some (parseSE r)) ↔
      (Readable (bits r) → HasOne (bits r) ∧ x = number (bits r)) := by
  constructor
  · intro hparses hreadable
    obtain ⟨r', hwith, -, hone⟩ := hread hreadable (x + 1)
    have hne : x ≠ x + 1 := by
      intro h
      simp at h
    obtain ⟨r'', hparse, -⟩ := hparses.agrees (x + 1) (by rwa [hwith])
    rw [hwith] at hparse
    have hparse := Option.some.inj hparse
    by_cases h : HasOne (bits r)
    · rw [hone h] at hparse
      exact ⟨h, (Except.ok.inj (Prod.mk.inj hparse).1).symm⟩
    · have herror := parseSE_of_not_hasOne h
      rw [hparse] at herror
      cases herror
  · intro h
    refine ⟨⟨_, _, rfl, fun e he => eq_runtime_of_parseSE (Prod.ext he rfl)⟩, ?_, ?_⟩
    · intro codeNum rest hdecode hzeros
      obtain ⟨hreadable, hone, hnumber, hrest⟩ := readable_of_decode hdecode hzeros
      obtain ⟨r', -, hbits, hparse⟩ := hread hreadable 0
      rw [hparse hone, ← hnumber, hvalue (h hreadable).2, ← hrest]
      exact ⟨r', rfl, hbits⟩
    · intro fallback hfallback
      have hreadable : Readable (bits r) := by
        by_contra hunreadable
        exact hfallback (hnot hunreadable fallback)
      obtain ⟨r', hwith, -, hparse⟩ := hread hreadable fallback
      obtain ⟨hone, hx⟩ := h hreadable
      rw [hwith, hparse hone, ← hx]
      exact ⟨r', rfl, rfl⟩

theorem ofInt_signed {c : BitVec 32} (h : signedOf c = c) :
    BitVec.ofInt 32 (signed c.toNat) = c := by
  have hsmall := (signedOf_eq_self_iff c).mp h
  have hcases : c = 0 ∨ c = 1 := by
    rcases Nat.le_one_iff_eq_zero_or_eq_one.mp hsmall with hzero | hone
    · exact .inl (BitVec.eq_of_toNat_eq hzero)
    · exact .inr (BitVec.eq_of_toNat_eq hone)
  rcases hcases with rfl | rfl <;> decide

theorem parsesSigned_iff (r : R) :
    ParsesSigned r ↔ (Readable (bits r) → HasOne (bits r) ∧ IsSmall (bits r)) := by
  have hiff := parses_iff (fun codeNum => BitVec.ofInt 32 (signed codeNum))
    parseSEWithFallback_of_readable parseSEWithFallback_of_not_readable
    (ofInt_signed (c := number (bits r)))
  rw [ParsesSigned, hiff]
  apply forall_congr'
  intro hreadable
  rw [signedOf_eq_self_iff, isSmall_iff hreadable.1]

end Parsers

/-- `parseUE` never parses, and `parseSE`, which lacks the mapping to signed values, only where the
code number is zero or one or no code word is found. -/
theorem parsers_parse_iff (r : ABitReader) : ¬ (ParsesUnsigned r ∧ ParsesSigned r) ∧
    (∀ frames, parseUE frames r = none) ∧
    (ParsesSigned r ↔ (Readable (bits r) → HasOne (bits r) ∧ IsSmall (bits r))) :=
  ⟨fun h => not_parsesUnsigned r h.1, fun frames => parseUE_eq_none frames r, parsesSigned_iff r⟩

/-- The code word 011 has the number 2, which is -1 as a signed one; `parseSE` gives 2. -/
theorem parsers_fail_on_two :
    ¬ ParsesUnsigned (ABitReader.new [0x60] 1 (by decide)) ∧
      ¬ ParsesSigned (ABitReader.new [0x60] 1 (by decide)) := by
  refine ⟨not_parsesUnsigned _, fun h => ?_⟩
  have hbits : bits (ABitReader.new [0x60] 1 (by decide)) = ofBytes [0x60] := bits_new [0x60]
  obtain ⟨r', hparse, -⟩ := h.decodes 2 [false, false, false, false, false]
    (by rw [hbits]; decide) (by rw [hbits]; decide)
  have hvalue := congrArg Prod.fst (Option.some.inj hparse)
  dsimp only at hvalue
  revert hvalue
  decide +kernel

end MirrorCast.Bits
