import MirrorCast.Verification.Bits.Reservoir

/-! # Sequences of calls of the two readers -/

namespace MirrorCast.Bits

open BitString BitReader

inductive Call where
  | getBitsGraceful (n : ℕ) (hn : n ≤ 32)
  | skipBits (n : ℤ)

/-- What a caller sees: the value returned, what is stored in `out`, and `overRead()` then. -/
structure Answer where
  returned : Bool
  out : Option (BitVec 32)
  overRead : Bool
  deriving DecidableEq, Repr

/-! ## Bit strings -/

/-- The number of bits a call asks for. -/
def Call.asked : Call → ℕ
  | .getBitsGraceful n _ => n
  | .skipBits n => n.toNat

/-- What a call stores if the bits in front are there. -/
def Call.stored (bits : List Bool) : Call → Option (BitVec 32)
  | .getBitsGraceful n _ => some (word 32 (bits.take n))
  | .skipBits _ => none

/-- The answers that the groups of a bit string give, up to the first call that asks for more bits
than remain. -/
def groups (bits : List Bool) : List Call → List Answer
  | [] => []
  | call :: calls =>
      if call.asked ≤ bits.length then
        ⟨true, call.stored bits, false⟩ :: groups (bits.drop call.asked) calls
      else [⟨false, none, true⟩]

/-! ## Readers -/

section Readers

variable {R : Type} [Refills R]

def Call.run (r : R) : Call → Answer × R
  | .getBitsGraceful n _ =>
      let (out, r) := BitReader.getBitsGraceful n r
      (⟨out.isSome, out, overRead r⟩, r)
  | .skipBits n =>
      let (skipped, r) := BitReader.skipBits n r
      (⟨skipped, none, overRead r⟩, r)

/-- The answers of a reader, up to the first `false`. -/
def answers (r : R) : List Call → List Answer
  | [] => []
  | call :: calls =>
      let (answer, r) := call.run r
      if answer.returned then answer :: answers r calls else [answer]

/-- One call. -/
theorem run_eq (r : R) (call : Call) (hover : overRead r = false) :
    (call.run r).1 = (if call.asked ≤ (bits r).length then ⟨true, call.stored (bits r), false⟩
      else ⟨false, none, true⟩) ∧ Advances r call.asked (call.run r).2 := by
  cases call with
  | getBitsGraceful n hn =>
      obtain ⟨hvalue, hadvances⟩ := getBitsGraceful_eq (n := n) (by omega) r
      rw [Int.toNat_natCast] at hvalue hadvances
      have hover' := hadvances.overRead_eq
      rw [hover, Bool.false_or] at hover'
      refine ⟨?_, hadvances⟩
      simp only [Call.run, hvalue, hover', group]
      change _ = if n ≤ (bits r).length then _ else _
      by_cases henough : n ≤ (bits r).length
      · rw [if_pos henough, if_pos henough, decide_eq_false (Nat.not_lt_of_le henough)]
        rfl
      · rw [if_neg henough, if_neg henough, decide_eq_true (Nat.lt_of_not_le henough)]
        rfl
  | skipBits n =>
      obtain ⟨hvalue, hadvances⟩ := skipBits_eq n r
      have hover' := hadvances.overRead_eq
      rw [hover, Bool.false_or] at hover'
      refine ⟨?_, hadvances⟩
      simp only [Call.run, hvalue, hover']
      change _ = if n.toNat ≤ (bits r).length then _ else _
      by_cases henough : n.toNat ≤ (bits r).length
      · rw [if_pos henough, decide_eq_true henough, decide_eq_false (Nat.not_lt_of_le henough)]
        rfl
      · rw [if_neg henough, decide_eq_false henough, decide_eq_true (Nat.lt_of_not_le henough)]

/-- A reader that is not over-read answers as its bits do. -/
theorem answers_eq (r : R) (calls : List Call) (hover : overRead r = false) :
    answers r calls = groups (bits r) calls := by
  induction calls generalizing r with
  | nil => rfl
  | cons call calls ih =>
      obtain ⟨hanswer, hadvances⟩ := run_eq r call hover
      simp only [answers, groups, hanswer]
      by_cases henough : call.asked ≤ (bits r).length
      · have hnext : overRead (call.run r).2 = false := by
          rw [hadvances.overRead_eq, hover, decide_eq_false (Nat.not_lt_of_le henough)]
          rfl
        rw [if_pos henough, if_pos henough, if_pos rfl, ih _ hnext, hadvances.bits_eq]
      · rw [if_neg henough, if_neg henough, if_neg Bool.false_ne_true]

end Readers

/-- Both readers read their bit strings: the bytes of the buffer, and those of its payload. -/
theorem readers_read_bit_strings (data : List UInt8) (calls : List Call) :
    (overRead (ABitReader.new data data.length (Nat.le_refl _)) = false ∧
      answers (ABitReader.new data data.length (Nat.le_refl _)) calls =
        groups (ofBytes data) calls) ∧
    (overRead (NALBitReader.new data data.length (Nat.le_refl _)) = false ∧
      answers (NALBitReader.new data data.length (Nat.le_refl _)) calls =
        groups (ofBytes (Rbsp.payload data)) calls) := by
  have hplain := answers_eq (ABitReader.new data data.length (Nat.le_refl _)) calls rfl
  have hnal := answers_eq (NALBitReader.new data data.length (Nat.le_refl _)) calls rfl
  rw [bits_new] at hplain
  rw [nal_bits_new] at hnal
  exact ⟨⟨rfl, hplain⟩, rfl, hnal⟩

end MirrorCast.Bits
