import MirrorCast.Library.BitString

/-! # Exponential Golomb codes

A code word is a run of zeros, a one, and as many bits again as there are zeros. -/

namespace ExpGolomb

open BitString

def leadingZeros (bits : List Bool) : ℕ := (bits.takeWhile fun b => !b).length

/-- The code number of the first code word, and the bits behind it. -/
def decode (bits : List Bool) : Option (ℕ × List Bool) :=
  let zeros := leadingZeros bits
  match bits.drop zeros with
  | [] => none
  | _ :: suffix =>
      if zeros ≤ suffix.length then
        some (2 ^ zeros - 1 + value (suffix.take zeros), suffix.drop zeros)
      else none

/-- The value of a code number in the signed codes: 1, -1, 2, -2, … -/
def signed (codeNum : ℕ) : ℤ :=
  if codeNum % 2 = 1 then ((codeNum + 1) / 2 : ℕ) else -(codeNum / 2 : ℕ)

@[simp] theorem leadingZeros_nil : leadingZeros [] = 0 := rfl

@[simp] theorem leadingZeros_false (bits : List Bool) :
    leadingZeros (false :: bits) = leadingZeros bits + 1 := rfl

@[simp] theorem leadingZeros_true (bits : List Bool) : leadingZeros (true :: bits) = 0 := rfl

/-- Behind the leading zeros comes a one, or nothing. -/
theorem drop_leadingZeros (bits : List Bool) :
    bits.drop (leadingZeros bits) = [] ∨
      ∃ suffix, bits.drop (leadingZeros bits) = true :: suffix := by
  induction bits with
  | nil => exact .inl rfl
  | cons b bits ih =>
      cases b with
      | false => exact ih
      | true => exact .inr ⟨bits, rfl⟩

/-- A code word that is there is a one behind the zeros and enough bits behind it. -/
theorem decode_eq_some {bits rest : List Bool} {codeNum : ℕ}
    (h : decode bits = some (codeNum, rest)) :
    ∃ suffix, bits.drop (leadingZeros bits) = true :: suffix ∧
      leadingZeros bits ≤ suffix.length ∧
      codeNum = 2 ^ leadingZeros bits - 1 + value (suffix.take (leadingZeros bits)) ∧
      rest = suffix.drop (leadingZeros bits) := by
  rcases drop_leadingZeros bits with hnone | ⟨suffix, hsome⟩
  · simp [decode, hnone] at h
  · simp only [decode, hsome] at h
    split at h
    · rename_i hlength
      cases h
      exact ⟨suffix, hsome, hlength, rfl, rfl⟩
    · cases h

end ExpGolomb
