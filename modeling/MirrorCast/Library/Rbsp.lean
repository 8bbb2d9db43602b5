import Mathlib.Data.List.Basic
import Mathlib.Tactic.Common

/-! # Emulation prevention in NAL units

No two zero bytes of a NAL unit may be followed by a byte below four, so the encoder puts a byte
three between them. What is left without these bytes is the raw payload. -/

namespace Rbsp

/-- The payload in the bytes of a NAL unit: a three behind two zeros is left out. -/
def payload : List UInt8 → List UInt8
  | a :: b :: c :: rest =>
      if a = 0 ∧ b = 0 ∧ c = 3 then a :: b :: payload rest else a :: payload (b :: c :: rest)
  | bytes => bytes

/-- The payload in bytes in front of which there is a run of zeros. -/
def payloadAfter (zeros : ℕ) : List UInt8 → List UInt8
  | [] => []
  | b :: rest =>
      if 2 ≤ zeros ∧ b = 3 then payloadAfter 0 rest
      else b :: payloadAfter (if b = 0 then zeros + 1 else 0) rest

/-! ## The payload read byte by byte -/

theorem payload_cons_of_ne {a : UInt8} (ha : a ≠ 0) (rest : List UInt8) :
    payload (a :: rest) = a :: payload rest := by
  match rest with
  | [] => rfl
  | [_] => rfl
  | b :: c :: rest =>
      rw [payload, if_neg]
      exact fun h => ha h.1

theorem payload_zero_cons {b : UInt8} (hb : b ≠ 0) (rest : List UInt8) :
    payload (0 :: b :: rest) = 0 :: payload (b :: rest) := by
  match rest with
  | [] => rfl
  | c :: rest =>
      rw [payload, if_neg]
      exact fun h => hb h.2.1

theorem payload_zeros_cons {b : UInt8} (hb : b ≠ 3) (rest : List UInt8) :
    payload (0 :: 0 :: b :: rest) = 0 :: payload (0 :: b :: rest) := by
  rw [payload, if_neg]
  exact fun h => hb h.2.2

/-- Behind two zeros or more a three is left out. -/
theorem payload_zeros_three (n : ℕ) (rest : List UInt8) :
    payload (List.replicate (n + 2) 0 ++ 3 :: rest) = List.replicate (n + 2) 0 ++ payload rest := by
  induction n with
  | zero => simp [payload]
  | succ n ih =>
      have hzeros : List.replicate (n + 1 + 2) (0 : UInt8) ++ 3 :: rest =
          0 :: 0 :: 0 :: (List.replicate n 0 ++ 3 :: rest) := rfl
      rw [hzeros, payload_zeros_cons (by decide)]
      exact congrArg (List.cons 0) ih

/-- Any other byte that is not zero ends the run. -/
theorem payload_zeros_other (n : ℕ) {b : UInt8} (hb : b ≠ 0) (hother : ¬ (2 ≤ n ∧ b = 3))
    (rest : List UInt8) :
    payload (List.replicate n 0 ++ b :: rest) = List.replicate n 0 ++ b :: payload rest := by
  induction n with
  | zero => exact payload_cons_of_ne hb rest
  | succ n ih =>
      have ih := ih fun h => hother ⟨Nat.le_succ_of_le h.1, h.2⟩
      have hstep : payload (0 :: (List.replicate n 0 ++ b :: rest)) =
          0 :: payload (List.replicate n 0 ++ b :: rest) := by
        match n with
        | 0 => exact payload_zero_cons hb rest
        | 1 => exact payload_zeros_cons (fun h => hother ⟨Nat.le_refl 2, h⟩) rest
        | _ + 2 => exact payload_zeros_cons (by decide) _
      rw [List.replicate_succ, List.cons_append, hstep, ih, List.cons_append]

theorem payload_replicate (n : ℕ) : payload (List.replicate n 0) = List.replicate n 0 := by
  match n with
  | 0 => rfl
  | 1 => rfl
  | 2 => rfl
  | n + 3 =>
      have ih := payload_replicate (n + 2)
      have hzeros : List.replicate (n + 3) (0 : UInt8) = 0 :: 0 :: 0 :: List.replicate n 0 := rfl
      rw [hzeros, payload_zeros_cons (by decide)]
      exact congrArg (List.cons 0) ih

/-- The zeros in front belong to the payload, and with their number known the rest can be read
without looking back. -/
theorem payload_zeros_append (zeros : ℕ) (bytes : List UInt8) :
    payload (List.replicate zeros 0 ++ bytes) =
      List.replicate zeros 0 ++ payloadAfter zeros bytes := by
  induction bytes generalizing zeros with
  | nil => rw [payloadAfter, List.append_nil, payload_replicate]
  | cons b rest ih =>
      rw [payloadAfter]
      split
      · rename_i hthree
        obtain ⟨n, rfl⟩ := Nat.exists_eq_add_of_le' hthree.1
        rw [hthree.2, payload_zeros_three]
        exact congrArg _ (ih 0)
      · rename_i hother
        by_cases hb : b = 0
        · have hzeros : List.replicate zeros (0 : UInt8) ++ 0 :: rest =
              List.replicate (zeros + 1) 0 ++ rest := by
            rw [List.replicate_succ', List.append_assoc, List.singleton_append]
          rw [if_pos hb, hb, hzeros, ih, List.replicate_succ', List.append_assoc,
            List.singleton_append]
        · rw [if_neg hb, payload_zeros_other zeros hb hother]
          exact congrArg (fun bytes => List.replicate zeros 0 ++ b :: bytes) (ih 0)

theorem payloadAfter_zero (bytes : List UInt8) : payloadAfter 0 bytes = payload bytes :=
  (payload_zeros_append 0 bytes).symm

end Rbsp
