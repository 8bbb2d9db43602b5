import Mathlib.Data.List.Basic
import Mathlib.Data.Int.Notation
import Mathlib.Tactic.Linarith
import Mathlib.Tactic.Ring

/-! # Java values: fixed-width integers, arrays and exceptions -/

namespace Java

/-- The unchecked exceptions the modelled code can raise. -/
inductive JavaException where
  | runtime
  | arrayIndexOutOfBounds
  | stringIndexOutOfBounds
  | negativeArraySize
  | bufferOverflow
  | bufferUnderflow
  | illegalArgument
  | numberFormat
  | nullPointer
  | noSuchElement
  deriving DecidableEq, Repr

/-- `throws` reports whether a computation ended in an exception. -/
def throws {ε α : Type*} : Except ε α → Bool
  | .ok _ => false
  | .error _ => true

@[simp] theorem throws_ok {ε α : Type*} (a : α) : throws (.ok a : Except ε α) = false := rfl

@[simp] theorem throws_error {ε α : Type*} (e : ε) : throws (.error e : Except ε α) = true := rfl

universe u v

@[simp] theorem ok_bind {ε : Type v} {α β : Type u} (a : α) (f : α → Except ε β) :
    (Except.ok a >>= f) = f a := by
  simp only [bind, Except.bind]

@[simp] theorem error_bind {ε : Type v} {α β : Type u} (e : ε) (f : α → Except ε β) :
    (Except.error e >>= f) = .error e := by
  simp only [bind, Except.bind]

/-- A sequence returns only if both of its parts do. -/
theorem bind_eq_ok {ε : Type v} {α β : Type u} {x : Except ε α} {f : α → Except ε β} {b : β} :
    (x >>= f) = .ok b ↔ ∃ a, x = .ok a ∧ f a = .ok b := by
  cases x with
  | error e => simp
  | ok a => simp

/-- The computation ends without an exception. -/
def Returns {ε α : Type*} (x : Except ε α) : Prop := ∃ a, x = .ok a

@[simp] theorem returns_ok {ε α : Type*} (a : α) : Returns (.ok a : Except ε α) := ⟨a, rfl⟩

@[simp] theorem not_returns_error {ε α : Type*} (e : ε) : ¬ Returns (.error e : Except ε α) :=
  nofun

theorem returns_bind {ε : Type v} {α β : Type u} {x : Except ε α} {f : α → Except ε β} :
    Returns (x >>= f) ↔ ∃ a, x = .ok a ∧ Returns (f a) := by
  simp only [Returns, bind_eq_ok]
  tauto

theorem returns_bind_iff {ε : Type v} {α β : Type u} {x : Except ε α} {f : α → Except ε β}
    (hf : ∀ a, Returns (f a)) : Returns (x >>= f) ↔ Returns x := by
  rw [returns_bind]
  exact exists_congr fun a => and_iff_left (hf a)

/-- A traversal whose every call returns. -/
theorem mapM_ok {ε α β : Type*} {f : α → Except ε β} {g : α → β} {xs : List α}
    (h : ∀ x ∈ xs, f x = .ok (g x)) : xs.mapM f = .ok (xs.map g) := by
  induction xs with
  | nil => rfl
  | cons x xs ih =>
      rw [List.mapM_cons, h x (by simp), ih (fun y hy => h y (by simp [hy]))]
      rfl

/-! ## Integers -/

/-- The value kept by a 32-bit `int`. -/
def int32 (x : ℤ) : ℤ := x.bmod (2 ^ 32)

/-- The value kept by a 64-bit `long`. -/
def int64 (x : ℤ) : ℤ := x.bmod (2 ^ 64)

/-- The narrowing cast `(byte) x`, as the eight bits it keeps. -/
def toByte (x : ℤ) : UInt8 := UInt8.ofNat (x % 256).toNat

theorem int32_eq {x : ℤ} (hlo : -2 ^ 31 ≤ x) (hhi : x < 2 ^ 31) : int32 x = x := by
  unfold int32
  rw [Int.bmod_eq_of_le] <;> omega

theorem int32_natCast {n : ℕ} (h : n < 2 ^ 31) : int32 (n : ℤ) = n :=
  int32_eq (by omega) (by omega)

theorem int32_wraps {x : ℤ} (hlo : 2 ^ 31 ≤ x) (hhi : x < 2 ^ 32) : int32 x = x - 2 ^ 32 := by
  have hmod : x % ((2 ^ 32 : ℕ) : ℤ) = x := Int.emod_eq_of_lt (by omega) (by omega)
  rw [int32, Int.bmod_eq_emod, hmod, if_pos (by omega)]
  rfl

theorem int32_bounds (x : ℤ) : -2 ^ 31 ≤ int32 x ∧ int32 x < 2 ^ 31 := by
  have hlo := Int.le_bmod (x := x) (m := 2 ^ 32) (by decide)
  have hhi := Int.bmod_lt (x := x) (m := 2 ^ 32) (by decide)
  unfold int32
  omega

/-- Only the last result of a calculation has to be cut. -/
theorem int32_int32_add (x y : ℤ) : int32 (int32 x + y) = int32 (x + y) := Int.bmod_add_bmod

theorem int32_emod (x : ℤ) : int32 x % 2 ^ 32 = x % 2 ^ 32 := Int.bmod_emod

/-- Division cuts off towards zero. -/
theorem tdiv_error (x : ℤ) {d : ℤ} (hd : 0 < d) : -d < x - x.tdiv d * d ∧ x - x.tdiv d * d < d := by
  have hsplit := Int.tmod_add_tdiv_mul x d
  have hhi := Int.tmod_lt_of_pos x hd
  have hlo := Int.lt_tmod_of_pos x hd
  omega

theorem int64_bounds (x : ℤ) : -2 ^ 63 ≤ int64 x ∧ int64 x < 2 ^ 63 := by
  have hlo := Int.le_bmod (x := x) (m := 2 ^ 64) (by decide)
  have hhi := Int.bmod_lt (x := x) (m := 2 ^ 64) (by decide)
  unfold int64
  omega

theorem int64_wraps {x : ℤ} (hlo : 2 ^ 63 ≤ x) (hhi : x < 2 ^ 64) : int64 x = x - 2 ^ 64 := by
  have hmod : x % ((2 ^ 64 : ℕ) : ℤ) = x := Int.emod_eq_of_lt (by omega) (by omega)
  rw [int64, Int.bmod_eq_emod, hmod, if_pos (by omega)]
  rfl

theorem int64_eq {x : ℤ} (hlo : -2 ^ 63 ≤ x) (hhi : x < 2 ^ 63) : int64 x = x := by
  unfold int64
  rw [Int.bmod_eq_of_le] <;> omega

@[simp] theorem toNat_toByte (x : ℤ) : (toByte x).toNat = (x % 256).toNat := by
  have hlt : (x % 256).toNat < 256 := by omega
  simp [toByte, Nat.mod_eq_of_lt hlt]

@[simp] theorem toByte_toNat (b : UInt8) : toByte (b.toNat : ℤ) = b := by
  apply UInt8.toNat_inj.mp
  rw [toNat_toByte]
  have hlt := b.toNat_lt
  omega

/-- Properties of all 256 bytes can be decided. -/
instance decidableForallByte {P : UInt8 → Prop} [DecidablePred P] : Decidable (∀ b, P b) :=
  decidable_of_iff (∀ n : Fin 256, P ⟨⟨n⟩⟩) ⟨fun h b => h b.toBitVec.toFin, fun h n => h ⟨⟨n⟩⟩⟩

theorem toByte_natCast (n : ℕ) : toByte (n : ℤ) = UInt8.ofNat n := by
  apply UInt8.toNat_inj.mp
  rw [toNat_toByte, UInt8.toNat_ofNat']
  omega

/-! ## Arrays -/

section Arrays

variable {α : Type*}

/-- Overwrite the cells of `dst` from `pos` on by `xs`. -/
def blit (dst : List α) (pos : ℕ) (xs : List α) : List α :=
  dst.take pos ++ xs ++ dst.drop (pos + xs.length)

theorem length_blit {dst : List α} {pos : ℕ} {xs : List α} (h : pos + xs.length ≤ dst.length) :
    (blit dst pos xs).length = dst.length := by
  simp only [blit, List.length_append, List.length_take, List.length_drop]
  omega

/-- Writing right behind a prefix of known length appends to that prefix. -/
theorem blit_append {done : List α} {pos : ℕ} (hpos : done.length = pos) (xs rest : List α) :
    blit (done ++ rest) pos xs = done ++ xs ++ rest.drop xs.length := by
  subst hpos
  simp [blit, List.drop_append]

theorem blit_zero (xs rest : List α) : blit rest 0 xs = xs ++ rest.drop xs.length := by
  simp [blit]

/-- What lies in front of the end of a write, in whole or in part. -/
theorem take_blit {dst xs : List α} {pos n : ℕ} (hpos : pos ≤ dst.length) (hn : n ≤ xs.length) :
    (blit dst pos xs).take (pos + n) = dst.take pos ++ xs.take n := by
  have hlength : (dst.take pos).length = pos := by
    rw [List.length_take]
    omega
  rw [blit, List.append_assoc, List.take_append, hlength, Nat.add_sub_cancel_left,
    List.take_of_length_le (by rw [hlength]; omega), List.take_append_of_le_length hn]

/-- A write over the whole array. -/
theorem blit_whole {dst xs : List α} (h : dst.length = xs.length) : blit dst 0 xs = xs := by
  simp [blit, ← h]

/-- `System.arraycopy(src, srcPos, dst, dstPos, len)`. -/
def arraycopy (src : List α) (srcPos : ℤ) (dst : List α) (dstPos len : ℤ) :
    Except JavaException (List α) :=
  if srcPos < 0 ∨ dstPos < 0 ∨ len < 0 ∨ src.length < srcPos + len ∨ dst.length < dstPos + len then
    .error .arrayIndexOutOfBounds
  else
    .ok (blit dst dstPos.toNat ((src.drop srcPos.toNat).take len.toNat))

/-- An in-range copy of natural-number positions. -/
theorem arraycopy_ok {src dst : List α} {srcPos dstPos len : ℕ}
    (hsrc : srcPos + len ≤ src.length) (hdst : dstPos + len ≤ dst.length) :
    arraycopy src srcPos dst dstPos len = .ok (blit dst dstPos ((src.drop srcPos).take len)) := by
  have hguard : ¬ ((srcPos : ℤ) < 0 ∨ (dstPos : ℤ) < 0 ∨ (len : ℤ) < 0 ∨
      (src.length : ℤ) < srcPos + len ∨ (dst.length : ℤ) < dstPos + len) := by omega
  simp only [arraycopy, if_neg hguard, Int.toNat_natCast]

theorem arraycopy_error_of_neg {src dst : List α} {srcPos dstPos len : ℤ}
    (h : dstPos < 0 ∨ len < 0) :
    arraycopy src srcPos dst dstPos len = .error .arrayIndexOutOfBounds := by
  rw [arraycopy, if_pos]
  omega

/-- An array is copied if the ranges lie inside the arrays. -/
theorem returns_arraycopy {src dst : List α} {srcPos dstPos len : ℤ} :
    Returns (arraycopy src srcPos dst dstPos len) ↔ 0 ≤ srcPos ∧ 0 ≤ dstPos ∧ 0 ≤ len ∧
      srcPos + len ≤ src.length ∧ dstPos + len ≤ dst.length := by
  unfold arraycopy
  split
  · simp only [not_returns_error, false_iff]
    omega
  · simp only [returns_ok, true_iff]
    omega

theorem length_of_arraycopy {src dst out : List α} {srcPos dstPos len : ℤ}
    (h : arraycopy src srcPos dst dstPos len = .ok out) : out.length = dst.length := by
  unfold arraycopy at h
  split at h
  · cases h
  · rename_i hguard
    cases h
    apply length_blit
    simp only [List.length_take, List.length_drop]
    omega

/-- `new byte[n]`. -/
def newArray (n : ℤ) : Except JavaException (List UInt8) :=
  if n < 0 then .error .negativeArraySize else .ok (List.replicate n.toNat 0)

theorem newArray_eq_ok {n : ℤ} {out : List UInt8} :
    newArray n = .ok out ↔ 0 ≤ n ∧ out = List.replicate n.toNat 0 := by
  unfold newArray
  split
  · simp
    omega
  · simp only [Except.ok.injEq]
    constructor
    · rintro rfl
      exact ⟨by omega, rfl⟩
    · rintro ⟨-, rfl⟩
      rfl

theorem newArray_natCast (n : ℕ) : newArray (n : ℤ) = .ok (List.replicate n 0) := by
  simp [newArray]

end Arrays

/-- `buffer.position(pos)`, then `put(bytes)`. -/
def putAt (buffer : List UInt8) (pos : ℕ) (bytes : List UInt8) :
    Except JavaException (List UInt8) :=
  if buffer.length < pos then .error .illegalArgument
  else if buffer.length < pos + bytes.length then .error .bufferOverflow
  else .ok (blit buffer pos bytes)

theorem putAt_eq_ok {buffer bytes out : List UInt8} {pos : ℕ} :
    putAt buffer pos bytes = .ok out ↔
      pos + bytes.length ≤ buffer.length ∧ out = blit buffer pos bytes := by
  unfold putAt
  split
  · simp
    omega
  · split
    · simp
      omega
    · rename_i hfits
      simp [Nat.le_of_not_lt hfits, eq_comm]

end Java
