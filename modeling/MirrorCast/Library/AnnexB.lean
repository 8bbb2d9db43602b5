import Mathlib.Algebra.Ring.Nat
import Mathlib.Data.List.Infix
import Mathlib.Tactic.Common

/-! # H.264 NAL units and their byte stream format

A byte stream puts a start code, two or more zeros and a one, before each NAL unit and
may end in zeros. -/

namespace AnnexB

/-- A NAL unit as H.264 defines it: the forbidden bit is zero, the type is one of those the
standard specifies, no start code occurs inside, and the last byte is not zero. -/
structure NalUnit where
  header : UInt8
  body : List UInt8
  forbidden_zero : header < 128
  type_bounds : 1 ≤ header &&& 0x1f ∧ header &&& 0x1f ≤ 23
  no_start_code : ∀ b ≤ 2, ¬ [0, 0, b] <:+: header :: body
  last_ne_zero : (header :: body).getLast (List.cons_ne_nil header body) ≠ 0

namespace NalUnit

def bytes (nal : NalUnit) : List UInt8 := nal.header :: nal.body

theorem length_bytes_pos (nal : NalUnit) : 0 < nal.bytes.length := Nat.succ_pos _

/-! The header of a coded slice is one a NAL unit can have. -/

theorem slice_header_lt : (0x41 : UInt8) < 128 := by decide

theorem slice_header_bounds : 1 ≤ (0x41 : UInt8) &&& 0x1f ∧ (0x41 : UInt8) &&& 0x1f ≤ 23 := by
  decide

/-- No header is a zero byte. -/
theorem header_ne_zero (nal : NalUnit) : nal.header ≠ 0 := by
  intro h
  have hlo := nal.type_bounds.1
  rw [h] at hlo
  exact absurd hlo (by decide)

end NalUnit

def startCode : List UInt8 := [0, 0, 0, 1]

/-- NAL units, each behind a start code of four bytes. -/
def byteStream (nals : List NalUnit) : List UInt8 :=
  nals.flatMap fun nal => startCode ++ nal.bytes

theorem byteStream_append (nals nals' : List NalUnit) :
    byteStream (nals ++ nals') = byteStream nals ++ byteStream nals' := List.flatMap_append

theorem byteStream_singleton (nal : NalUnit) : byteStream [nal] = startCode ++ nal.bytes :=
  List.append_nil _

/-- No byte stream ends in a zero. -/
theorem byteStream_last {nals : List NalUnit} (bytes : List UInt8) :
    byteStream nals ≠ bytes ++ [0] := by
  induction nals using List.reverseRecOn with
  | nil => simp [byteStream]
  | append_singleton nals nal _ =>
      intro h
      have hlast := congrArg List.getLast? h
      rw [byteStream_append, byteStream_singleton, List.getLast?_append_of_ne_nil _ (by simp [startCode]),
        List.getLast?_append_of_ne_nil _ (by simp [NalUnit.bytes]),
        List.getLast?_eq_getLast_of_ne_nil (by simp [NalUnit.bytes]), List.getLast?_concat] at hlast
      exact nal.last_ne_zero (Option.some.inj hlast)

/-- What emulation prevention makes of a NAL unit: no start code occurs inside, and the last
byte is not zero. -/
structure Escaped (nal : List UInt8) : Prop where
  ne_nil : nal ≠ []
  no_start_code : ∀ b ≤ 2, ¬ [0, 0, b] <:+: nal
  last_ne_zero : nal.getLast? ≠ some 0

theorem Escaped.length_pos {nal : List UInt8} (h : Escaped nal) : 0 < nal.length :=
  List.length_pos_of_ne_nil h.ne_nil

theorem NalUnit.escaped (nal : NalUnit) : Escaped nal.bytes where
  ne_nil := List.cons_ne_nil _ _
  no_start_code := nal.no_start_code
  last_ne_zero h := by
    rw [bytes, List.getLast?_eq_some_getLast (List.cons_ne_nil _ _)] at h
    exact nal.last_ne_zero (Option.some.inj h)

/-- The bytes of NAL units with the number of zeros put before each start code, then trailing
zeros. -/
def joined : List (ℕ × List UInt8) → ℕ → List UInt8
  | [], trailing => List.replicate trailing 0
  | (zeros, nal) :: units, trailing =>
      List.replicate zeros 0 ++ [0, 0, 1] ++ nal ++ joined units trailing

/-- NAL units with the number of zeros put before each start code, then trailing zeros. -/
def stream : List (ℕ × NalUnit) → ℕ → List UInt8
  | [], trailing => List.replicate trailing 0
  | (zeros, nal) :: units, trailing =>
      List.replicate zeros 0 ++ [0, 0, 1] ++ nal.bytes ++ stream units trailing

theorem stream_eq_joined (units : List (ℕ × NalUnit)) (trailing : ℕ) :
    stream units trailing = joined (units.map fun u => (u.1, u.2.bytes)) trailing := by
  induction units with
  | nil => rfl
  | cons u units ih => rw [stream, ih, List.map_cons, joined]

/-- An access unit in byte stream format; a Java buffer holds less than `2 ^ 31` bytes. -/
structure AccessUnit where
  units : List (ℕ × NalUnit)
  trailing : ℕ
  length_lt : (stream units trailing).length < 2 ^ 31

namespace AccessUnit

def bytes (unit : AccessUnit) : List UInt8 := stream unit.units unit.trailing

def nals (unit : AccessUnit) : List (List UInt8) := unit.units.map fun u => u.2.bytes

end AccessUnit

end AnnexB
