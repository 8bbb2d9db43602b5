import Mathlib.Data.List.Basic
import Mathlib.Tactic.Common

/-! # Streams that arrive in pieces

A reader asks for at most `n` elements and gets some part of what has arrived. Reading in
full undoes the cutting: what is read depends on the stream alone. -/

namespace Chunked

variable {β : Type*}

/-- What is still to come, cut as it will be handed out; an empty piece is the end. -/
abbrev Stream (β : Type*) := List (List β)

/-- One `read` of at most `n` elements. -/
def read (n : ℕ) : Stream β → List β × Stream β
  | [] => ([], [])
  | piece :: pieces =>
      if piece.length ≤ n then (piece, pieces) else (piece.take n, piece.drop n :: pieces)

/-- No read meets the end before the stream is used up. -/
def Flows (stream : Stream β) : Prop := ∀ piece ∈ stream, piece ≠ []

theorem read_append (n : ℕ) (stream : Stream β) :
    (read n stream).1 ++ (read n stream).2.flatten = stream.flatten := by
  cases stream with
  | nil => rfl
  | cons piece pieces =>
      rw [read]
      split
      · rfl
      · rw [List.flatten_cons, ← List.append_assoc, List.take_append_drop, List.flatten_cons]

theorem length_read_le (n : ℕ) (stream : Stream β) : (read n stream).1.length ≤ n := by
  cases stream with
  | nil => exact Nat.zero_le n
  | cons piece pieces =>
      rw [read]
      split
      · assumption
      · rw [List.length_take]
        omega

theorem Flows.read {stream : Stream β} (h : Flows stream) (n : ℕ) :
    Flows (read n stream).2 := by
  cases stream with
  | nil => exact h
  | cons piece pieces =>
      intro p hp
      rw [Chunked.read] at hp
      split at hp
      · exact h p (List.mem_cons_of_mem piece hp)
      · rename_i hlong
        rcases List.mem_cons.mp hp with rfl | hp
        · intro hnil
          have hlength := congrArg List.length hnil
          rw [List.length_drop, List.length_nil] at hlength
          omega
        · exact h p (List.mem_cons_of_mem piece hp)

theorem Flows.read_ne_nil {stream : Stream β} (h : Flows stream) (hne : stream.flatten ≠ [])
    {n : ℕ} (hn : 0 < n) : (Chunked.read n stream).1 ≠ [] := by
  cases stream with
  | nil => exact absurd rfl hne
  | cons piece pieces =>
      intro hnil
      rw [Chunked.read] at hnil
      split at hnil
      · exact h piece (by simp) hnil
      · have hlength := congrArg List.length hnil
        rw [List.length_take, List.length_nil] at hlength
        omega

/-! ## Failed reads

A read that returns nothing has failed, and the reader may go on behind it. -/

/-- What arrives between failed read `k` and the next one. -/
def runs : Stream β → ℕ → List β
  | [], _ => []
  | [] :: _, 0 => []
  | [] :: pieces, k + 1 => runs pieces k
  | piece :: pieces, 0 => piece ++ runs pieces 0
  | (_ :: _) :: pieces, k + 1 => runs pieces (k + 1)

end Chunked
