import Mathlib.Logic.Function.Basic
import Mathlib.Data.List.Basic
import Mathlib.Tactic.Common

/-! # Stacks of linked nodes

The nodes of the stack are linked by a field of their own; a node that is not in the stack
has the field as well. -/

namespace LinkedStack

variable {α : Type*} {next : α → Option α} {head : Option α} {xs : List α}

/-- The nodes from `head` on are `xs`. -/
def Chain (next : α → Option α) : Option α → List α → Prop
  | head, [] => head = none
  | head, x :: xs => head = some x ∧ Chain next (next x) xs

/-- A node is reached from `head`. -/
inductive Linked (next : α → Option α) : Option α → α → Prop where
  | here (a : α) : Linked next (some a) a
  | there {a b : α} (h : Linked next (next a) b) : Linked next (some a) b

theorem Chain.linked_iff (h : Chain next head xs) {b : α} : Linked next head b ↔ b ∈ xs := by
  induction xs generalizing head with
  | nil =>
      cases h
      constructor
      · rintro ⟨⟩
      · simp
  | cons a xs ih =>
      obtain ⟨rfl, hrest⟩ := h
      constructor
      · rintro (_ | hlinked)
        · exact List.mem_cons_self
        · exact List.mem_cons_of_mem _ ((ih hrest).mp hlinked)
      · intro hb
        rcases List.mem_cons.mp hb with rfl | hb
        · exact .here b
        · exact .there ((ih hrest).mpr hb)

/-- The chain does not depend on the fields of other nodes. -/
theorem Chain.congr {next' : α → Option α} (h : Chain next head xs)
    (hsame : ∀ a ∈ xs, next' a = next a) : Chain next' head xs := by
  induction xs generalizing head with
  | nil => exact h
  | cons a xs ih =>
      refine ⟨h.1, ?_⟩
      rw [hsame a List.mem_cons_self]
      exact ih h.2 fun b hb => hsame b (List.mem_cons_of_mem a hb)

theorem Chain.push (h : Chain next head xs) {a : α} (ha : next a = head) :
    Chain next (some a) (a :: xs) :=
  ⟨rfl, by rwa [ha]⟩

theorem Chain.pop {a : α} (h : Chain next (some a) xs) :
    ∃ rest, xs = a :: rest ∧ Chain next (next a) rest := by
  cases xs with
  | nil => cases h
  | cons b rest =>
      obtain ⟨hb, hrest⟩ := h
      cases hb
      exact ⟨rest, rfl, hrest⟩

end LinkedStack
