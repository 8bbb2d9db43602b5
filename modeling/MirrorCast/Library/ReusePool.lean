import Mathlib.Data.Int.Notation
import Mathlib.Data.List.Nodup

/-! # Pools of objects that are used again

A pool lists its objects, each with a mark that says whether it is in use. -/

namespace ReusePool

variable {α : Type*}

/-- The first object that is free. -/
def free? (pool : List (α × Bool)) : Option α := (pool.find? fun e => !e.2).map Prod.fst

/-- A new object, in use, goes behind those whose hash is not greater. -/
def insert (hash : α → ℤ) (pool : List (α × Bool)) (a : α) : List (α × Bool) :=
  pool.takeWhile (fun e => hash e.1 ≤ hash a) ++ (a, true) ::
    pool.dropWhile fun e => hash e.1 ≤ hash a

/-- The objects of the pool. -/
def objects (pool : List (α × Bool)) : List α := pool.map Prod.fst

/-- The pool has marked the object as in use. -/
def InUse (pool : List (α × Bool)) (a : α) : Prop := (a, true) ∈ pool

variable {pool : List (α × Bool)} {a b : α}

theorem InUse.mem_objects (h : InUse pool a) : a ∈ objects pool := List.mem_map_of_mem h

theorem mem_insert (hash : α → ℤ) {e : α × Bool} :
    e ∈ insert hash pool a ↔ e = (a, true) ∨ e ∈ pool := by
  rw [insert, List.mem_append, List.mem_cons, or_left_comm, ← List.mem_append,
    List.takeWhile_append_dropWhile]

theorem inUse_insert (hash : α → ℤ) : InUse (insert hash pool a) b ↔ b = a ∨ InUse pool b := by
  rw [InUse, mem_insert, InUse, Prod.mk.injEq, and_iff_left rfl]

theorem objects_insert (hash : α → ℤ) :
    (objects (insert hash pool a)).Perm (a :: objects pool) := by
  have hsplit : objects pool = (pool.takeWhile fun e => hash e.1 ≤ hash a).map Prod.fst ++
      (pool.dropWhile fun e => hash e.1 ≤ hash a).map Prod.fst := by
    rw [← List.map_append, List.takeWhile_append_dropWhile, objects]
  rw [hsplit, objects, insert, List.map_append, List.map_cons]
  exact List.perm_middle

/-- A free object belongs to the pool and, if no object is listed twice, is not in use. -/
theorem not_inUse_of_free? (hnodup : (objects pool).Nodup) (h : free? pool = some a) :
    a ∈ objects pool ∧ ¬ InUse pool a := by
  obtain ⟨e, he, rfl⟩ := Option.map_eq_some_iff.mp h
  have hmem := List.mem_of_find?_eq_some he
  have hfree := List.find?_some he
  refine ⟨List.mem_map_of_mem hmem, fun hused => ?_⟩
  have hsame : (e.1, true) = e := List.inj_on_of_nodup_map hnodup hused hmem rfl
  rw [← hsame] at hfree
  cases hfree

/-! ## Marks -/

variable [DecidableEq α]

instance : Decidable (InUse pool a) := inferInstanceAs (Decidable ((a, true) ∈ pool))

/-- The object gets the mark, if the pool has it. -/
def mark (pool : List (α × Bool)) (a : α) (inUse : Bool) : List (α × Bool) :=
  pool.map fun e => if e.1 = a then (a, inUse) else e

@[simp] theorem objects_mark (inUse : Bool) : objects (mark pool a inUse) = objects pool := by
  rw [objects, objects, mark, List.map_map]
  apply List.map_congr_left
  intro e _
  dsimp only [Function.comp]
  split
  · rename_i h
    exact h.symm
  · rfl

theorem inUse_mark_true (h : a ∈ objects pool) :
    InUse (mark pool a true) b ↔ b = a ∨ InUse pool b := by
  unfold InUse mark
  rw [List.mem_map]
  constructor
  · rintro ⟨e, he, heq⟩
    split at heq
    · exact Or.inl (Prod.mk.inj heq).1.symm
    · exact Or.inr (heq ▸ he)
  · obtain ⟨e, he, rfl⟩ := List.mem_map.mp h
    rintro (rfl | hb)
    · exact ⟨e, he, if_pos rfl⟩
    · by_cases hsame : b = e.1
      · exact ⟨e, he, by rw [if_pos rfl, hsame]⟩
      · exact ⟨(b, true), hb, if_neg hsame⟩

theorem inUse_mark_false : InUse (mark pool a false) b ↔ b ≠ a ∧ InUse pool b := by
  unfold InUse mark
  rw [List.mem_map]
  constructor
  · rintro ⟨e, he, heq⟩
    split at heq
    · cases heq
    · rename_i hne
      rw [heq] at he hne
      exact ⟨hne, he⟩
  · rintro ⟨hne, hb⟩
    exact ⟨(b, true), hb, if_neg hne⟩

end ReusePool
