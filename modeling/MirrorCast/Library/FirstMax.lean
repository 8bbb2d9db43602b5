import Mathlib.Data.List.Induction
import Mathlib.Order.Lattice

/-! # The first greatest element of a list, by a running maximum -/

namespace FirstMax

variable {α β : Type*} [LinearOrder β] {score : α → β}

/-- A running maximum, which only a greater element replaces. -/
def improve (score : α → β) (best : Option α) (x : α) : Option α :=
  match best with
  | none => some x
  | some b => if score b < score x then some x else some b

def run (score : α → β) (xs : List α) : Option α := xs.foldl (improve score) none

/-- `x` is the first of the greatest elements. -/
def IsFirst (score : α → β) (x : α) (xs : List α) : Prop :=
  ∃ pre post, xs = pre ++ x :: post ∧ (∀ y ∈ pre, score y < score x) ∧
    ∀ y ∈ post, score y ≤ score x

theorem IsFirst.le {x y : α} {xs : List α} (h : IsFirst score x xs) (hy : y ∈ xs) :
    score y ≤ score x := by
  obtain ⟨pre, post, rfl, hpre, hpost⟩ := h
  rcases List.mem_append.mp hy with hy | hy
  · exact le_of_lt (hpre y hy)
  · rcases List.mem_cons.mp hy with rfl | hy
    · exact le_rfl
    · exact hpost y hy

theorem run_concat (xs : List α) (y : α) :
    run score (xs ++ [y]) = improve score (run score xs) y := by
  rw [run, List.foldl_append]
  rfl

theorem run_eq_none {xs : List α} : run score xs = none ↔ xs = [] := by
  induction xs using List.reverseRecOn with
  | nil => exact ⟨fun _ => rfl, fun _ => rfl⟩
  | append_singleton xs y ih =>
      rw [run_concat]
      constructor
      · intro h
        unfold improve at h
        split at h
        · cases h
        · split at h <;> cases h
      · intro h
        simp at h

/-- The running maximum ends at the first greatest element. -/
theorem isFirst_run {xs : List α} {x : α} (h : run score xs = some x) : IsFirst score x xs := by
  induction xs using List.reverseRecOn generalizing x with
  | nil => cases h
  | append_singleton xs y ih =>
      rw [run_concat] at h
      cases hrun : run score xs with
      | none =>
          rw [hrun] at h
          cases h
          exact ⟨[], [], by rw [run_eq_none.mp hrun, List.nil_append], nofun, nofun⟩
      | some b =>
          have hfirst := ih hrun
          rw [hrun] at h
          unfold improve at h
          dsimp only at h
          split at h
          · rename_i hless
            cases h
            exact ⟨xs, [], rfl, fun z hz => lt_of_le_of_lt (hfirst.le hz) hless, nofun⟩
          · rename_i hnot
            cases h
            obtain ⟨pre, post, rfl, hpre, hpost⟩ := hfirst
            refine ⟨pre, post ++ [y], by simp, hpre, fun z hz => ?_⟩
            rcases List.mem_append.mp hz with hz | hz
            · exact hpost z hz
            · rw [List.mem_singleton.mp hz]
              exact le_of_not_gt hnot

/-- Elements that are as great come after the first one. -/
theorem IsFirst.not_before {before : α → α → Prop} {x y : α} {xs : List α}
    (h : IsFirst score x xs) (hsorted : xs.Pairwise before) (hy : y ∈ xs)
    (hequal : score y = score x) : y = x ∨ before x y := by
  obtain ⟨pre, post, rfl, hpre, -⟩ := h
  rcases List.mem_append.mp hy with hy | hy
  · exact absurd hequal (ne_of_lt (hpre y hy))
  · rcases List.mem_cons.mp hy with rfl | hy
    · exact Or.inl rfl
    · exact Or.inr ((List.pairwise_cons.mp (List.pairwise_append.mp hsorted).2.1).1 y hy)

end FirstMax
