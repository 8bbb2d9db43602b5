import Mathlib.Data.List.Basic
import Mathlib.Logic.Function.Basic
import Mathlib.Order.Basic

/-! # Merging queues as their elements arrive

Every track has a queue. A queued element goes out when no queue is empty and none
starts with a lesser key. -/

namespace Arrivals

variable {ι α K : Type*} [DecidableEq ι] [Preorder K]

/-- The elements on track `i`, in order. -/
def onTrack (i : ι) (elements : List (ι × α)) : List α :=
  (elements.filter fun e => e.1 = i).map Prod.snd

theorem onTrack_append (i : ι) (xs ys : List (ι × α)) :
    onTrack i (xs ++ ys) = onTrack i xs ++ onTrack i ys := by
  simp only [onTrack, List.filter_append, List.map_append]

@[simp] theorem onTrack_singleton_self (i : ι) (x : α) : onTrack i [(i, x)] = [x] := by
  simp [onTrack]

@[simp] theorem onTrack_singleton_of_ne {i j : ι} (h : j ≠ i) (x : α) :
    onTrack i [(j, x)] = [] := by
  simp [onTrack, h]

/-- The elements sent are the first ones of every track, in the order of their keys, and nothing
that is queued or still to come on one of the tracks has a lesser key. -/
structure Merged (tracks : Set ι) (key : α → K) (given sent : List (ι × α))
    (queues : ι → List α) : Prop where
  split : ∀ i, onTrack i given = onTrack i sent ++ queues i
  ordered : sent.Pairwise fun e e' => key e.2 ≤ key e'.2
  queued : ∀ e ∈ sent, ∀ i ∈ tracks, ∀ x ∈ queues i, key e.2 ≤ key x
  passed : ∀ e ∈ sent, ∀ i ∈ tracks, ∃ x ∈ onTrack i given, key e.2 ≤ key x

variable {tracks : Set ι} {key : α → K} {given sent : List (ι × α)} {queues queues' : ι → List α}

theorem Merged.empty (h : ∀ i, queues i = []) : Merged tracks key [] [] queues where
  split i := (h i).symm
  ordered := List.Pairwise.nil
  queued := by simp
  passed := by simp

/-- An element arrives that is no earlier than the ones before it on its track. -/
theorem Merged.give (h : Merged tracks key given sent queues) {i : ι} {x : α}
    (hlast : ∀ y ∈ onTrack i given, key y ≤ key x) (hself : queues' i = queues i ++ [x])
    (hother : ∀ j, j ≠ i → queues' j = queues j) :
    Merged tracks key (given ++ [(i, x)]) sent queues' where
  split j := by
    by_cases hj : j = i
    · rw [hj, onTrack_append, h.split, onTrack_singleton_self, hself, List.append_assoc]
    · rw [onTrack_append, h.split, onTrack_singleton_of_ne (Ne.symm hj), hother j hj,
        List.append_nil]
  ordered := h.ordered
  queued e he j hj y hy := by
    by_cases hji : j = i
    · rw [hji, hself] at hy
      rcases List.mem_append.mp hy with hy | hy
      · exact h.queued e he i (hji ▸ hj) y hy
      · obtain ⟨z, hz, hle⟩ := h.passed e he i (hji ▸ hj)
        rw [List.mem_singleton.mp hy]
        exact le_trans hle (hlast z hz)
    · exact h.queued e he j hj y (hother j hji ▸ hy)
  passed e he j hj := by
    obtain ⟨z, hz, hle⟩ := h.passed e he j hj
    exact ⟨z, by rw [onTrack_append]; exact List.mem_append_left _ hz, hle⟩

/-- The head of a queue goes out while no queue is empty and none starts with a lesser key. -/
theorem Merged.send (h : Merged tracks key given sent queues) {i : ι} {x : α} {rest : List α}
    (hi : i ∈ tracks) (hsorted : ∀ j, (onTrack j given).Pairwise fun y z => key y ≤ key z)
    (hhead : queues i = x :: rest)
    (hleast : ∀ j ∈ tracks, ∃ y ys, queues j = y :: ys ∧ key x ≤ key y)
    (hself : queues' i = rest) (hother : ∀ j, j ≠ i → queues' j = queues j) :
    Merged tracks key given (sent ++ [(i, x)]) queues' := by
  have hqueued (j : ι) : ∀ y ∈ queues' j, y ∈ queues j := by
    intro y hy
    by_cases hj : j = i
    · rw [hj, hself] at hy
      rw [hj, hhead]
      exact List.mem_cons_of_mem x hy
    · rwa [hother j hj] at hy
  have hmin : ∀ j ∈ tracks, ∀ y ∈ queues j, key x ≤ key y := by
    intro j hj y hy
    obtain ⟨z, zs, hz, hle⟩ := hleast j hj
    have hrest := (List.pairwise_append.mp (h.split j ▸ hsorted j)).2.1
    rw [hz] at hy hrest
    rcases List.mem_cons.mp hy with rfl | hy
    · exact hle
    · exact le_trans hle ((List.pairwise_cons.mp hrest).1 y hy)
  constructor
  case split =>
    intro j
    by_cases hj : j = i
    · rw [hj, h.split, onTrack_append, onTrack_singleton_self, hhead, hself, List.append_assoc]
      rfl
    · rw [onTrack_append, onTrack_singleton_of_ne (Ne.symm hj), h.split, hother j hj,
        List.append_nil]
  case ordered =>
    rw [List.pairwise_append]
    refine ⟨h.ordered, List.pairwise_singleton _ _, ?_⟩
    intro e he e' he'
    rw [List.mem_singleton.mp he']
    exact h.queued e he i hi x (by rw [hhead]; exact List.mem_cons_self)
  case queued =>
    intro e he j hj y hy
    rcases List.mem_append.mp he with he | he
    · exact h.queued e he j hj y (hqueued j y hy)
    · rw [List.mem_singleton.mp he]
      exact hmin j hj y (hqueued j y hy)
  case passed =>
    intro e he j hj
    rcases List.mem_append.mp he with he | he
    · exact h.passed e he j hj
    · obtain ⟨y, ys, hy, hle⟩ := hleast j hj
      refine ⟨y, ?_, ?_⟩
      · rw [h.split, hy]
        exact List.mem_append_right _ List.mem_cons_self
      · rw [List.mem_singleton.mp he]
        exact hle

end Arrivals
