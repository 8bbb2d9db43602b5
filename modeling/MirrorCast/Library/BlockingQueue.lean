import Mathlib.Data.List.Basic
import Mathlib.Tactic.Common

/-! # Bounded queues with weakly consistent iterators

Every insertion draws a ticket, so that an iterator can tell what was in the queue when
it was made from what came later, and what it removes from an equal element. -/

namespace BlockingQueue

variable {α : Type*}

structure Cell (α : Type*) where
  ticket : ℕ
  value : α
  deriving DecidableEq, Repr

structure Queue (α : Type*) where
  cells : List (Cell α)
  /-- The number of insertions so far. -/
  issued : ℕ
  sorted : (cells.map Cell.ticket).Pairwise (· < ·)
  bounded : ∀ c ∈ cells, c.ticket < issued

namespace Queue

def empty : Queue α where
  cells := []
  issued := 0
  sorted := List.Pairwise.nil
  bounded := by simp

def values (q : Queue α) : List α := q.cells.map Cell.value

def size (q : Queue α) : ℕ := q.cells.length

def insert (q : Queue α) (x : α) : Queue α where
  cells := q.cells ++ [⟨q.issued, x⟩]
  issued := q.issued + 1
  sorted := by
    rw [List.map_append, List.pairwise_append]
    refine ⟨q.sorted, List.pairwise_singleton _ _, ?_⟩
    intro t ht u hu
    obtain ⟨c, hc, rfl⟩ := List.mem_map.mp ht
    rw [List.map_singleton, List.mem_singleton] at hu
    rw [hu]
    exact q.bounded c hc
  bounded := by
    intro c hc
    rcases List.mem_append.mp hc with hc | hc
    · exact Nat.lt_succ_of_lt (q.bounded c hc)
    · rw [List.mem_singleton.mp hc]
      exact Nat.lt_succ_self _

/-- The insertion, if there is room. -/
def offer (q : Queue α) (capacity : ℕ) (x : α) : Option (Queue α) :=
  if q.size < capacity then some (q.insert x) else none

def filter (q : Queue α) (p : Cell α → Bool) : Queue α where
  cells := q.cells.filter p
  issued := q.issued
  sorted := q.sorted.sublist (List.filter_sublist.map _)
  bounded := fun c hc => q.bounded c (List.mem_of_mem_filter hc)

def clear (q : Queue α) : Queue α := q.filter fun _ => false

/-- The removal of one cell, if it is still there. -/
def remove (q : Queue α) (ticket : ℕ) : Queue α := q.filter fun c => c.ticket != ticket

/-- The first element and the queue without it. -/
def poll (q : Queue α) : Option (α × Queue α) :=
  match q.cells with
  | [] => none
  | c :: _ => some (c.value, q.remove c.ticket)

@[simp] theorem cells_filter (q : Queue α) (p : Cell α → Bool) :
    (q.filter p).cells = q.cells.filter p := rfl

@[simp] theorem cells_insert (q : Queue α) (x : α) :
    (q.insert x).cells = q.cells ++ [⟨q.issued, x⟩] := rfl

@[simp] theorem values_empty : (empty : Queue α).values = [] := rfl

@[simp] theorem values_insert (q : Queue α) (x : α) : (q.insert x).values = q.values ++ [x] := by
  simp [values, insert]

@[simp] theorem cells_clear (q : Queue α) : q.clear.cells = [] := by
  simp [clear, filter]

@[simp] theorem values_clear (q : Queue α) : q.clear.values = [] := by
  simp [values]

theorem size_eq (q : Queue α) : q.size = q.values.length := by
  rw [values, List.length_map, size]

theorem offer_eq_some {q q' : Queue α} {capacity : ℕ} {x : α}
    (h : q.offer capacity x = some q') : q' = q.insert x := by
  unfold offer at h
  split at h
  · exact (Option.some.inj h).symm
  · cases h

theorem values_remove_sublist (q : Queue α) (ticket : ℕ) :
    (q.remove ticket).values.Sublist q.values :=
  List.filter_sublist.map _

/-- Tickets are unique, so a removal takes out exactly one cell. -/
theorem cells_remove {q : Queue α} {xs ys : List (Cell α)} {c : Cell α}
    (h : q.cells = xs ++ c :: ys) : (q.remove c.ticket).cells = xs ++ ys := by
  have hsorted := q.sorted
  rw [h, List.map_append, List.map_cons, List.pairwise_append, List.pairwise_cons] at hsorted
  obtain ⟨-, ⟨hafter, -⟩, hbefore⟩ := hsorted
  have hxs : xs.filter (fun d => d.ticket != c.ticket) = xs := by
    rw [List.filter_eq_self]
    intro d hd
    have hlt := hbefore d.ticket (List.mem_map_of_mem hd) c.ticket List.mem_cons_self
    simpa using Nat.ne_of_lt hlt
  have hys : ys.filter (fun d => d.ticket != c.ticket) = ys := by
    rw [List.filter_eq_self]
    intro d hd
    have hlt := hafter d.ticket (List.mem_map_of_mem hd)
    simpa using (Nat.ne_of_lt hlt).symm
  rw [remove, cells_filter, h, List.filter_append, List.filter_cons, if_neg (by simp), hxs, hys]

theorem poll_eq_some {q q' : Queue α} {x : α} (h : q.poll = some (x, q')) :
    q.values = x :: q'.values := by
  unfold poll at h
  split at h
  · cases h
  · rename_i c cs hcells
    obtain ⟨rfl, rfl⟩ := Prod.mk.inj (Option.some.inj h)
    have hrest := @cells_remove _ q [] _ _ hcells
    rw [values, values, hrest, hcells, List.map_cons, List.nil_append]

end Queue

/-! ## Iterators -/

/-- An iterator returns what was in the queue when it was made; later changes show only
as far as it has come to reflect them. -/
structure Iterator (α : Type*) where
  ahead : List (Cell α)
  /-- Insertions with a lower ticket are reflected. -/
  known : ℕ
  deriving DecidableEq, Repr

def Queue.iterator (q : Queue α) : Iterator α := ⟨q.cells, q.issued⟩

namespace Iterator

/-- The iterator comes to reflect the insertions below ticket `n`. -/
def reveal (it : Iterator α) (q : Queue α) (n : ℕ) : Iterator α where
  ahead := it.ahead ++ q.cells.filter fun c => it.known ≤ c.ticket && c.ticket < n
  known := max it.known n

/-- The iterator comes to reflect that the cell with this ticket is gone. -/
def forget (it : Iterator α) (q : Queue α) (ticket : ℕ) : Iterator α :=
  if ticket ∈ q.cells.map Cell.ticket then it
  else { it with ahead := it.ahead.filter fun c => c.ticket != ticket }

/-- While nobody else removes from it, a queue is what the iterator has passed, what is
ahead of it and what it does not reflect yet. -/
structure Tracks (it : Iterator α) (q : Queue α) (passed unseen : List (Cell α)) : Prop where
  cells : q.cells = passed ++ it.ahead ++ unseen
  seen : ∀ c ∈ passed ++ it.ahead, c.ticket < it.known
  new : ∀ c ∈ unseen, it.known ≤ c.ticket
  known : it.known ≤ q.issued

theorem tracks_iterator (q : Queue α) : Tracks q.iterator q [] [] where
  cells := by simp [Queue.iterator]
  seen := q.bounded
  new := by simp
  known := Nat.le_refl _

variable {it : Iterator α} {q : Queue α} {passed unseen : List (Cell α)}

theorem Tracks.insert (h : Tracks it q passed unseen) (x : α) :
    Tracks it (q.insert x) passed (unseen ++ [⟨q.issued, x⟩]) where
  cells := by
    rw [Queue.cells_insert, h.cells, List.append_assoc _ unseen]
  seen := h.seen
  new := by
    intro c hc
    rcases List.mem_append.mp hc with hc | hc
    · exact h.new c hc
    · rw [List.mem_singleton.mp hc]
      exact h.known
  known := Nat.le_succ_of_le h.known

theorem Tracks.next {c : Cell α} {rest : List (Cell α)} (h : Tracks it q passed unseen)
    (hahead : it.ahead = c :: rest) : Tracks { it with ahead := rest } q (passed ++ [c]) unseen where
  cells := by
    rw [h.cells, hahead]
    simp
  seen := by
    intro d hd
    apply h.seen
    rw [hahead]
    simpa using hd
  new := h.new
  known := h.known

theorem Tracks.remove {c : Cell α} (h : Tracks it q (passed ++ [c]) unseen) :
    Tracks it (q.remove c.ticket) passed unseen where
  cells := by
    have hcells : q.cells = passed ++ c :: (it.ahead ++ unseen) := by
      rw [h.cells]
      simp
    rw [Queue.cells_remove hcells, List.append_assoc]
  seen := by
    intro d hd
    apply h.seen
    rcases List.mem_append.mp hd with hd | hd
    · simp [hd]
    · simp [hd]
  new := h.new
  known := h.known

/-- Reflecting insertions moves unseen cells ahead, the oldest first. -/
theorem Tracks.reveal (h : Tracks it q passed unseen) {n : ℕ} (hn : n ≤ q.issued) :
    ∃ shown hidden, unseen = shown ++ hidden ∧ (it.reveal q n).ahead = it.ahead ++ shown ∧
      Tracks (it.reveal q n) q passed hidden := by
  have hsorted : (unseen.map Cell.ticket).Pairwise (· < ·) := by
    have hall := q.sorted
    rw [h.cells, List.map_append, List.pairwise_append] at hall
    exact hall.2.1
  have hfilter : q.cells.filter (fun c => it.known ≤ c.ticket && c.ticket < n) =
      unseen.filter fun c => c.ticket < n := by
    have hold : (passed ++ it.ahead).filter (fun c => it.known ≤ c.ticket && c.ticket < n) = [] := by
      rw [List.filter_eq_nil_iff]
      intro c hc
      have hlt := h.seen c hc
      simp [Nat.not_le_of_lt hlt]
    rw [h.cells, List.filter_append, hold, List.nil_append]
    apply List.filter_congr
    intro c hc
    simp [h.new c hc]
  have hsplit : unseen = unseen.filter (fun c => c.ticket < n) ++
      unseen.filter (fun c => ¬ c.ticket < n) := by
    clear hfilter h
    induction unseen with
    | nil => rfl
    | cons c cs ih =>
        rw [List.map_cons, List.pairwise_cons] at hsorted
        by_cases hc : c.ticket < n
        · simpa [List.filter_cons, hc] using ih hsorted.2
        · have hnone : cs.filter (fun c => c.ticket < n) = [] := by
            rw [List.filter_eq_nil_iff]
            intro d hd
            have hlt := hsorted.1 d.ticket (List.mem_map_of_mem hd)
            simp only [decide_eq_true_eq]
            omega
          have hall : cs.filter (fun c => ¬ c.ticket < n) = cs := by
            rw [List.filter_eq_self]
            intro d hd
            have hlt := hsorted.1 d.ticket (List.mem_map_of_mem hd)
            simp only [decide_eq_true_eq]
            omega
          simp only [List.filter_cons, hc, hnone, hall]
          simp
  refine ⟨_, _, hsplit, by rw [Iterator.reveal, hfilter], ?_, ?_, ?_, ?_⟩
  · rw [Iterator.reveal, hfilter, h.cells]
    conv_lhs => rw [hsplit]
    simp
  · intro c hc
    rw [Iterator.reveal, hfilter, ← List.append_assoc] at hc
    rcases List.mem_append.mp hc with hc | hc
    · exact Nat.lt_of_lt_of_le (h.seen c hc) (Nat.le_max_left _ _)
    · exact Nat.lt_of_lt_of_le (by simpa using (List.mem_filter.mp hc).2) (Nat.le_max_right _ _)
  · intro c hc
    obtain ⟨hmem, hge⟩ := List.mem_filter.mp hc
    exact Nat.max_le.mpr ⟨h.new c hmem, by simpa using hge⟩
  · exact Nat.max_le.mpr ⟨h.known, hn⟩

/-- What is ahead is still in the queue, so there is no removal to reflect. -/
theorem Tracks.forget (h : Tracks it q passed unseen) (ticket : ℕ) : it.forget q ticket = it := by
  unfold Iterator.forget
  split
  · rfl
  · rename_i hgone
    have hkeep : it.ahead.filter (fun c => c.ticket != ticket) = it.ahead := by
      rw [List.filter_eq_self]
      intro c hc
      have hmem : c ∈ q.cells := by simp [h.cells, hc]
      have hne : c.ticket ≠ ticket := fun heq => hgone (heq ▸ List.mem_map_of_mem hmem)
      simpa using hne
    rw [hkeep]

end Iterator

end BlockingQueue
