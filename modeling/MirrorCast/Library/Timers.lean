import Mathlib.Data.List.Basic
import Mathlib.Tactic.Common

/-! # Timers with generations

A timer that is started sends itself a message with the current generation. Messages are not
taken back: a message of an old generation is passed over when it comes up. -/

/-- `outstanding` are the generations of the messages that were sent and have not come up. -/
structure Timer (G : Type*) where
  pending : Bool
  generation : G
  outstanding : List G

namespace Timer

variable {G : Type*}

def idle (g : G) : Timer G := ⟨false, g, []⟩

def start (t : Timer G) : Timer G :=
  if t.pending then t
  else { t with pending := true, outstanding := t.outstanding ++ [t.generation] }

/-- The messages on the way become old ones. -/
def renew (t : Timer G) (g : G) : Timer G := { t with generation := g }

/-- The `i`-th message comes up. -/
def expire [DecidableEq G] (t : Timer G) (i : ℕ) : Timer G :=
  match t.outstanding[i]? with
  | none => t
  | some g =>
      { t with
        pending := if g = t.generation then false else t.pending
        outstanding := t.outstanding.eraseIdx i }

/-- A timer that is pending will expire. -/
def Live (t : Timer G) : Prop := t.pending = true → t.generation ∈ t.outstanding

/-- There is one message if the timer is pending, a current one, and none otherwise. -/
def Single (t : Timer G) : Prop :=
  t.outstanding = if t.pending then [t.generation] else []

theorem Single.idle (g : G) : (Timer.idle g).Single := rfl

variable {t : Timer G}

theorem Single.live (h : t.Single) : t.Live := by
  intro hpending
  rw [h, if_pos hpending]
  exact List.mem_singleton_self _

theorem Single.start (h : t.Single) : t.start.Single := by
  unfold Timer.start
  split
  · exact h
  · rename_i hidle
    rw [Single, h, if_neg hidle, List.nil_append, if_pos rfl]

theorem Single.renew (h : t.Single) (hidle : t.pending = false) (g : G) :
    (t.renew g).Single := by
  rw [Single, hidle] at h
  simpa [Single, Timer.renew, hidle] using h

theorem Single.expire [DecidableEq G] (h : t.Single) (i : ℕ) : (t.expire i).Single := by
  unfold Timer.expire
  cases hi : t.outstanding[i]? with
  | none => exact h
  | some g =>
      have hmem := List.mem_of_getElem? hi
      cases hpending : t.pending with
      | false =>
          rw [h, hpending] at hmem
          cases hmem
      | true =>
          have houtstanding : t.outstanding = [t.generation] := by rw [h, if_pos hpending]
          rw [houtstanding, List.mem_singleton] at hmem
          have hfirst : i = 0 := by
            have hlt := (List.getElem?_eq_some_iff.mp hi).1
            rw [houtstanding, List.length_singleton] at hlt
            omega
          subst hfirst
          simp [Single, hmem, houtstanding]

/-- A timer that is renewed while it is pending will not expire any more. -/
theorem Single.not_live_renew (h : t.Single) (hpending : t.pending = true) {g : G}
    (hg : g ≠ t.generation) : ¬ (t.renew g).Live := by
  intro hlive
  have hmem : g ∈ t.outstanding := hlive hpending
  rw [h, if_pos hpending, List.mem_singleton] at hmem
  exact hg hmem

end Timer
