import Mathlib.Data.List.Basic
import Mathlib.Tactic.Linarith
import Mathlib.Tactic.Ring

/-! # Processes that post messages to themselves with a delay -/

namespace Delays

/-- A process that handles messages `M` as events `E`, at a time. What it posts has a delay. -/
structure Process (S E M : Type*) where
  time : E → ℤ
  message : E → M
  /-- The message may come in at any time. -/
  outside : M → Prop
  handles : E → S → S → List (ℤ × M) → Prop

/-- A state of the process, with the messages to come and the times when they are due. -/
structure Moment (S M : Type*) where
  state : S
  now : ℤ
  pending : List (ℤ × M)

variable {S E M : Type*}

/-- What an event at a time has posted becomes due later. -/
def due (now : ℤ) (posts : List (ℤ × M)) : List (ℤ × M) := posts.map fun p => (now + p.1, p.2)

/-- The next event: no message is passed over. It handles the message that is due, or one that
comes in before that. -/
structure Step (P : Process S E M) (a : Moment S M) (e : E) (b : Moment S M) : Prop where
  later : a.now ≤ P.time e
  first : ∀ p ∈ a.pending, P.time e ≤ p.1
  now : b.now = P.time e
  handled : ∃ posts rest, P.handles e a.state b.state posts ∧
    b.pending = rest ++ due (P.time e) posts ∧
    (P.outside (P.message e) ∧ rest = a.pending ∨
      ∃ before after, a.pending = before ++ (P.time e, P.message e) :: after ∧
        rest = before ++ after)

/-- A run, with the events so far and the states that they were handled in. -/
inductive Run (P : Process S E M) (a : Moment S M) : List (S × E) → Moment S M → Prop
  | nil : Run P a [] a
  | step {history : List (S × E)} {b c : Moment S M} {e : E} (hrun : Run P a history b)
      (hstep : Step P b e c) : Run P a (history ++ [(b.state, e)]) c

namespace Run

variable {P : Process S E M} {a b : Moment S M} {history : List (S × E)}

/-- What a step preserves holds all along. -/
theorem invariant {I : List (S × E) → Moment S M → Prop} (hrun : Run P a history b)
    (hfirst : I [] a)
    (hstep : ∀ history b c e, I history b → Step P b e c → I (history ++ [(b.state, e)]) c) :
    I history b := by
  induction hrun with
  | nil => exact hfirst
  | step _ h ih => exact hstep _ _ _ _ ih h

/-- The run up to an event. -/
theorem split {before after : List (S × E)} {x : S × E} (hrun : Run P a history b)
    (h : history = before ++ x :: after) :
    ∃ c d, Run P a before c ∧ c.state = x.1 ∧ Step P c x.2 d := by
  induction hrun generalizing after with
  | nil => simp at h
  | step hrun hstep ih =>
      rcases List.eq_nil_or_concat after with rfl | ⟨after, y, rfl⟩
      · obtain ⟨rfl, hlast⟩ := List.append_inj' h rfl
        cases List.singleton_inj.mp hlast
        exact ⟨_, _, hrun, rfl, hstep⟩
      · rw [List.concat_eq_append, ← List.cons_append, ← List.append_assoc] at h
        exact ih (List.append_inj' h rfl).1

end Run

/-! ## Periodic messages -/

/-- The times at which ticks are due. -/
def ticks (tick : M → Bool) (pending : List (ℤ × M)) : List ℤ :=
  (pending.filter (tick ·.2)).map Prod.fst

/-- Only the handling of a tick posts a tick, one at most, and with the period as its delay. -/
structure Periodic (P : Process S E M) (tick : M → Bool) (period : ℤ) (I : S → Prop) : Prop where
  preserves : ∀ {e s t posts}, I s → P.handles e s t posts → I t
  inside : ∀ {m}, tick m = true → ¬ P.outside m
  other : ∀ {e s t posts}, I s → P.handles e s t posts → tick (P.message e) = false →
    ∀ p ∈ posts, tick p.2 = false
  own : ∀ {e s t posts}, I s → P.handles e s t posts → tick (P.message e) = true →
    ticks tick posts = [] ∨ ticks tick posts = [period]

variable {P : Process S E M} {tick : M → Bool} {period : ℤ} {I : S → Prop}

/-- All ticks were on schedule, and the next one is if there will be one. -/
structure OnSchedule (P : Process S E M) (tick : M → Bool) (period start : ℤ) (I : S → Prop)
    (history : List (S × E)) (b : Moment S M) : Prop where
  state : I b.state
  past : ∀ x ∈ history, tick (P.message x.2) = true →
    ∃ k : ℕ, 0 < k ∧ P.time x.2 = start + k * period
  next : ticks tick b.pending = [] ∨
    ∃ k : ℕ, 0 < k ∧ ticks tick b.pending = [start + k * period]

theorem ticks_append (xs ys : List (ℤ × M)) :
    ticks tick (xs ++ ys) = ticks tick xs ++ ticks tick ys := by
  simp [ticks]

theorem ticks_due (now : ℤ) (posts : List (ℤ × M)) :
    ticks tick (due now posts) = (ticks tick posts).map (now + ·) := by
  simp only [ticks, due, List.filter_map, List.map_map]
  rfl

theorem ticks_cons (p : ℤ × M) (ps : List (ℤ × M)) :
    ticks tick (p :: ps) = if tick p.2 = true then p.1 :: ticks tick ps else ticks tick ps := by
  rw [ticks, List.filter_cons]
  split <;> rfl

/-- A tick that is handled was the only one. -/
theorem OnSchedule.handled {start : ℤ} {history : List (S × E)} {b c : Moment S M} {e : E}
    (hP : Periodic P tick period I) (h : OnSchedule P tick period start I history b)
    (hstep : Step P b e c) (htick : tick (P.message e) = true) :
    ∃ k : ℕ, 0 < k ∧ P.time e = start + k * period ∧
      (ticks tick c.pending = [] ∨ ticks tick c.pending = [start + (k + 1 : ℕ) * period]) := by
  obtain ⟨posts, rest, hhandles, hpending, hrest⟩ := hstep.handled
  obtain houtside | ⟨before, after, hbefore, rfl⟩ := hrest
  · exact absurd houtside.1 (hP.inside htick)
  have hticks : ticks tick b.pending = ticks tick before ++ P.time e :: ticks tick after := by
    rw [hbefore, ticks_append, ticks_cons, if_pos htick]
  rcases h.next with hnone | ⟨k, hk, hone⟩
  · simp [hnone] at hticks
  rw [hone] at hticks
  obtain ⟨hbefore, htime, hafter⟩ : ticks tick before = [] ∧ P.time e = start + k * period ∧
      ticks tick after = [] := by
    cases hempty : ticks tick before with
    | nil =>
        rw [hempty, List.nil_append] at hticks
        obtain ⟨htime, hafter⟩ := List.cons.inj hticks
        exact ⟨rfl, htime.symm, hafter.symm⟩
    | cons t ts =>
        rw [hempty] at hticks
        simp at hticks
  refine ⟨k, hk, htime, ?_⟩
  rw [hpending, ticks_append, ticks_append, hbefore, hafter, List.append_nil, List.nil_append,
    ticks_due]
  rcases hP.own h.state hhandles htick with hposts | hposts
  · rw [hposts]
    exact .inl rfl
  · rw [hposts, List.map_singleton, htime]
    refine .inr (congrArg (fun t => [t]) ?_)
    push_cast
    ring

theorem OnSchedule.step (hP : Periodic P tick period I) {start : ℤ} {history : List (S × E)}
    {b c : Moment S M} {e : E} (h : OnSchedule P tick period start I history b)
    (hstep : Step P b e c) :
    OnSchedule P tick period start I (history ++ [(b.state, e)]) c := by
  obtain ⟨posts, rest, hhandles, hpending, hrest⟩ := hstep.handled
  have hstate := hP.preserves h.state hhandles
  cases htick : tick (P.message e) with
  | true =>
      obtain ⟨k, hk, htime, hnext⟩ := h.handled hP hstep htick
      refine ⟨hstate, fun x hx hx' => ?_, hnext.imp id fun hnext => ⟨k + 1, Nat.succ_pos k, hnext⟩⟩
      rcases List.mem_append.mp hx with hx | hx
      · exact h.past x hx hx'
      · cases List.mem_singleton.mp hx
        exact ⟨k, hk, htime⟩
  | false =>
      have hposts : ticks tick posts = [] := by
        have hfilter := List.filter_eq_nil_iff.mpr fun p hp => by
          simpa using hP.other h.state hhandles htick p hp
        rw [ticks, hfilter, List.map_nil]
      have hsame : ticks tick c.pending = ticks tick b.pending := by
        rw [hpending, ticks_append, ticks_due, hposts, List.map_nil, List.append_nil]
        rcases hrest with ⟨-, rfl⟩ | ⟨before, after, hbefore, rfl⟩
        · rfl
        · rw [hbefore, ticks_append, ticks_append, ticks_cons, if_neg (by simp [htick])]
      refine ⟨hstate, fun x hx hx' => ?_, hsame ▸ h.next⟩
      rcases List.mem_append.mp hx with hx | hx
      · exact h.past x hx hx'
      · cases List.mem_singleton.mp hx
        rw [htick] at hx'
        cases hx'

/-- All ticks of a run are one period after the other. -/
theorem Run.onSchedule (hP : Periodic P tick period I) {start : ℤ} {a b : Moment S M}
    {history : List (S × E)} (hrun : Run P a history b) (hstate : I a.state)
    (hticks : ticks tick a.pending = [start + period]) :
    OnSchedule P tick period start I history b := by
  refine hrun.invariant ⟨hstate, nofun, .inr ⟨1, Nat.one_pos, ?_⟩⟩ fun _ _ _ _ h hstep =>
    h.step hP hstep
  rw [hticks, Nat.cast_one, one_mul]

end Delays
