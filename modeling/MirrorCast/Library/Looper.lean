import Mathlib.Data.List.Basic

/-! # Message loops

A looper hands out the messages posted to it in their order until it is asked to quit; then the
messages it has are dropped, and so is all that is posted later. A message counts as one it has
until its handler returns, and a handler that other threads may see at work stops at points. -/

/-- The messages, the point at which the handler of the first one is, if that is at work, and
whether the loop was asked to quit. -/
structure Looper (μ π : Type*) where
  messages : List μ
  point : Option π
  quitting : Bool
  deriving DecidableEq, Repr

namespace Looper

variable {μ π : Type*} {l : Looper μ π} {m m' : μ} {p : π}

def new : Looper μ π := ⟨[], none, false⟩

def post (l : Looper μ π) (m : μ) : Looper μ π :=
  if l.quitting then l else { l with messages := l.messages ++ [m] }

/-- A handler that is at work goes on. -/
def quit (l : Looper μ π) : Looper μ π := ⟨[], l.point, true⟩

/-- The handler gets to a point. -/
def goTo (l : Looper μ π) (p : π) : Looper μ π := { l with point := some p }

/-- The handler of the first message returns. -/
def done (l : Looper μ π) : Looper μ π := { l with messages := l.messages.tail, point := none }

@[simp] theorem quitting_new : (new : Looper μ π).quitting = false := rfl

@[simp] theorem messages_new : (new : Looper μ π).messages = [] := rfl

@[simp] theorem point_new : (new : Looper μ π).point = none := rfl

@[simp] theorem quitting_goTo : (l.goTo p).quitting = l.quitting := rfl

@[simp] theorem messages_goTo : (l.goTo p).messages = l.messages := rfl

@[simp] theorem point_goTo : (l.goTo p).point = some p := rfl

@[simp] theorem quitting_done : l.done.quitting = l.quitting := rfl

@[simp] theorem messages_done : l.done.messages = l.messages.tail := rfl

@[simp] theorem point_done : l.done.point = none := rfl

@[simp] theorem quitting_post : (l.post m).quitting = l.quitting := by
  unfold post
  split <;> rfl

@[simp] theorem point_post : (l.post m).point = l.point := by
  unfold post
  split <;> rfl

theorem messages_post (h : l.quitting = false) : (l.post m).messages = l.messages ++ [m] := by
  simp [post, h]

theorem post_of_quitting (h : l.quitting = true) : l.post m = l := by
  simp [post, h]

theorem mem_post_self (h : l.quitting = false) : m ∈ (l.post m).messages := by
  simp [messages_post h]

/-- To post a message does nothing to the others. -/
theorem mem_post_iff_of_ne (h : m' ≠ m) : m' ∈ (l.post m).messages ↔ m' ∈ l.messages := by
  cases hquitting : l.quitting with
  | false => simp [messages_post hquitting, h]
  | true => rw [post_of_quitting hquitting]

theorem mem_post_of_mem (h : m' ∈ l.messages) : m' ∈ (l.post m).messages := by
  cases hquitting : l.quitting with
  | false => simp [messages_post hquitting, h]
  | true => rwa [post_of_quitting hquitting]

theorem mem_post (h : m' ∈ (l.post m).messages) : m' ∈ l.messages ∨ m' = m := by
  by_cases heq : m' = m
  · exact .inr heq
  · exact .inl ((mem_post_iff_of_ne heq).mp h)

/-- Only the first message goes. -/
theorem mem_done_iff_of_ne (hfirst : l.messages.head? = some m) (h : m' ≠ m) :
    m' ∈ l.done.messages ↔ m' ∈ l.messages := by
  obtain ⟨ms, hms⟩ := List.head?_eq_some_iff.mp hfirst
  simp [hms, h]

theorem head?_post (h : l.messages.head? = some m) : (l.post m').messages.head? = some m := by
  cases hquitting : l.quitting with
  | false => rw [messages_post hquitting, List.head?_append, h, Option.some_or]
  | true => rwa [post_of_quitting hquitting]

/-! ## Points -/

/-- The handler that is at work is one of the first message; `handles p m` is whether `p` is a
point of the handler of `m`. -/
def Fits (handles : π → μ → Prop) (l : Looper μ π) : Prop :=
  ∀ p, l.point = some p → ∃ m, l.messages.head? = some m ∧ handles p m

variable {handles : π → μ → Prop}

theorem Fits.post (h : l.Fits handles) (m : μ) : (l.post m).Fits handles := by
  intro p hp
  rw [point_post] at hp
  obtain ⟨m', hfirst, hm'⟩ := h p hp
  exact ⟨m', head?_post hfirst, hm'⟩

theorem fits_goTo (hfirst : l.messages.head? = some m) (h : handles p m) :
    (l.goTo p).Fits handles := by
  rintro _ ⟨⟩
  exact ⟨m, hfirst, h⟩

/-- No handler is at work without a message. -/
theorem Fits.point_eq_none (h : l.Fits handles) (hmessages : l.messages = []) :
    l.point = none := by
  cases hp : l.point with
  | none => rfl
  | some p =>
      obtain ⟨m, hfirst, -⟩ := h p hp
      rw [hmessages] at hfirst
      cases hfirst

theorem fits_of_point (h : l.point = none) : l.Fits handles := by
  intro p hp
  rw [h] at hp
  cases hp

end Looper
