import Mathlib.Tactic.Common

/-! # Computations with a state, exceptions and a log

The log and the state are kept when a computation throws. A computation is clean for a predicate
when it returns and every entry of its log satisfies the predicate. -/

variable {ω σ ε α β : Type}

/-- A computation with log entries `ω`, state `σ` and exceptions `ε`. -/
def Audit (ω σ ε α : Type) := σ → List ω × Except ε α × σ

namespace Audit

protected def pure (a : α) : Audit ω σ ε α := fun s => ([], .ok a, s)

protected def bind (m : Audit ω σ ε α) (f : α → Audit ω σ ε β) : Audit ω σ ε β := fun s =>
  match m s with
  | (log, .ok a, s') => (log ++ (f a s').1, (f a s').2)
  | (log, .error e, s') => (log, .error e, s')

instance : Monad (Audit ω σ ε) where
  pure := Audit.pure
  bind := Audit.bind

protected def fail (e : ε) : Audit ω σ ε α := fun s => ([], .error e, s)

protected def log (entries : List ω) : Audit ω σ ε Unit := fun s => (entries, .ok (), s)

protected def get : Audit ω σ ε σ := fun s => ([], .ok s, s)

protected def set (s : σ) : Audit ω σ ε Unit := fun _ => ([], .ok (), s)

/-- From `s` the computation returns `a` in state `s'`, and its log satisfies `P`. -/
def Clean (P : ω → Prop) (m : Audit ω σ ε α) (s : σ) (a : α) (s' : σ) : Prop :=
  (∀ w ∈ (m s).1, P w) ∧ (m s).2 = (.ok a, s')

/-- The computation returns, and its log satisfies `P`. -/
def Safe (P : ω → Prop) (m : Audit ω σ ε α) (s : σ) : Prop := ∃ a s', Clean P m s a s'

variable {P : ω → Prop} {s s' : σ}

@[simp] theorem clean_pure {a b : α} :
    Clean P (Pure.pure a : Audit ω σ ε α) s b s' ↔ a = b ∧ s = s' := by
  simp [Clean, Pure.pure, Audit.pure]

@[simp] theorem clean_fail {e : ε} {a : α} : ¬ Clean P (Audit.fail e : Audit ω σ ε α) s a s' := by
  simp [Clean, Audit.fail]

@[simp] theorem clean_log {entries : List ω} {u : Unit} :
    Clean P (Audit.log entries : Audit ω σ ε Unit) s u s' ↔ (∀ w ∈ entries, P w) ∧ s = s' := by
  simp [Clean, Audit.log]

@[simp] theorem clean_get {t : σ} :
    Clean P (Audit.get : Audit ω σ ε σ) s t s' ↔ t = s ∧ s' = s := by
  simp only [Clean, Audit.get]
  constructor
  · rintro ⟨-, h⟩
    cases h
    exact ⟨rfl, rfl⟩
  · rintro ⟨rfl, rfl⟩
    exact ⟨by simp, rfl⟩

@[simp] theorem clean_set {t : σ} {u : Unit} :
    Clean P (Audit.set t : Audit ω σ ε Unit) s u s' ↔ t = s' := by
  simp [Clean, Audit.set]

/-- A sequence is clean exactly if both of its parts are. -/
@[simp] theorem clean_bind {m : Audit ω σ ε α} {f : α → Audit ω σ ε β} {b : β} {s'' : σ} :
    Clean P (m >>= f) s b s'' ↔ ∃ a s', Clean P m s a s' ∧ Clean P (f a) s' b s'' := by
  have hbind : (m >>= f) s = Audit.bind m f s := rfl
  simp only [Clean, hbind, Audit.bind]
  rcases hm : m s with ⟨entries, e | a, s'⟩
  · simp
  · constructor
    · rintro ⟨hlog, hok⟩
      refine ⟨a, s', ⟨fun w hw => hlog w ?_, rfl⟩, fun w hw => hlog w ?_, hok⟩
      · exact List.mem_append_left _ hw
      · exact List.mem_append_right _ hw
    · rintro ⟨a', t, ⟨hlog, hok⟩, hlog', hok'⟩
      cases hok
      refine ⟨fun w hw => ?_, hok'⟩
      rcases List.mem_append.mp hw with hw | hw
      · exact hlog w hw
      · exact hlog' w hw

theorem safe_bind {m : Audit ω σ ε α} {f : α → Audit ω σ ε β} :
    Safe P (m >>= f) s ↔ ∃ a s', Clean P m s a s' ∧ Safe P (f a) s' := by
  simp only [Safe, clean_bind]
  constructor
  · rintro ⟨b, s'', a, s', hm, hf⟩
    exact ⟨a, s', hm, b, s'', hf⟩
  · rintro ⟨a, s', hm, b, s'', hf⟩
    exact ⟨b, s'', a, s', hm, hf⟩

theorem safe_pure (a : α) : Safe P (Pure.pure a : Audit ω σ ε α) s := ⟨a, s, by simp⟩

/-! ## How a computation ends -/

/-- What the computation returns or throws, and the state it leaves. -/
def outcome (m : Audit ω σ ε α) (s : σ) : Except ε α × σ := (m s).2

@[simp] theorem outcome_pure (a : α) :
    outcome (Pure.pure a : Audit ω σ ε α) s = (.ok a, s) := rfl

@[simp] theorem outcome_fail (e : ε) :
    outcome (Audit.fail e : Audit ω σ ε α) s = (.error e, s) := rfl

@[simp] theorem outcome_log (entries : List ω) :
    outcome (Audit.log entries : Audit ω σ ε Unit) s = (.ok (), s) := rfl

@[simp] theorem outcome_get : outcome (Audit.get : Audit ω σ ε σ) s = (.ok s, s) := rfl

@[simp] theorem outcome_set (t : σ) :
    outcome (Audit.set t : Audit ω σ ε Unit) s = (.ok (), t) := rfl

variable {m : Audit ω σ ε α}

theorem outcome_bind_of_ok {a : α} (h : outcome m s = (.ok a, s')) (f : α → Audit ω σ ε β) :
    outcome (m >>= f) s = outcome (f a) s' := by
  have hbind : (m >>= f) s = Audit.bind m f s := rfl
  rw [outcome, hbind, Audit.bind]
  rcases hm : m s with ⟨entries, e | b, t⟩
  · rw [outcome, hm] at h
    cases h
  · rw [outcome, hm] at h
    cases h
    rfl

theorem outcome_bind_of_error {e : ε} (h : outcome m s = (.error e, s'))
    (f : α → Audit ω σ ε β) : outcome (m >>= f) s = (.error e, s') := by
  have hbind : (m >>= f) s = Audit.bind m f s := rfl
  rw [outcome, hbind, Audit.bind]
  rcases hm : m s with ⟨entries, e' | b, t⟩
  · rw [outcome, hm] at h
    cases h
    rfl
  · rw [outcome, hm] at h
    cases h

end Audit
