import Mathlib.Order.Defs.Unbundled
import Mathlib.Tactic.Common

/-! # Computations that keep their state when they throw -/

variable {σ ε α β : Type}

/-- From `s` the computation ends as `Q` says if it returns, and as `E` says if it throws. -/
def Ends (x : ExceptT ε (StateM σ) α) (s : σ) (Q : α → σ → Prop) (E : ε → σ → Prop) : Prop :=
  match x.run s with
  | (.ok a, t) => Q a t
  | (.error e, t) => E e t

namespace Ends

variable {x : ExceptT ε (StateM σ) α} {f : α → ExceptT ε (StateM σ) β} {s : σ}
  {Q Q' : α → σ → Prop} {R : β → σ → Prop} {E E' : ε → σ → Prop}

theorem of_ok (h : Ends x s Q E) {a : α} {t : σ} (hx : x.run s = (.ok a, t)) : Q a t := by
  rwa [Ends, hx] at h

theorem of_error (h : Ends x s Q E) {e : ε} {t : σ} (hx : x.run s = (.error e, t)) : E e t := by
  rwa [Ends, hx] at h

/-- What holds of the state in any case. -/
theorem state {P : σ → Prop} (h : Ends x s (fun _ t => P t) (fun _ t => P t)) :
    P (x.run s).2 := by
  rcases hx : x.run s with ⟨_ | _, t⟩
  · exact h.of_error hx
  · exact h.of_ok hx

theorem mono (h : Ends x s Q E) (hQ : ∀ a t, Q a t → Q' a t) (hE : ∀ e t, E e t → E' e t) :
    Ends x s Q' E' := by
  rcases hx : x.run s with ⟨_ | _, t⟩
  · rw [Ends, hx]
    exact hE _ _ (h.of_error hx)
  · rw [Ends, hx]
    exact hQ _ _ (h.of_ok hx)

theorem trivial : Ends x s (fun _ _ => True) (fun _ _ => True) := by
  rcases hx : x.run s with ⟨_ | _, t⟩ <;> rw [Ends, hx] <;> exact True.intro

/-- A computation that does not throw. -/
theorem returns (h : Ends x s Q fun _ _ => False) : ∃ a t, x.run s = (.ok a, t) ∧ Q a t := by
  rcases hx : x.run s with ⟨e | a, t⟩
  · exact (h.of_error hx).elim
  · exact ⟨a, t, rfl, h.of_ok hx⟩

/-- A computation does what it does. -/
theorem self : Ends x s (fun a t => x.run s = (.ok a, t)) (fun _ _ => True) := by
  rcases hx : x.run s with ⟨e | a, t⟩
  · rw [Ends, hx]
    exact True.intro
  · rw [Ends, hx]

/-! ## The rules -/

protected theorem pure {a : α} (h : Q a s) : Ends (pure a) s Q E := h

protected theorem throw {e : ε} (h : E e s) : Ends (throw e) s Q E := h

protected theorem get {Q : σ → σ → Prop} (h : Q s s) : Ends get s Q E := h

protected theorem modify {Q : Unit → σ → Prop} {g : σ → σ} (h : Q () (g s)) :
    Ends (modify g) s Q E := h

/-- The rule of sequences. -/
protected theorem bind (hx : Ends x s Q E) (hf : ∀ a t, Q a t → Ends (f a) t R E) :
    Ends (x >>= f) s R E := by
  have hbind : (x >>= f).run s = ExceptT.bindCont f (x.run s).1 (x.run s).2 := rfl
  rcases hrun : x.run s with ⟨e | a, t⟩
  · rw [hrun] at hbind
    rw [Ends, hbind]
    exact hx.of_error hrun
  · rw [hrun] at hbind
    rw [Ends, hbind]
    exact hf a t (hx.of_ok hrun)

/-- The rule of sequences, with an exception of the first part seen as one of the whole. -/
protected theorem seq (hx : Ends x s Q E') (hE : ∀ e t, E' e t → E e t)
    (hf : ∀ a t, Q a t → Ends (f a) t R E) : Ends (x >>= f) s R E :=
  .bind (hx.mono (fun _ _ h => h) hE) hf

theorem throw_bind {e : ε} (h : E e s) : Ends (throw e >>= f) s R E := h

theorem pure_bind {a : α} (h : Ends (f a) s R E) : Ends (pure a >>= f) s R E := h

theorem get_bind {f : σ → ExceptT ε (StateM σ) β} (h : Ends (f s) s R E) :
    Ends (get >>= f) s R E :=
  .bind (.get (Q := fun a t => a = s ∧ t = s) ⟨rfl, rfl⟩) fun _ _ ht => ht.1 ▸ ht.2 ▸ h

theorem modify_bind {g : σ → σ} {f : Unit → ExceptT ε (StateM σ) β} (h : Ends (f ()) (g s) R E) :
    Ends (modify g >>= f) s R E :=
  .bind (.modify (Q := fun _ t => t = g s) rfl) fun _ _ ht => ht ▸ h

protected theorem ite {c : Prop} [Decidable c] {x y : ExceptT ε (StateM σ) α}
    (hx : c → Ends x s Q E) (hy : ¬ c → Ends y s Q E) : Ends (if c then x else y) s Q E := by
  split
  · exact hx ‹c›
  · exact hy ‹¬ c›

/-- The rule of sequences for a first part that is made under a condition. -/
theorem when_bind {c : Prop} [Decidable c] {x : ExceptT ε (StateM σ) Unit}
    {f : Unit → ExceptT ε (StateM σ) β} {Q : Unit → σ → Prop}
    (hx : c → Ends x s Q E) (hskip : ¬ c → Q () s) (hf : ∀ t, Q () t → Ends (f ()) t R E) :
    Ends (if c then x >>= f else f ()) s R E :=
  .ite (fun hc => .bind (hx hc) fun _ t ht => hf t ht) fun hc => hf s (hskip hc)

end Ends

/-! ## Computations that keep to a relation -/

/-- However the computation ends, it leaves a state that is related to the first one. -/
def Keeps (R : σ → σ → Prop) (x : ExceptT ε (StateM σ) α) (s : σ) : Prop :=
  Ends x s (fun _ t => R s t) (fun _ t => R s t)

namespace Keeps

variable {R R' : σ → σ → Prop} {x : ExceptT ε (StateM σ) α} {f : α → ExceptT ε (StateM σ) β} {s : σ}

theorem imp (h : Keeps R x s) (hR : ∀ t, R s t → R' s t) : Keeps R' x s :=
  h.mono (fun _ t ht => hR t ht) fun _ t ht => hR t ht

protected theorem modify {g : σ → σ} (h : R s (g s)) :
    Keeps R (modify g : ExceptT ε (StateM σ) Unit) s := h

theorem get_bind {f : σ → ExceptT ε (StateM σ) β} (h : Keeps R (f s) s) :
    Keeps R (get >>= f) s := h

protected theorem ite {c : Prop} [Decidable c] {x y : ExceptT ε (StateM σ) α}
    (hx : c → Keeps R x s) (hy : ¬ c → Keeps R y s) : Keeps R (if c then x else y) s :=
  Ends.ite hx hy

variable [IsPreorder σ R]

protected theorem pure {a : α} : Keeps R (pure a : ExceptT ε (StateM σ) α) s := refl s

protected theorem throw {e : ε} : Keeps R (throw e : ExceptT ε (StateM σ) α) s := refl s

theorem throw_bind {e : ε} : Keeps R (throw e >>= f) s := refl s

protected theorem bind (hx : Keeps R x s) (hf : ∀ a t, R s t → Keeps R (f a) t) :
    Keeps R (x >>= f) s :=
  Ends.bind hx fun a t ht =>
    (hf a t ht).mono (fun _ _ hu => trans_of R ht hu) fun _ _ hu => trans_of R ht hu

theorem when_bind {c : Prop} [Decidable c] {x : ExceptT ε (StateM σ) Unit}
    {f : Unit → ExceptT ε (StateM σ) β} (hx : c → Keeps R x s)
    (hf : ∀ t, R s t → Keeps R (f ()) t) : Keeps R (if c then x >>= f else f ()) s :=
  .ite (fun hc => .bind (hx hc) fun _ => hf) fun _ => hf s (refl s)

theorem modify_bind {g : σ → σ} {f : Unit → ExceptT ε (StateM σ) β} (h : R s (g s))
    (hf : Keeps R (f ()) (g s)) : Keeps R (modify g >>= f) s :=
  Ends.modify_bind (hf.mono (fun _ _ hu => trans_of R h hu) fun _ _ hu => trans_of R h hu)

end Keeps

/-! ## What has to hold before -/

/-- From `s` the computation returns, and ends as `Q` says. -/
def Achieves (x : ExceptT ε (StateM σ) α) (s : σ) (Q : α → σ → Prop) : Prop :=
  Ends x s Q fun _ _ => False

namespace Achieves

variable {x y : ExceptT ε (StateM σ) α} {f : α → ExceptT ε (StateM σ) β} {s : σ}
  {Q Q' : α → σ → Prop} {R : β → σ → Prop}

theorem iff_exists : Achieves x s Q ↔ ∃ a t, x.run s = (.ok a, t) ∧ Q a t := by
  constructor
  · exact Ends.returns
  · rintro ⟨a, t, hx, h⟩
    rw [Achieves, Ends, hx]
    exact h

theorem congr (h : ∀ a t, Q a t ↔ Q' a t) : Achieves x s Q ↔ Achieves x s Q' :=
  ⟨fun hx => hx.mono (fun a t => (h a t).mp) fun _ _ => id,
    fun hx => hx.mono (fun a t => (h a t).mpr) fun _ _ => id⟩

theorem pure_iff {a : α} : Achieves (pure a : ExceptT ε (StateM σ) α) s Q ↔ Q a s := Iff.rfl

theorem not_throw {e : ε} : ¬ Achieves (throw e : ExceptT ε (StateM σ) α) s Q := id

theorem not_throw_bind {e : ε} : ¬ Achieves (throw e >>= f) s R := id

theorem bind_iff : Achieves (x >>= f) s R ↔ Achieves x s fun a t => Achieves (f a) t R := by
  have hbind : (x >>= f).run s = ExceptT.bindCont f (x.run s).1 (x.run s).2 := rfl
  rcases hrun : x.run s with ⟨e | a, t⟩
  · rw [hrun] at hbind
    rw [Achieves, Achieves, Ends, Ends, hbind, hrun]
    exact Iff.rfl
  · rw [hrun] at hbind
    rw [Achieves, Achieves, Ends, Ends, hbind, hrun]
    exact Iff.rfl

theorem pure_bind_iff {a : α} : Achieves (pure a >>= f) s R ↔ Achieves (f a) s R := Iff.rfl

theorem get_bind_iff {f : σ → ExceptT ε (StateM σ) β} :
    Achieves (get >>= f) s R ↔ Achieves (f s) s R := Iff.rfl

theorem modify_bind_iff {g : σ → σ} {f : Unit → ExceptT ε (StateM σ) β} :
    Achieves (modify g >>= f) s R ↔ Achieves (f ()) (g s) R := Iff.rfl

theorem ite_iff {c : Prop} [Decidable c] :
    Achieves (if c then x else y) s Q ↔ if c then Achieves x s Q else Achieves y s Q := by
  split <;> rfl

/-- A first part that always returns in a way that decides the rest. -/
theorem bind_of_achieves {p : Prop} (hx : Achieves x s Q)
    (hf : ∀ a t, Q a t → (Achieves (f a) t R ↔ p)) : Achieves (x >>= f) s R ↔ p := by
  obtain ⟨a, t, hrun, h⟩ := iff_exists.mp hx
  rw [bind_iff, iff_exists]
  constructor
  · rintro ⟨b, u, hrun', hrest⟩
    rw [hrun] at hrun'
    cases hrun'
    exact (hf _ _ h).mp hrest
  · exact fun hp => ⟨a, t, hrun, (hf a t h).mpr hp⟩

end Achieves
