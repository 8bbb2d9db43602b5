import MirrorCast.Library.Java

/-! # Searching arrays with checked access

What an access out of range means is a parameter: an exception, or undefined behaviour. A
search that stays in range does not depend on it. -/

namespace Scanning

open Java

variable {ε ε' : Type*} {α : Type}

/-- `xs[i]`. -/
def read (oob : ε) (xs : List α) (i : ℤ) : Except ε α :=
  if i < 0 then .error oob
  else
    match xs[i.toNat]? with
    | some x => .ok x
    | none => .error oob

theorem read_eq_ok {oob : ε} {xs : List α} {i : ℤ} {x : α} :
    read oob xs i = .ok x ↔ 0 ≤ i ∧ xs[i.toNat]? = some x := by
  unfold read
  rcases lt_or_ge i 0 with hi | hi
  · rw [if_pos hi]
    exact iff_of_false (fun h => by cases h) fun h => absurd h.1 (not_le.mpr hi)
  · rw [if_neg (not_lt.mpr hi), and_iff_right hi]
    cases xs[i.toNat]? with
    | none => exact iff_of_false (fun h => by cases h) fun h => by cases h
    | some y =>
        exact ⟨fun h => congrArg some (Except.ok.inj h),
          fun h => congrArg _ (Option.some.inj h)⟩

/-- Whatever the first computation returns, the second returns, too. -/
def Agrees {β : Type} (x : Except ε β) (y : Except ε' β) : Prop := ∀ b, x = .ok b → y = .ok b

namespace Agrees

variable {β γ : Type}

theorem pure (b : β) : Agrees (.ok b : Except ε β) (.ok b : Except ε' β) := by
  intro c h
  cases h
  rfl

theorem bind {x : Except ε β} {y : Except ε' β} {f : β → Except ε γ} {g : β → Except ε' γ}
    (hx : Agrees x y) (hf : ∀ b, Agrees (f b) (g b)) : Agrees (x >>= f) (y >>= g) := by
  intro c h
  obtain ⟨b, hb, h⟩ := bind_eq_ok.mp h
  rw [hx b hb, ok_bind]
  exact hf b c h

theorem ite {c : Prop} [Decidable c] {x x' : Except ε β} {y y' : Except ε' β}
    (h : Agrees x y) (h' : Agrees x' y') :
    Agrees (if c then x else x') (if c then y else y') := by
  split
  · exact h
  · exact h'

end Agrees

theorem read_agrees (oob : ε) (oob' : ε') (xs : List α) (i : ℤ) :
    Agrees (read oob xs i) (read oob' xs i) :=
  fun _ h => read_eq_ok.mpr (read_eq_ok.mp h)

variable [DecidableEq α]

/-- `xs[i] == p₀ && xs[i + 1] == p₁ && …`, which ends at the first difference. -/
def startsAt (oob : ε) (xs : List α) (i : ℕ) : List α → Except ε Bool
  | [] => .ok true
  | p :: pattern => do
      let x ← read oob xs i
      if x = p then startsAt oob xs (i + 1) pattern else return false

/-- The first of the `n` positions from `i` on at which the pattern starts. -/
def findFrom (oob : ε) (xs pattern : List α) : ℕ → ℕ → Except ε (Option ℕ)
  | 0, _ => .ok none
  | n + 1, i => do
      if ← startsAt oob xs i pattern then return some i else findFrom oob xs pattern n (i + 1)

theorem startsAt_eq_true {oob : ε} {xs pattern : List α} {i : ℕ} :
    startsAt oob xs i pattern = .ok true ↔ pattern <+: xs.drop i := by
  induction pattern generalizing i with
  | nil => simp [startsAt]
  | cons p pattern ih =>
      rw [startsAt, bind_eq_ok]
      constructor
      · rintro ⟨x, hx, h⟩
        obtain ⟨-, hx⟩ := read_eq_ok.mp hx
        rw [Int.toNat_natCast] at hx
        split at h
        · rename_i heq
          subst heq
          obtain ⟨hi, rfl⟩ := List.getElem?_eq_some_iff.mp hx
          rw [List.drop_eq_getElem_cons hi]
          exact List.cons_prefix_cons.mpr ⟨rfl, ih.mp h⟩
        · cases h
      · intro h
        have hi : i < xs.length := by
          have hle := h.length_le
          rw [List.length_drop, List.length_cons] at hle
          omega
        rw [List.drop_eq_getElem_cons hi] at h
        obtain ⟨rfl, hrest⟩ := List.cons_prefix_cons.mp h
        refine ⟨xs[i], read_eq_ok.mpr ⟨Int.natCast_nonneg i, ?_⟩, ?_⟩
        · rw [Int.toNat_natCast]
          exact List.getElem?_eq_getElem hi
        · rw [if_pos rfl]
          exact ih.mpr hrest

theorem startsAt_agrees (oob : ε) (oob' : ε') (xs pattern : List α) (i : ℕ) :
    Agrees (startsAt oob xs i pattern) (startsAt oob' xs i pattern) := by
  induction pattern generalizing i with
  | nil => exact .pure true
  | cons p pattern ih =>
      exact (read_agrees oob oob' xs i).bind fun x => .ite (ih (i + 1)) (.pure false)

theorem findFrom_agrees (oob : ε) (oob' : ε') (xs pattern : List α) (n i : ℕ) :
    Agrees (findFrom oob xs pattern n i) (findFrom oob' xs pattern n i) := by
  induction n generalizing i with
  | zero => exact .pure none
  | succ n ih =>
      exact (startsAt_agrees oob oob' xs pattern i).bind fun _ => .ite (.pure (some i)) (ih (i + 1))

theorem findFrom_eq_some {oob : ε} {xs pattern : List α} {n i j : ℕ}
    (h : findFrom oob xs pattern n i = .ok (some j)) :
    i ≤ j ∧ j < i + n ∧ pattern <+: xs.drop j := by
  induction n generalizing i with
  | zero => cases h
  | succ n ih =>
      obtain ⟨starts, hstarts, h⟩ := bind_eq_ok.mp h
      split at h
      · rename_i htrue
        rw [htrue] at hstarts
        cases h
        exact ⟨Nat.le_refl _, by omega, startsAt_eq_true.mp hstarts⟩
      · obtain ⟨hle, hlt, hbegins⟩ := ih h
        exact ⟨by omega, by omega, hbegins⟩

theorem findFrom_eq_none {oob : ε} {xs pattern : List α} {n i : ℕ}
    (h : findFrom oob xs pattern n i = .ok none) {j : ℕ} (hle : i ≤ j) (hlt : j < i + n) :
    ¬ pattern <+: xs.drop j := by
  induction n generalizing i with
  | zero => omega
  | succ n ih =>
      obtain ⟨starts, hstarts, h⟩ := bind_eq_ok.mp h
      split at h
      · cases h
      · rename_i hfalse
        rcases Nat.eq_or_lt_of_le hle with rfl | hlt'
        · intro hbegins
          rw [startsAt_eq_true.mpr hbegins] at hstarts
          exact hfalse (Except.ok.inj hstarts).symm
        · exact ih h hlt' (by omega)

theorem startsAt_eq_false {oob : ε} {xs pattern : List α} {i : ℕ}
    (hlength : i + pattern.length ≤ xs.length) (h : ¬ pattern <+: xs.drop i) :
    startsAt oob xs i pattern = .ok false := by
  induction pattern generalizing i with
  | nil => exact absurd (List.nil_prefix) h
  | cons p pattern ih =>
      rw [List.length_cons] at hlength
      have hi : i < xs.length := by omega
      have hread : read oob xs i = .ok xs[i] :=
        read_eq_ok.mpr ⟨Int.natCast_nonneg i, by
          rw [Int.toNat_natCast]
          exact List.getElem?_eq_getElem hi⟩
      rw [startsAt, hread, ok_bind]
      by_cases heq : xs[i] = p
      · rw [if_pos heq]
        refine ih (by omega) fun hrest => h ?_
        rw [List.drop_eq_getElem_cons hi]
        exact List.cons_prefix_cons.mpr ⟨heq.symm, hrest⟩
      · rw [if_neg heq]
        rfl

/-- The search stays in range up to the first place of the pattern. -/
theorem findFrom_of_first {oob : ε} {xs pattern : List α} {n i j : ℕ} (hle : i ≤ j)
    (hlt : j < i + n) (h : pattern <+: xs.drop j)
    (hfirst : ∀ k, i ≤ k → k < j → ¬ pattern <+: xs.drop k) :
    findFrom oob xs pattern n i = .ok (some j) := by
  induction n generalizing i with
  | zero => omega
  | succ n ih =>
      rw [findFrom]
      rcases Nat.eq_or_lt_of_le hle with rfl | hlt'
      · rw [startsAt_eq_true.mpr h, ok_bind, if_pos rfl]
        rfl
      · have hlength := h.length_le
        rw [List.length_drop] at hlength
        have hfit : i + pattern.length ≤ xs.length := by
          rcases Nat.eq_zero_or_pos pattern.length with hzero | hpos
          · exact absurd (List.length_eq_zero_iff.mp hzero ▸ List.nil_prefix)
              (hfirst i (Nat.le_refl i) hlt')
          · omega
        rw [startsAt_eq_false hfit (hfirst i (Nat.le_refl i) hlt'), ok_bind,
          if_neg Bool.false_ne_true]
        exact ih hlt' (by omega) fun k hk => hfirst k (by omega)

/-! ## Searches that stay in range -/

/-- The array ends in the middle of the pattern. -/
def Cut (pattern ys : List α) : Prop := ys <+: pattern ∧ ys.length < pattern.length

/-- Where the first occurrence of a pattern that is not empty ends. -/
def endOf (pattern : List α) : List α → Option ℕ
  | [] => none
  | x :: xs =>
      if pattern.isPrefixOf (x :: xs) then some pattern.length else (endOf pattern xs).map (· + 1)

theorem endOf_here {pattern xs : List α} (hne : pattern ≠ []) (h : pattern <+: xs) :
    endOf pattern xs = some pattern.length := by
  cases xs with
  | nil => exact absurd (List.prefix_nil.mp h) hne
  | cons x xs => rw [endOf, if_pos (List.isPrefixOf_iff_prefix.mpr h)]

theorem endOf_cons_of_not {pattern xs : List α} {x : α} (h : ¬ pattern <+: x :: xs) :
    endOf pattern (x :: xs) = (endOf pattern xs).map (· + 1) := by
  rw [endOf, if_neg (List.isPrefixOf_iff_prefix.not.mpr h)]

/-- Elements that the pattern does not start with are passed over. -/
theorem endOf_append {p : α} {pattern skipped : List α} (h : p ∉ skipped) (xs : List α) :
    endOf (p :: pattern) (skipped ++ xs) = (endOf (p :: pattern) xs).map (skipped.length + ·) := by
  induction skipped with
  | nil =>
      have hid : (fun n => ([] : List α).length + n) = id := funext Nat.zero_add
      rw [List.nil_append, hid, Option.map_id, id]
  | cons x skipped ih =>
      obtain ⟨hne, hnot⟩ := not_or.mp (List.mem_cons.not.mp h)
      have hbegins : ¬ p :: pattern <+: x :: (skipped ++ xs) := fun h =>
        hne (List.cons_prefix_cons.mp h).1
      rw [List.cons_append, endOf_cons_of_not hbegins, ih hnot, Option.map_map]
      congr 1
      funext n
      simp only [Function.comp_apply, List.length_cons]
      omega

theorem endOf_le {pattern xs : List α} {n : ℕ} (h : endOf pattern xs = some n) : n ≤ xs.length := by
  induction xs generalizing n with
  | nil => cases h
  | cons x xs ih =>
      rw [endOf] at h
      split at h
      · rename_i hbegins
        cases h
        exact (List.isPrefixOf_iff_prefix.mp hbegins).length_le
      · obtain ⟨m, hm, rfl⟩ := Option.map_eq_some_iff.mp h
        exact Nat.succ_le_succ (ih hm)

theorem endOf_take {pattern xs : List α} {n : ℕ} (h : endOf pattern xs = some n) :
    ∃ before, xs.take n = before ++ pattern := by
  induction xs generalizing n with
  | nil => cases h
  | cons x xs ih =>
      rw [endOf] at h
      split at h
      · rename_i hbegins
        cases h
        exact ⟨[], (List.prefix_iff_eq_take.mp (List.isPrefixOf_iff_prefix.mp hbegins)).symm⟩
      · obtain ⟨m, hm, rfl⟩ := Option.map_eq_some_iff.mp h
        obtain ⟨before, hbefore⟩ := ih hm
        exact ⟨x :: before, by rw [List.take_succ_cons, hbefore, List.cons_append]⟩

/-! ## The first and the last place -/

section Places

variable {P : ℕ → Prop} {n i j : ℕ}

def FirstBelow (P : ℕ → Prop) (n i : ℕ) : Prop := i < n ∧ P i ∧ ∀ k < i, ¬ P k

def LastBelow (P : ℕ → Prop) (n j : ℕ) : Prop := j < n ∧ P j ∧ ∀ k, j < k → k < n → ¬ P k

/-- Once there is a first place, or at a place that is none, the search goes on as it was. -/
theorem firstBelow_succ_of_skip (h : P n → ∃ k, FirstBelow P n k) :
    FirstBelow P (n + 1) i ↔ FirstBelow P n i := by
  constructor
  · rintro ⟨hlt, hi, hbefore⟩
    refine ⟨Nat.lt_of_le_of_ne (Nat.le_of_lt_succ hlt) ?_, hi, hbefore⟩
    rintro rfl
    obtain ⟨k, hlt, hk, -⟩ := h hi
    exact hbefore k hlt hk
  · exact fun ⟨hlt, hi, hbefore⟩ => ⟨Nat.lt_succ_of_lt hlt, hi, hbefore⟩

theorem firstBelow_succ_of_none (hn : P n) (hnone : ∀ k, ¬ FirstBelow P n k) :
    FirstBelow P (n + 1) i ↔ i = n := by
  have hbefore : ∀ k < n, ¬ P k := by
    intro k
    induction k using Nat.strong_induction_on with
    | _ k ih => exact fun hlt hk => hnone k ⟨hlt, hk, fun l hl => ih l hl (hl.trans hlt)⟩
  constructor
  · rintro ⟨hlt, hi, -⟩
    by_contra hne
    exact hbefore i (Nat.lt_of_le_of_ne (Nat.le_of_lt_succ hlt) hne) hi
  · rintro rfl
    exact ⟨Nat.lt_succ_self i, hn, hbefore⟩

theorem lastBelow_succ_of_not (hn : ¬ P n) : LastBelow P (n + 1) j ↔ LastBelow P n j := by
  constructor
  · rintro ⟨hlt, hj, hafter⟩
    refine ⟨Nat.lt_of_le_of_ne (Nat.le_of_lt_succ hlt) ?_, hj, fun k hjk hkn =>
      hafter k hjk (Nat.lt_succ_of_lt hkn)⟩
    rintro rfl
    exact hn hj
  · rintro ⟨hlt, hj, hafter⟩
    refine ⟨Nat.lt_succ_of_lt hlt, hj, fun k hjk hkn hk => ?_⟩
    rcases Nat.lt_succ_iff_lt_or_eq.mp hkn with hkn | rfl
    · exact hafter k hjk hkn hk
    · exact hn hk

theorem lastBelow_succ (hn : P n) : LastBelow P (n + 1) j ↔ j = n := by
  constructor
  · rintro ⟨hlt, -, hafter⟩
    by_contra hne
    exact hafter n (Nat.lt_of_le_of_ne (Nat.le_of_lt_succ hlt) hne) (Nat.lt_succ_self n) hn
  · rintro rfl
    exact ⟨Nat.lt_succ_self j, hn, fun k hjk hkn => absurd hkn (by omega)⟩

end Places

end Scanning
