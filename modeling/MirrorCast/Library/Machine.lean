import Mathlib.Data.List.Basic
import Mathlib.Tactic.Common

/-! # Fallible step machines

A machine reads one input at a time, may emit outputs and may stop with an
exception. The rules below carry facts about one step to whole runs. -/

namespace Machine

variable {σ ι ω ε : Type*}

/-- One step: the next state and the outputs, or an exception that ends the run. -/
abbrev Step (σ ι ω ε : Type*) := σ → ι → Except ε (σ × List ω)

/-- The outputs of a run, up to the first exception. -/
def outputs (step : Step σ ι ω ε) : σ → List ι → List ω
  | _, [] => []
  | s, i :: is =>
      match step s i with
      | .ok (s', out) => out ++ outputs step s' is
      | .error _ => []

/-- The state a run ends in, or the exception that stopped it. -/
def final (step : Step σ ι ω ε) : σ → List ι → Except ε σ
  | s, [] => .ok s
  | s, i :: is =>
      match step s i with
      | .ok (s', _) => final step s' is
      | .error e => .error e

@[simp] theorem outputs_nil (step : Step σ ι ω ε) (s : σ) : outputs step s [] = [] := rfl

@[simp] theorem final_nil (step : Step σ ι ω ε) (s : σ) : final step s [] = .ok s := rfl

theorem outputs_cons_of_ok {step : Step σ ι ω ε} {s s' : σ} {i : ι} {out : List ω}
    (h : step s i = .ok (s', out)) (is : List ι) :
    outputs step s (i :: is) = out ++ outputs step s' is := by
  simp only [outputs, h]

theorem outputs_cons_of_error {step : Step σ ι ω ε} {s : σ} {i : ι} {e : ε}
    (h : step s i = .error e) (is : List ι) : outputs step s (i :: is) = [] := by
  simp only [outputs, h]

theorem final_cons_of_ok {step : Step σ ι ω ε} {s s' : σ} {i : ι} {out : List ω}
    (h : step s i = .ok (s', out)) (is : List ι) :
    final step s (i :: is) = final step s' is := by
  simp only [final, h]

theorem final_cons_of_error {step : Step σ ι ω ε} {s : σ} {i : ι} {e : ε}
    (h : step s i = .error e) (is : List ι) : final step s (i :: is) = .error e := by
  simp only [final, h]

/-- A run that gets through `xs` continues with `ys` from the state it reached. -/
theorem outputs_append_of_ok {step : Step σ ι ω ε} {s s' : σ} {xs : List ι}
    (h : final step s xs = .ok s') (ys : List ι) :
    outputs step s (xs ++ ys) = outputs step s xs ++ outputs step s' ys := by
  induction xs generalizing s with
  | nil =>
      cases h
      rfl
  | cons i xs ih =>
      cases hi : step s i with
      | error e => simp [final_cons_of_error hi] at h
      | ok next =>
          rw [final_cons_of_ok hi] at h
          rw [List.cons_append, outputs_cons_of_ok hi, outputs_cons_of_ok hi, ih h,
            List.append_assoc]

/-- A machine without exceptions and outputs runs by folding. -/
theorem final_total (next : σ → ι → σ) (s : σ) (is : List ι) :
    final (fun s i => .ok (next s i, []) : Step σ ι ω ε) s is = .ok (is.foldl next s) := by
  induction is generalizing s with
  | nil => rfl
  | cons i is ih => exact ih (next s i)

/-- What every step keeps holds in the state a run ends in. -/
theorem final_invariant {step : Step σ ι ω ε} (Inv : σ → Prop)
    (hstep : ∀ s i s' out, Inv s → step s i = .ok (s', out) → Inv s') {s s' : σ} {is : List ι}
    (hinv : Inv s) (h : final step s is = .ok s') : Inv s' := by
  induction is generalizing s with
  | nil =>
      cases h
      exact hinv
  | cons i is ih =>
      cases hi : step s i with
      | error e => simp [final_cons_of_error hi] at h
      | ok next =>
          rw [final_cons_of_ok hi] at h
          exact ih (hstep s i next.1 next.2 hinv hi) h

/-! ## Conditions met by every step of a run -/

/-- Every step of the run meets `C`, a condition on the inputs handled before it
(the latest first), the state before it and its input. -/
def Meets (step : Step σ ι ω ε) (C : List ι → σ → ι → Prop) : List ι → σ → List ι → Prop
  | _, _, [] => True
  | past, s, i :: is =>
      C past s i ∧ ∀ s' out, step s i = .ok (s', out) → Meets step C (i :: past) s' is

theorem meets_cons_of_ok {step : Step σ ι ω ε} {C : List ι → σ → ι → Prop} {past : List ι}
    {s s' : σ} {i : ι} {out : List ω} (h : step s i = .ok (s', out)) (is : List ι) :
    Meets step C past s (i :: is) ↔ C past s i ∧ Meets step C (i :: past) s' is := by
  constructor
  · rintro ⟨hc, hrest⟩
    exact ⟨hc, hrest s' out h⟩
  · rintro ⟨hc, hrest⟩
    refine ⟨hc, ?_⟩
    intro t out' ht
    rw [h] at ht
    cases ht
    exact hrest

/-- Whether a given run meets a condition can be computed. -/
instance decidableMeets {step : Step σ ι ω ε} {C : List ι → σ → ι → Prop}
    [∀ past s i, Decidable (C past s i)] :
    ∀ (past : List ι) (s : σ) (is : List ι), Decidable (Meets step C past s is)
  | _, _, [] => .isTrue trivial
  | past, s, i :: is =>
      match h : step s i with
      | .ok (s', _) =>
          have : Decidable (Meets step C (i :: past) s' is) := decidableMeets (i :: past) s' is
          decidable_of_iff _ (meets_cons_of_ok h is).symm
      | .error _ =>
          decidable_of_iff (C past s i) ⟨fun hc => ⟨hc, fun _ _ hok => by
            rw [h] at hok
            cases hok⟩, And.left⟩

theorem meets_and {step : Step σ ι ω ε} {C D : List ι → σ → ι → Prop} {past : List ι} {s : σ}
    {is : List ι} (hC : Meets step C past s is) (hD : Meets step D past s is) :
    Meets step (fun past s i => C past s i ∧ D past s i) past s is := by
  induction is generalizing past s with
  | nil => trivial
  | cons i is ih =>
      refine ⟨⟨hC.1, hD.1⟩, ?_⟩
      intro s' out hstep
      exact ih (hC.2 s' out hstep) (hD.2 s' out hstep)

theorem meets_of_mem {step : Step σ ι ω ε} {I : ι → Prop} {past : List ι} {s : σ} {is : List ι}
    (h : ∀ i ∈ is, I i) : Meets step (fun _ _ i => I i) past s is := by
  induction is generalizing past s with
  | nil => trivial
  | cons i is ih =>
      exact ⟨h i (by simp), fun _ _ _ => ih (fun j hj => h j (by simp [hj]))⟩

/-- Two conditions on the steps of a run are the same for it if they are for each step, and if a
step that meets them leads to where they are the same again. -/
theorem meets_iff {step : Step σ ι ω ε} {B C D : List ι → σ → ι → Prop}
    (Inv : List ι → σ → Prop)
    (hstep : ∀ past s i, Inv past s → B past s i → (C past s i ↔ D past s i) ∧
      ∀ s' out, D past s i → step s i = .ok (s', out) → Inv (i :: past) s')
    {past : List ι} {s : σ} {is : List ι} (hinv : Inv past s) (hmeets : Meets step B past s is) :
    Meets step C past s is ↔ Meets step D past s is := by
  induction is generalizing past s with
  | nil => exact Iff.rfl
  | cons i is ih =>
      obtain ⟨hsame, hnext⟩ := hstep past s i hinv hmeets.1
      constructor
      · rintro ⟨hc, hrest⟩
        refine ⟨hsame.mp hc, ?_⟩
        intro s' out hok
        exact (ih (hnext s' out (hsame.mp hc) hok) (hmeets.2 s' out hok)).mp (hrest s' out hok)
      · rintro ⟨hd, hrest⟩
        refine ⟨hsame.mpr hd, ?_⟩
        intro s' out hok
        exact (ih (hnext s' out hd hok) (hmeets.2 s' out hok)).mpr (hrest s' out hok)

/-- A run goes through exactly if every step meets the condition under which it returns. -/
theorem final_ok_iff {step : Step σ ι ω ε} {C : List ι → σ → ι → Prop} (Inv : σ → Prop)
    (I : ι → Prop) (hiff : ∀ past s i, Inv s → I i →
      ((∃ s' out, step s i = .ok (s', out)) ↔ C past s i))
    (hkeeps : ∀ s i s' out, Inv s → I i → step s i = .ok (s', out) → Inv s')
    {past : List ι} {s : σ} {is : List ι} (hinv : Inv s) (hI : ∀ i ∈ is, I i) :
    (∃ s', final step s is = .ok s') ↔ Meets step C past s is := by
  induction is generalizing past s with
  | nil => exact ⟨fun _ => trivial, fun _ => ⟨s, rfl⟩⟩
  | cons i is ih =>
      obtain ⟨hi, hrest⟩ := List.forall_mem_cons.mp hI
      cases hstep : step s i with
      | error e =>
          rw [final_cons_of_error hstep]
          constructor
          · rintro ⟨s', hok⟩
            cases hok
          · intro hmeets
            obtain ⟨s', out, hok⟩ := (hiff past s i hinv hi).mpr hmeets.1
            rw [hstep] at hok
            cases hok
      | ok next =>
          have hc : C past s i := (hiff past s i hinv hi).mp ⟨next.1, next.2, hstep⟩
          rw [final_cons_of_ok hstep, meets_cons_of_ok hstep,
            ih (hkeeps s i next.1 next.2 hinv hi hstep) hrest]
          exact ⟨fun h => ⟨hc, h⟩, And.right⟩

/-- Each input is met with exactly the inputs before it in the past. -/
theorem meets_split (step : Step σ ι ω ε) (past : List ι) (s : σ) (is : List ι) :
    Meets step (fun past' _ i => ∃ rest, past.reverse ++ is = past'.reverse ++ i :: rest)
      past s is := by
  suffices h : ∀ (all past : List ι) (s : σ) (is : List ι), all = past.reverse ++ is →
      Meets step (fun past' _ i => ∃ rest, all = past'.reverse ++ i :: rest) past s is from
    h _ past s is rfl
  intro all past s is hall
  induction is generalizing past s with
  | nil => trivial
  | cons i is ih =>
      refine ⟨⟨is, hall⟩, ?_⟩
      intro s' out _
      apply ih
      rw [hall, List.reverse_cons, List.append_assoc]
      rfl

/-- The invariant rule: a property of states that every step meeting `C` keeps, and
under which such a step emits only outputs with `P`, gives `P` for every output. -/
theorem forall_mem_outputs {step : Step σ ι ω ε} {C : List ι → σ → ι → Prop}
    (Inv : List ι → σ → Prop) (P : ω → Prop)
    (hstep : ∀ past s i s' out, Inv past s → C past s i → step s i = .ok (s', out) →
      Inv (i :: past) s' ∧ ∀ o ∈ out, P o)
    {past : List ι} {s : σ} {is : List ι} (hinv : Inv past s)
    (hmeets : Meets step C past s is) : ∀ o ∈ outputs step s is, P o := by
  induction is generalizing past s with
  | nil => simp
  | cons i is ih =>
      cases hi : step s i with
      | error e => simp [outputs_cons_of_error hi]
      | ok next =>
          obtain ⟨hc, hrest⟩ := (meets_cons_of_ok hi is).mp hmeets
          obtain ⟨hinv', hout⟩ := hstep past s i next.1 next.2 hinv hc hi
          rw [outputs_cons_of_ok hi]
          intro o ho
          rcases List.mem_append.mp ho with ho | ho
          · exact hout o ho
          · exact ih hinv' hrest o ho

/-- The invariant rule for the state a run ends in: what every step meeting `C` keeps. -/
theorem final_of_meets {step : Step σ ι ω ε} {C : List ι → σ → ι → Prop} (Inv : σ → Prop)
    (hstep : ∀ past s i s' out, Inv s → C past s i → step s i = .ok (s', out) → Inv s')
    {past : List ι} {s s' : σ} {is : List ι} (hinv : Inv s) (hmeets : Meets step C past s is)
    (h : final step s is = .ok s') : Inv s' := by
  induction is generalizing past s with
  | nil =>
      cases h
      exact hinv
  | cons i is ih =>
      cases hi : step s i with
      | error e => simp [final_cons_of_error hi] at h
      | ok next =>
          obtain ⟨hc, hrest⟩ := (meets_cons_of_ok hi is).mp hmeets
          rw [final_cons_of_ok hi] at h
          exact ih (hstep past s i next.1 next.2 hinv hc hi) hrest h

/-- The invariant rule for runs without exceptions: if every step meeting `C` returns, the run
does. -/
theorem returns_of_meets {step : Step σ ι ω ε} {C : List ι → σ → ι → Prop} (Inv : σ → Prop)
    (P : ω → Prop)
    (hstep : ∀ past s i, Inv s → C past s i →
      ∃ s' out, step s i = .ok (s', out) ∧ Inv s' ∧ ∀ o ∈ out, P o)
    {past : List ι} {s : σ} {is : List ι} (hinv : Inv s) (hmeets : Meets step C past s is) :
    (∃ s', final step s is = .ok s') ∧ ∀ o ∈ outputs step s is, P o := by
  induction is generalizing past s with
  | nil => exact ⟨⟨s, rfl⟩, by simp⟩
  | cons i is ih =>
      obtain ⟨s', out, hi, hinv', hout⟩ := hstep past s i hinv hmeets.1
      obtain ⟨hreturns, hrest⟩ := ih hinv' (hmeets.2 s' out hi)
      rw [final_cons_of_ok hi, outputs_cons_of_ok hi]
      refine ⟨hreturns, fun o ho => ?_⟩
      rcases List.mem_append.mp ho with ho | ho
      · exact hout o ho
      · exact hrest o ho

/-- The invariant rule for runs in which steps meeting `C` throw only exceptions with `E`. -/
theorem error_of_meets {step : Step σ ι ω ε} {C : List ι → σ → ι → Prop} (Inv : σ → Prop)
    (E : ε → Prop)
    (hstep : ∀ past s i, Inv s → C past s i →
      (∃ s' out, step s i = .ok (s', out) ∧ Inv s') ∨ ∃ e, step s i = .error e ∧ E e)
    {past : List ι} {s : σ} {is : List ι} (hinv : Inv s) (hmeets : Meets step C past s is) {e : ε}
    (h : final step s is = .error e) : E e := by
  induction is generalizing past s with
  | nil => cases h
  | cons i is ih =>
      rcases hstep past s i hinv hmeets.1 with ⟨s', out, hi, hinv'⟩ | ⟨e', hi, he⟩
      · rw [final_cons_of_ok hi] at h
        exact ih hinv' (hmeets.2 s' out hi) h
      · rw [final_cons_of_error hi] at h
        cases h
        exact he

/-- The invariant rule for specifications that read the outputs one after the other: what is
still to be met is a state of its own, which every step meeting `C` takes along. -/
theorem outputs_of_meets {κ : Type*} {step : Step σ ι ω ε} {C : List ι → σ → ι → Prop}
    (Inv : κ → σ → Prop) (Spec : κ → List ω → Prop) (hnil : ∀ k, Spec k [])
    (hstep : ∀ k past s i s' out, Inv k s → C past s i → step s i = .ok (s', out) →
      ∃ k', Inv k' s' ∧ ∀ rest, Spec k' rest → Spec k (out ++ rest))
    {k : κ} {past : List ι} {s : σ} {is : List ι} (hinv : Inv k s)
    (hmeets : Meets step C past s is) : Spec k (outputs step s is) := by
  induction is generalizing k past s with
  | nil => exact hnil k
  | cons i is ih =>
      cases hi : step s i with
      | error e =>
          rw [outputs_cons_of_error hi]
          exact hnil k
      | ok next =>
          obtain ⟨hc, hrest⟩ := (meets_cons_of_ok hi is).mp hmeets
          obtain ⟨k', hinv', hout⟩ := hstep k past s i next.1 next.2 hinv hc hi
          rw [outputs_cons_of_ok hi]
          exact hout _ (ih hinv' hrest)

/-! ## Outputs together with the inputs that caused them -/

/-- The machine that tags every output with the input it comes from. -/
def tagged (step : Step σ ι ω ε) : Step σ ι (ι × ω) ε := fun s i =>
  match step s i with
  | .ok (s', out) => .ok (s', out.map (Prod.mk i))
  | .error e => .error e

theorem tagged_of_ok {step : Step σ ι ω ε} {s s' : σ} {i : ι} {out : List ω}
    (h : step s i = .ok (s', out)) : tagged step s i = .ok (s', out.map (Prod.mk i)) := by
  simp only [tagged, h]

theorem tagged_of_error {step : Step σ ι ω ε} {s : σ} {i : ι} {e : ε}
    (h : step s i = .error e) : tagged step s i = .error e := by
  simp only [tagged, h]

/-- The invariant rule for properties of the outputs as a whole: what every step keeps of
the inputs, the outputs so far and the state holds of the outputs of the run. -/
theorem tagged_invariant {step : Step σ ι ω ε} {C : List ι → σ → ι → Prop}
    (Inv : List ι → List (ι × ω) → σ → Prop)
    (hstep : ∀ past done s i s' out, Inv past done s → C past s i → step s i = .ok (s', out) →
      Inv (i :: past) (done ++ out.map (Prod.mk i)) s')
    {past : List ι} {done : List (ι × ω)} {s : σ} {is : List ι} (hinv : Inv past done s)
    (hmeets : Meets step C past s is) :
    ∃ past' s', Inv past' (done ++ outputs (tagged step) s is) s' := by
  induction is generalizing past done s with
  | nil =>
      refine ⟨past, s, ?_⟩
      rw [outputs_nil, List.append_nil]
      exact hinv
  | cons i is ih =>
      cases hi : step s i with
      | error e =>
          refine ⟨past, s, ?_⟩
          rw [outputs_cons_of_error (tagged_of_error hi), List.append_nil]
          exact hinv
      | ok next =>
          obtain ⟨hc, hrest⟩ := (meets_cons_of_ok hi is).mp hmeets
          have hnext := ih (hstep past done s i next.1 next.2 hinv hc hi) hrest
          rwa [outputs_cons_of_ok (tagged_of_ok hi), ← List.append_assoc]

end Machine
