import Mathlib.Data.List.Induction
import Mathlib.Data.List.Nodup
import Mathlib.Logic.Function.Iterate
import Mathlib.Tactic.Common

/-! # Callbacks registered under serial numbers

Whoever sends a request registers a callback for the answer, under the key of the peer and the next
serial number; the answer takes the callback out and calls it. -/

namespace Callbacks

inductive Action (ι ν φ : Type*) where
  | register (key : ι) (serial : ν) (callback : φ)
  | dispatch (key : ι) (serial : ν) (callback : φ)

/-- The serial number of the next request, and the callbacks that wait. -/
structure Registry (ι ν φ : Type*) where
  serial : ν
  callbacks : ι × ν → Option φ

variable {ι ν φ : Type*}

def Registry.start (serial : ν) : Registry ι ν φ := ⟨serial, fun _ => none⟩

/-- The pairs that callbacks were registered under. -/
def registered (actions : List (Action ι ν φ)) : List (ι × ν) :=
  actions.filterMap fun
    | .register key serial _ => some (key, serial)
    | .dispatch _ _ _ => none

/-- The pairs that callbacks were called for. -/
def dispatched (actions : List (Action ι ν φ)) : List (ι × ν) :=
  actions.filterMap fun
    | .register _ _ _ => none
    | .dispatch key serial _ => some (key, serial)

theorem registered_append (xs ys : List (Action ι ν φ)) :
    registered (xs ++ ys) = registered xs ++ registered ys := List.filterMap_append

theorem dispatched_append (xs ys : List (Action ι ν φ)) :
    dispatched (xs ++ ys) = dispatched xs ++ dispatched ys := List.filterMap_append

theorem mem_registered {actions : List (Action ι ν φ)} {key : ι} {serial : ν} {callback : φ}
    (h : .register key serial callback ∈ actions) : (key, serial) ∈ registered actions :=
  List.mem_filterMap.mpr ⟨_, h, rfl⟩

/-- No pair is registered twice, and none is called for twice, or before it is registered. -/
structure Matched (actions : List (Action ι ν φ)) : Prop where
  fresh : (registered actions).Nodup
  once : (dispatched actions).Nodup
  answered : ∀ before after key serial callback,
    actions = before ++ .dispatch key serial callback :: after →
      .register key serial callback ∈ before

/-- What a run that starts with an empty registry has left in it. -/
structure Waiting (next : ν → ν) (start : ν) (actions : List (Action ι ν φ))
    (r : Registry ι ν φ) : Prop where
  serial_eq : r.serial = next^[(registered actions).length] start
  serials : (registered actions).map Prod.snd =
    (List.range (registered actions).length).map fun i => next^[i] start
  waits : ∀ key serial callback, r.callbacks (key, serial) = some callback →
    .register key serial callback ∈ actions ∧ (key, serial) ∉ dispatched actions
  answered : ∀ p ∈ dispatched actions, p ∈ registered actions

theorem waiting_start (next : ν → ν) (start : ν) :
    Waiting next start [] (Registry.start start : Registry ι ν φ) where
  serial_eq := rfl
  serials := rfl
  waits _ _ _ h := by cases h
  answered _ h := by cases h

theorem matched_nil : Matched ([] : List (Action ι ν φ)) where
  fresh := List.nodup_nil
  once := List.nodup_nil
  answered before after key serial callback h := by
    have hlength := congrArg List.length h
    rw [List.length_append, List.length_cons, List.length_nil] at hlength
    omega

theorem Waiting.not_registered {next : ν → ν} {start : ν} {actions : List (Action ι ν φ)}
    {r : Registry ι ν φ} (h : Waiting next start actions r)
    (hdistinct : ∀ i < (registered actions).length,
      next^[i] start ≠ next^[(registered actions).length] start) (key : ι) :
    (key, r.serial) ∉ registered actions := by
  intro hmem
  have hserial : r.serial ∈ (registered actions).map Prod.snd := List.mem_map_of_mem hmem
  rw [h.serials, h.serial_eq] at hserial
  obtain ⟨i, hi, heq⟩ := List.mem_map.mp hserial
  exact hdistinct i (List.mem_range.mp hi) heq

variable [DecidableEq ι] [DecidableEq ν] (next : ν → ν)

inductive Acts : Registry ι ν φ → Action ι ν φ → Registry ι ν φ → Prop
  | register (r : Registry ι ν φ) (key : ι) (callback : φ) :
      Acts r (.register key r.serial callback)
        ⟨next r.serial, Function.update r.callbacks (key, r.serial) (some callback)⟩
  | dispatch {r : Registry ι ν φ} {key : ι} {serial : ν} {callback : φ}
      (waits : r.callbacks (key, serial) = some callback) :
      Acts r (.dispatch key serial callback)
        ⟨r.serial, Function.update r.callbacks (key, serial) none⟩

inductive Runs : Registry ι ν φ → List (Action ι ν φ) → Registry ι ν φ → Prop
  | nil (r : Registry ι ν φ) : Runs r [] r
  | cons {r s t : Registry ι ν φ} {action : Action ι ν φ} {actions : List (Action ι ν φ)} :
      Acts next r action s → Runs s actions t → Runs r (action :: actions) t

variable {next} {r s t : Registry ι ν φ} {actions actions' : List (Action ι ν φ)}

theorem Runs.single {action : Action ι ν φ} (h : Acts next r action s) : Runs next r [action] s :=
  .cons h (.nil s)

theorem Runs.append (h : Runs next r actions s) (h' : Runs next s actions' t) :
    Runs next r (actions ++ actions') t := by
  induction h with
  | nil => exact h'
  | cons hact _ ih => exact .cons hact (ih h')

theorem runs_append : Runs next r (actions ++ actions') t ↔
    ∃ s, Runs next r actions s ∧ Runs next s actions' t := by
  constructor
  · intro h
    induction actions generalizing r with
    | nil => exact ⟨r, .nil r, h⟩
    | cons action actions ih =>
        cases h with
        | cons hact hrest =>
            obtain ⟨u, hfirst, hlast⟩ := ih hrest
            exact ⟨u, .cons hact hfirst, hlast⟩
  · rintro ⟨s, hfirst, hlast⟩
    exact hfirst.append hlast

theorem eq_concat_cases {α : Type*} {xs before after : List α} {x y : α}
    (h : xs ++ [x] = before ++ y :: after) :
    after = [] ∧ x = y ∧ xs = before ∨ ∃ rest, after = rest ++ [x] ∧ xs = before ++ y :: rest := by
  cases after using List.reverseRecOn with
  | nil =>
      obtain ⟨hxs, hx⟩ := List.append_inj' h rfl
      exact Or.inl ⟨rfl, (List.cons.inj hx).1, hxs⟩
  | append_singleton rest z =>
      rw [← List.cons_append, ← List.append_assoc] at h
      obtain ⟨hxs, hx⟩ := List.append_inj' h rfl
      rw [(List.cons.inj hx).1]
      exact Or.inr ⟨rest, rfl, hxs⟩

variable {start : ν}

theorem Waiting.register (h : Waiting next start actions r) (hmatched : Matched actions)
    (hdistinct : ∀ i < (registered actions).length,
      next^[i] start ≠ next^[(registered actions).length] start) (key : ι) (callback : φ) :
    Waiting next start (actions ++ [.register key r.serial callback])
        ⟨next r.serial, Function.update r.callbacks (key, r.serial) (some callback)⟩ ∧
      Matched (actions ++ [.register key r.serial callback]) := by
  have hnew := h.not_registered hdistinct key
  have hregistered : registered (actions ++ [.register key r.serial callback]) =
      registered actions ++ [(key, r.serial)] := registered_append ..
  have hdispatched : dispatched (actions ++ [.register key r.serial callback]) =
      dispatched actions := (dispatched_append ..).trans (List.append_nil _)
  refine ⟨⟨?_, ?_, ?_, ?_⟩, ⟨?_, ?_, ?_⟩⟩
  · rw [hregistered, List.length_append, List.length_singleton, Function.iterate_succ_apply',
      ← h.serial_eq]
  · rw [hregistered, List.map_append, h.serials, List.length_append, List.length_singleton,
      List.range_succ, List.map_append, List.map_singleton, List.map_singleton, h.serial_eq]
  · intro key' serial callback' hwaits
    rw [hdispatched]
    dsimp only at hwaits
    by_cases hp : (key', serial) = (key, r.serial)
    · rw [hp, Function.update_self] at hwaits
      cases hp
      cases hwaits
      exact ⟨List.mem_append_right _ List.mem_cons_self, fun hmem => hnew (h.answered _ hmem)⟩
    · rw [Function.update_of_ne hp] at hwaits
      obtain ⟨hmem, hnot⟩ := h.waits key' serial callback' hwaits
      exact ⟨List.mem_append_left _ hmem, hnot⟩
  · intro p hp
    rw [hdispatched] at hp
    rw [hregistered]
    exact List.mem_append_left _ (h.answered p hp)
  · rw [hregistered, List.nodup_append_comm, List.singleton_append, List.nodup_cons]
    exact ⟨hnew, hmatched.fresh⟩
  · rw [hdispatched]
    exact hmatched.once
  · intro before after key' serial callback' heq
    rcases eq_concat_cases heq with ⟨-, hx, -⟩ | ⟨rest, -, hrest⟩
    · cases hx
    · exact hmatched.answered before rest key' serial callback' hrest

theorem Waiting.dispatch (h : Waiting next start actions r) (hmatched : Matched actions) {key : ι}
    {serial : ν} {callback : φ} (hwaits : r.callbacks (key, serial) = some callback) :
    Waiting next start (actions ++ [.dispatch key serial callback])
        ⟨r.serial, Function.update r.callbacks (key, serial) none⟩ ∧
      Matched (actions ++ [.dispatch key serial callback]) := by
  obtain ⟨hmem, hnot⟩ := h.waits key serial callback hwaits
  have hregistered : registered (actions ++ [.dispatch key serial callback]) =
      registered actions := (registered_append ..).trans (List.append_nil _)
  have hdispatched : dispatched (actions ++ [.dispatch key serial callback]) =
      dispatched actions ++ [(key, serial)] := dispatched_append ..
  refine ⟨⟨?_, ?_, ?_, ?_⟩, ⟨?_, ?_, ?_⟩⟩
  · rw [hregistered]
    exact h.serial_eq
  · rw [hregistered]
    exact h.serials
  · intro key' serial' callback' hother
    dsimp only at hother
    by_cases hp : (key', serial') = (key, serial)
    · rw [hp, Function.update_self] at hother
      cases hother
    · rw [Function.update_of_ne hp] at hother
      obtain ⟨hmem', hnot'⟩ := h.waits key' serial' callback' hother
      refine ⟨List.mem_append_left _ hmem', ?_⟩
      rw [hdispatched, List.mem_append, List.mem_singleton, not_or]
      exact ⟨hnot', hp⟩
  · intro p hp
    rw [hdispatched] at hp
    rw [hregistered]
    rcases List.mem_append.mp hp with hp | hp
    · exact h.answered p hp
    · rw [List.mem_singleton.mp hp]
      exact mem_registered hmem
  · rw [hregistered]
    exact hmatched.fresh
  · rw [hdispatched, List.nodup_append_comm, List.singleton_append, List.nodup_cons]
    exact ⟨hnot, hmatched.once⟩
  · intro before after key' serial' callback' heq
    rcases eq_concat_cases heq with ⟨-, hx, rfl⟩ | ⟨rest, -, hrest⟩
    · cases hx
      exact hmem
    · exact hmatched.answered before rest key' serial' callback' hrest

/-- As long as the serial numbers do not come round again, answers are matched with requests one
to one. -/
theorem Runs.matched (h : Runs next (Registry.start start) actions r)
    (hdistinct : ∀ i j, i < j → j < (registered actions).length → next^[i] start ≠ next^[j] start) :
    Waiting next start actions r ∧ Matched actions := by
  induction actions using List.reverseRecOn generalizing r with
  | nil =>
      cases h
      exact ⟨waiting_start next start, matched_nil⟩
  | append_singleton actions action ih =>
      obtain ⟨s, hfirst, hlast⟩ := runs_append.mp h
      have hlength : (registered actions).length ≤ (registered (actions ++ [action])).length := by
        rw [registered_append, List.length_append]
        exact Nat.le_add_right _ _
      obtain ⟨hwaiting, hmatched⟩ := ih hfirst fun i j hij hj => hdistinct i j hij (by omega)
      cases hlast with
      | cons hact hnil =>
          cases hnil
          cases hact with
          | register key callback =>
              refine hwaiting.register hmatched (fun i hi => hdistinct i _ hi ?_) key callback
              rw [registered_append, List.length_append]
              exact Nat.lt_succ_self _
          | dispatch waits => exact hwaiting.dispatch hmatched waits

end Callbacks
