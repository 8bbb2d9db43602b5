import Mathlib.Data.List.DropRight
import MirrorCast.Verification.Native.Dropping
import MirrorCast.Verification.PlayQueue.Order

/-! # What the two `drainFrame` methods leave in a queue that nothing else changes -/

namespace MirrorCast.PlayQueue

open Java MediaClient MyJni BlockingQueue

/-! ## `drainFrame()` -/

/-- The last byte says that the frame is a key frame. -/
def endsInKey (x : Item) : Bool := x.frame.getLast? == some BUFFER_FLAG_KEY_FRAME

/-- The prefix up to the last key frame, and nothing without one. -/
def upToLastKey (queue : List Item) : List Item := queue.rdropWhile fun x => !endsInKey x

/-- The frames behind the last key frame. -/
def behindLastKey (queue : List Item) : List Item := queue.rtakeWhile fun x => !endsInKey x

theorem upToLastKey_append (queue : List Item) :
    upToLastKey queue ++ behindLastKey queue = queue := List.rdropWhile_append_rtakeWhile

theorem isKeyFrame_eq {x : Item} (h : x.frame ≠ []) : isKeyFrame x.frame = .ok (endsInKey x) := by
  rw [isKeyFrame, flags, endsInKey, List.getLast?_eq_some_getLast h]
  rfl

section LastKey

variable {lead tail : List Item} {k : Item}

theorem lastKey_plain (hframes : ∀ x ∈ tail, x.frame ≠ []) (h : ∀ x ∈ tail, endsInKey x = false) :
    lastKey tail = .ok none := by
  induction tail with
  | nil => rfl
  | cons x tail ih =>
      have htail := ih (fun y hy => hframes y (List.mem_cons_of_mem x hy))
        fun y hy => h y (List.mem_cons_of_mem x hy)
      rw [lastKey, htail, ok_bind, isKeyFrame_eq (hframes x List.mem_cons_self), ok_bind,
        h x List.mem_cons_self]
      rfl

theorem lastKey_split (hframes : ∀ x ∈ k :: tail, x.frame ≠ []) (hk : endsInKey k = true)
    (h : ∀ x ∈ tail, endsInKey x = false) : lastKey (lead ++ k :: tail) = .ok (some lead.length) := by
  induction lead with
  | nil =>
      have htail := lastKey_plain (fun x hx => hframes x (List.mem_cons_of_mem k hx)) h
      rw [List.nil_append, lastKey, htail, ok_bind, isKeyFrame_eq (hframes k List.mem_cons_self),
        ok_bind, hk]
      rfl
  | cons x lead ih =>
      rw [List.cons_append, lastKey, ih]
      rfl

/-- Each removal moves the index on and shortens the list, so that two frames behind the index
are too many. -/
theorem prune_error {n i : ℕ} {list : List Item} (hn : 0 < n) (h : list.length + 1 < i + 2 * n) :
    prune n i list = .error .arrayIndexOutOfBounds := by
  induction n generalizing i list with
  | zero => omega
  | succ n ih =>
      rw [prune]
      split
      · rename_i hi
        have hlength := List.length_eraseIdx_of_lt hi
        exact ih (by omega) (by omega)
      · rfl

theorem prune_one (x : Item) : prune 1 lead.length (lead ++ [x]) = .ok lead := by
  rw [prune, if_pos (by simp), prune, List.eraseIdx_append_of_length_le le_rfl, Nat.sub_self]
  simp

/-- With a last key frame in the queue, one frame behind it is dropped, and more are not. -/
theorem drainPlayQueue_split (hframes : ∀ x ∈ k :: tail, x.frame ≠ []) (hk : endsInKey k = true)
    (h : ∀ x ∈ tail, endsInKey x = false) :
    drainPlayQueue (lead ++ k :: tail) =
      if tail.length ≤ 1 then lead ++ [k] else lead ++ k :: tail := by
  have hlast := @lastKey_split lead tail k hframes hk h
  have hrounds : (lead ++ k :: tail).length - (lead.length + 1) = tail.length := by
    rw [List.length_append, List.length_cons]
    omega
  rw [drainPlayQueue, pruned, hlast, ok_bind]
  dsimp only
  rw [hrounds]
  rcases tail with _ | ⟨x, _ | ⟨y, tail⟩⟩
  · rfl
  · have hone := @prune_one (lead ++ [k]) x
    rw [List.length_append, List.length_singleton, List.append_assoc, List.singleton_append] at hone
    rw [List.length_singleton, hone]
    rfl
  · have herror := @prune_error (x :: y :: tail).length (lead.length + 1)
      (lead ++ k :: x :: y :: tail) (by simp) (by
        simp only [List.length_append, List.length_cons]
        omega)
    rw [herror, if_neg (by simp)]
    rfl

theorem drainPlayQueue_plain (hframes : ∀ x ∈ tail, x.frame ≠ [])
    (h : ∀ x ∈ tail, endsInKey x = false) : drainPlayQueue tail = [] := by
  rw [drainPlayQueue, pruned, lastKey_plain hframes h]
  rfl

theorem upToLastKey_plain (h : ∀ x ∈ tail, endsInKey x = false) : upToLastKey tail = [] := by
  rw [upToLastKey, List.rdropWhile_eq_nil_iff]
  intro x hx
  rw [h x hx]
  rfl

theorem upToLastKey_split (hk : endsInKey k = true) (h : ∀ x ∈ tail, endsInKey x = false) :
    upToLastKey (lead ++ k :: tail) = lead ++ [k] := by
  induction tail using List.reverseRecOn with
  | nil => exact List.rdropWhile_concat_neg _ _ _ (by simp [hk])
  | append_singleton tail x ih =>
      have hx := h x (by simp)
      rw [← ih fun y hy => h y (List.mem_append_left [x] hy), upToLastKey, ← List.cons_append,
        ← List.append_assoc, List.rdropWhile_concat_pos _ _ _ (by simp [hx])]
      rfl

end LastKey

/-- A queue has no key frame, or it has a last one. -/
theorem plain_or_last (queue : List Item) : (∀ x ∈ queue, endsInKey x = false) ∨
    ∃ lead k tail, queue = lead ++ k :: tail ∧ endsInKey k = true ∧
      ∀ x ∈ tail, endsInKey x = false := by
  induction queue using List.reverseRecOn with
  | nil => exact .inl (by simp)
  | append_singleton queue x ih =>
      cases hx : endsInKey x with
      | true => exact .inr ⟨queue, x, [], rfl, hx, by simp⟩
      | false =>
          rcases ih with hplain | ⟨lead, k, tail, rfl, hk, htail⟩
          · refine .inl fun y hy => ?_
            rcases List.mem_append.mp hy with hy | hy
            · exact hplain y hy
            · rwa [List.mem_singleton.mp hy]
          · refine .inr ⟨lead, k, tail ++ [x], by simp, hk, fun y hy => ?_⟩
            rcases List.mem_append.mp hy with hy | hy
            · exact htail y hy
            · rwa [List.mem_singleton.mp hy]

theorem drainPlayQueue_eq_iff {queue : List Item} (hframes : ∀ x ∈ queue, x.frame ≠ []) :
    drainPlayQueue queue = upToLastKey queue ↔
      upToLastKey queue = [] ∨ (behindLastKey queue).length ≤ 1 := by
  have hsplit := congrArg List.length (upToLastKey_append queue)
  rcases plain_or_last queue with hplain | ⟨lead, k, tail, rfl, hk, htail⟩
  · rw [drainPlayQueue_plain hframes hplain, upToLastKey_plain hplain]
    simp
  · have hbehind : (behindLastKey (lead ++ k :: tail)).length = tail.length := by
      rw [upToLastKey_split hk htail] at hsplit
      simp only [List.length_append, List.length_cons, List.length_nil] at hsplit
      omega
    rw [drainPlayQueue_split (fun x hx => hframes x (List.mem_append_right lead hx)) hk htail,
      upToLastKey_split hk htail, hbehind]
    split
    · rename_i hone
      simp [hone]
    · rename_i hmany
      rw [iff_false_right (by simp [hmany])]
      intro heq
      have hlength := congrArg List.length heq
      simp only [List.length_append, List.length_cons, List.length_nil] at hlength
      omega

/-! ## The thread that calls it, alone -/

theorem foldl_producer (n : ℕ) (s : State) :
    (List.replicate n Input.producer).foldl next s = produce^[n] s := by
  induction n generalizing s with
  | zero => rfl
  | succ n ih => exact ih (produce s)

theorem iterate_idle {s : State} (h : s.producer = .idle) (n : ℕ) : produce^[n] s = s := by
  induction n with
  | zero => rfl
  | succ n ih =>
      have hstay : produce s = s := by
        unfold produce
        rw [h]
      rw [Function.iterate_succ_apply, hstay, ih]

/-- `addAll` has room for what fits into the queue. -/
theorem iterate_adding {s : State} {list : List Item} {n : ℕ} (h : s.producer = .adding list)
    (hroom : s.mPlayQueue1.size + list.length ≤ QUEUE_LENGTH) (hn : list.length < n) :
    (produce^[n] s).producer = .idle ∧
      (produce^[n] s).mPlayQueue1.values = s.mPlayQueue1.values ++ list := by
  induction list generalizing s n with
  | nil =>
      obtain ⟨n, rfl⟩ : ∃ m, n = m + 1 := ⟨n - 1, by omega⟩
      have hnext : produce s = { s with producer := .idle } := by
        unfold produce
        rw [h]
      rw [Function.iterate_succ_apply, hnext, iterate_idle rfl]
      exact ⟨rfl, (List.append_nil _).symm⟩
  | cons x list ih =>
      obtain ⟨n, rfl⟩ : ∃ m, n = m + 1 := ⟨n - 1, by omega⟩
      rw [List.length_cons] at hroom hn
      have hnext : produce s =
          { s with mPlayQueue1 := s.mPlayQueue1.insert x, producer := .adding list } := by
        unfold produce
        rw [h]
        dsimp only
        rw [Queue.offer, if_pos (by omega)]
      have hsize : (s.mPlayQueue1.insert x).size = s.mPlayQueue1.size + 1 := by
        rw [Queue.size_eq, Queue.size_eq, Queue.values_insert, List.length_append]
        rfl
      obtain ⟨hidle, hvalues⟩ := @ih (produce s) n (by rw [hnext]) (by rw [hnext]; dsimp only; omega)
        (by omega)
      rw [Function.iterate_succ_apply]
      refine ⟨hidle, hvalues.trans ?_⟩
      rw [hnext, Queue.values_insert, List.append_assoc]
      rfl

theorem pruned_length_le {queue list : List Item} (h : pruned queue = .ok (some list)) :
    list.length ≤ queue.length := (pruned_sublist h).length_le

/-- A call that nothing else interrupts returns, and leaves what `drainPlayQueue` says. -/
theorem drainFrame_alone {s : State} {n : ℕ} (hidle : s.producer = .idle)
    (hroom : s.mPlayQueue1.size ≤ QUEUE_LENGTH) (hn : s.mPlayQueue1.size + 3 ≤ n) :
    ((Input.drainFrame :: List.replicate n .producer).foldl next s).producer = .idle ∧
      ((Input.drainFrame :: List.replicate n .producer).foldl next s).mPlayQueue1.values =
        drainPlayQueue s.mPlayQueue1.values := by
  rw [List.foldl_cons, foldl_producer]
  by_cases hempty : s.mPlayQueue1.values = []
  · have hstay : next s .drainFrame = s := by
      rw [next, if_neg (by simp [hempty])]
    rw [hstay, iterate_idle hidle, hempty]
    exact ⟨hidle, rfl⟩
  obtain ⟨n, rfl⟩ : ∃ m, n = m + 2 := ⟨n - 2, by omega⟩
  have hstart : next s .drainFrame = { s with producer := .snapshot } := by
    rw [next, if_pos ⟨hidle, hempty⟩]
  rw [hstart, Function.iterate_add_apply, Function.iterate_succ_apply, Function.iterate_one]
  cases hpruned : pruned s.mPlayQueue1.values with
  | error e =>
      have hnext : produce { s with producer := .snapshot } = { s with producer := .idle } := by
        simp only [produce, hpruned]
      have hidle' : ({ s with producer := .idle } : State).producer = .idle := rfl
      rw [hnext, show produce { s with producer := .idle } = _ from iterate_idle hidle' 1,
        iterate_idle hidle', drainPlayQueue, hpruned]
      exact ⟨rfl, rfl⟩
  | ok copy =>
      have hnext : produce { s with producer := .snapshot } =
          { s with producer := .clearing copy } := by simp only [produce, hpruned]
      rw [hnext, drainPlayQueue, hpruned]
      cases copy with
      | none =>
          have hcleared : produce { s with producer := .clearing none } =
              { s with mPlayQueue1 := s.mPlayQueue1.clear, producer := .idle } := rfl
          rw [hcleared, iterate_idle rfl]
          exact ⟨rfl, Queue.values_clear _⟩
      | some list =>
          have hlist := pruned_length_le hpruned
          rw [Queue.size_eq] at hroom hn
          have hcleared : produce { s with producer := .clearing (some list) } =
              { s with mPlayQueue1 := s.mPlayQueue1.clear, producer := .adding list } := rfl
          have hclear : s.mPlayQueue1.clear.size = 0 := by
            rw [Queue.size_eq, Queue.values_clear, List.length_nil]
          rw [hcleared]
          obtain ⟨hdone, hvalues⟩ := @iterate_adding
            { s with mPlayQueue1 := s.mPlayQueue1.clear, producer := .adding list } list n rfl
            (by dsimp only; omega) (by omega)
          refine ⟨hdone, hvalues.trans ?_⟩
          rw [Queue.values_clear]
          rfl

/-- A call of `drainFrame()` without interruption leaves the prefix up to the last key frame if
and only if there is no key frame, or at most one frame behind the last one. -/
theorem drainFrame_exact_iff {s : State} {n : ℕ} (hidle : s.producer = .idle)
    (hroom : s.mPlayQueue1.size ≤ QUEUE_LENGTH) (hframes : ∀ x ∈ s.mPlayQueue1.values, x.frame ≠ [])
    (hn : s.mPlayQueue1.size + 3 ≤ n) :
    ∃ t, Machine.final step s (.drainFrame :: List.replicate n .producer) = .ok t ∧
      t.producer = .idle ∧
      (t.mPlayQueue1.values = upToLastKey s.mPlayQueue1.values ↔
        upToLastKey s.mPlayQueue1.values = [] ∨ (behindLastKey s.mPlayQueue1.values).length ≤ 1) := by
  obtain ⟨hdone, hvalues⟩ := drainFrame_alone hidle hroom hn
  refine ⟨_, final_step s _, hdone, ?_⟩
  rw [hvalues]
  exact drainPlayQueue_eq_iff hframes

/-- A queue of frames of one byte, their flags. -/
def flagQueue (flags : List UInt8) : Queue Item :=
  flags.zipIdx.foldl (fun q x => q.insert ⟨x.2, [x.1]⟩) .empty

theorem drainFrame_exact_oneBehind : ∃ t,
    Machine.final step { State.initial with mPlayQueue1 := flagQueue [0, 1, 0] }
      (.drainFrame :: List.replicate 6 .producer) = .ok t ∧ t.producer = .idle ∧
    t.mPlayQueue1.values = [⟨0, [0]⟩, ⟨1, [1]⟩] := by
  obtain ⟨t, hrun, hdone, hvalues⟩ := @drainFrame_exact_iff
    { State.initial with mPlayQueue1 := flagQueue [0, 1, 0] } 6 rfl (by decide +kernel)
    (by decide +kernel) (by decide +kernel)
  exact ⟨t, hrun, hdone, (hvalues.mpr (by decide +kernel)).trans (by decide +kernel)⟩

/-- Two frames behind the key frame stay. -/
theorem drainFrame_not_exact : ¬ ∀ (s t : State) (n : ℕ), s.producer = .idle →
    s.mPlayQueue1.size ≤ QUEUE_LENGTH → (∀ x ∈ s.mPlayQueue1.values, x.frame ≠ []) →
    s.mPlayQueue1.size + 3 ≤ n →
    Machine.final step s (.drainFrame :: List.replicate n .producer) = .ok t →
      t.mPlayQueue1.values = upToLastKey s.mPlayQueue1.values := by
  intro h
  have hvalues := h { State.initial with mPlayQueue1 := flagQueue [1, 0, 0] } _ 6 rfl
    (by decide +kernel) (by decide +kernel) (by decide +kernel) (final_step _ _)
  revert hvalues
  decide +kernel

/-! ## `drainFrame(queue, takeCount)` -/

open Native

/-- Frames wait in front of the first key frame. -/
def Waiting (queue : List Data) : Prop :=
  ∃ lead k tail, queue = lead ++ k :: tail ∧ lead ≠ [] ∧ Plain lead ∧ k.isKey = true

/-- What the method is for: of the frames in front of the first key frame, and of those between it
and a second one, nothing is left. -/
inductive Cut : List Data → List Data → Prop
  | one {lead tail : List Data} {k : Data} (waiting : lead ≠ []) (plain : Plain lead)
      (key : k.isKey = true) (noKey : Plain tail) : Cut (lead ++ k :: tail) (k :: tail)
  | two {lead gap rest : List Data} {k k' : Data} (waiting : lead ≠ []) (plain : Plain lead)
      (key : k.isKey = true) (between : Plain gap) (key' : k'.isKey = true) :
      Cut (lead ++ k :: (gap ++ k' :: rest)) (k :: k' :: rest)

theorem filter_plain {list : List Data} (h : Plain list) : list.filter Data.isKey = [] := by
  rw [List.filter_eq_nil_iff]
  intro d hd
  rw [h d hd]
  exact Bool.false_ne_true

/-- A cut removes no key frame. -/
theorem Cut.keys {queue left : List Data} (h : Cut queue left) :
    left.filter Data.isKey = queue.filter Data.isKey := by
  cases h with
  | one _ plain _ _ => rw [List.filter_append, filter_plain plain, List.nil_append]
  | two _ plain key between _ =>
      rw [List.filter_append, filter_plain plain, List.nil_append, List.filter_cons_of_pos key,
        List.filter_cons_of_pos key, List.filter_append, filter_plain between, List.nil_append]

theorem exists_cut {queue : List Data} (h : Waiting queue) : ∃ left, Cut queue left := by
  obtain ⟨lead, k, tail, rfl, hne, hlead, hk⟩ := h
  rcases plain_or_split tail with htail | ⟨gap, k', rest, rfl, hgap, hk'⟩
  · exact ⟨_, .one hne hlead hk htail⟩
  · exact ⟨_, .two hne hlead hk hgap hk'⟩

theorem drainFrame_of_cut {queue left : List Data} {takeCount : ℕ} (htake : 10 ≤ takeCount)
    (h : Cut queue left) : drainFrame (queue.map Data.data) takeCount = .ok (left.map Data.data) := by
  cases h with
  | one waiting plain key noKey => exact javaDrainFrame_last htake waiting plain key noKey
  | two waiting plain key between key' => exact javaDrainFrame_two htake waiting plain key between key'

theorem drainFrame_of_not_waiting {queue : List Data} (h : ¬ Waiting queue) (takeCount : ℕ) :
    drainFrame (queue.map Data.data) takeCount = .ok (queue.map Data.data) := by
  rcases plain_or_split queue with hplain | ⟨lead, k, tail, rfl, hlead, hk⟩
  · exact javaDrainFrame_plain hplain takeCount
  · have hnil : lead = [] := by
      by_contra hne
      exact h ⟨lead, k, tail, rfl, hne, hlead, hk⟩
    subst hnil
    exact javaDrainFrame_key hk takeCount

theorem map_data_injective {xs ys : List Data} (h : xs.map Data.data = ys.map Data.data) :
    xs = ys := by
  refine List.map_injective_iff.mpr (fun d d' hd => ?_) h
  cases d
  cases d'
  cases hd
  rfl

theorem drainFrame_few {queue : List (List UInt8)} {takeCount : ℕ} (h : takeCount < 10) :
    drainFrame queue takeCount = .ok queue := if_pos h

/-- From the tenth call on a queue with frames in front of a key frame is cut, any other is left as
it is, and no key frame is removed. -/
theorem drainFrame_cuts (queue : List Data) (takeCount : ℕ) : ∃ left,
    drainFrame (queue.map Data.data) takeCount = .ok (left.map Data.data) ∧
      (10 ≤ takeCount → ∀ cut, Cut queue cut → left = cut) ∧
      (takeCount < 10 ∨ ¬ Waiting queue → left = queue) ∧
      left.filter Data.isKey = queue.filter Data.isKey := by
  have hunique {left : List Data}
      (hleft : drainFrame (queue.map Data.data) takeCount = .ok (left.map Data.data))
      (htake : 10 ≤ takeCount) (cut : List Data) (hcut : Cut queue cut) : left = cut := by
    rw [drainFrame_of_cut htake hcut] at hleft
    exact map_data_injective (Except.ok.inj hleft).symm
  by_cases hcuts : 10 ≤ takeCount ∧ Waiting queue
  · obtain ⟨left, hcut⟩ := exists_cut hcuts.2
    have hleft := drainFrame_of_cut hcuts.1 hcut
    refine ⟨left, hleft, hunique hleft, ?_, hcut.keys⟩
    rintro (hfew | hnot)
    · omega
    · exact absurd hcuts.2 hnot
  · have hleft : drainFrame (queue.map Data.data) takeCount = .ok (queue.map Data.data) := by
      by_cases hfew : takeCount < 10
      · exact drainFrame_few hfew
      · exact drainFrame_of_not_waiting (fun hwaits => hcuts ⟨by omega, hwaits⟩) takeCount
    exact ⟨queue, hleft, hunique hleft, fun _ => rfl, rfl⟩

end MirrorCast.PlayQueue
