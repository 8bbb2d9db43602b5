import Mathlib.Data.List.ReduceOption
import MirrorCast.Program.MyJni

/-! # Order of the frames that leave the play queue -/

namespace MirrorCast.PlayQueue

open Java MediaClient MyJni BlockingQueue

/-! ## Runs -/

theorem final_step (s : State) (is : List Input) :
    Machine.final step s is = .ok (is.foldl next s) := Machine.final_total next s is

theorem meets_step_cons {C : State → Input → Prop} {past : List Input} {s : State} {i : Input}
    {is : List Input} : Machine.Meets step (fun _ s i => C s i) past s (i :: is) ↔
      C s i ∧ Machine.Meets step (fun _ s i => C s i) (i :: past) (next s i) is :=
  Machine.meets_cons_of_ok rfl is

/-! ## The copy of `drainFrame()` -/

theorem prune_sublist {n i : ℕ} {list out : List Item} (h : prune n i list = .ok out) :
    out.Sublist list := by
  induction n generalizing i list with
  | zero =>
      cases h
      exact List.Sublist.refl _
  | succ n ih =>
      rw [prune] at h
      split at h
      · exact (ih h).trans (List.eraseIdx_sublist list i)
      · cases h

theorem pruned_sublist {list out : List Item} (h : pruned list = .ok (some out)) :
    out.Sublist list := by
  obtain ⟨index, -, hrest⟩ := bind_eq_ok.mp h
  cases index with
  | none => cases hrest
  | some index =>
      obtain ⟨kept, hprune, hkept⟩ := bind_eq_ok.mp hrest
      cases hkept
      exact prune_sublist hprune

/-! ## The invariant -/

/-- The frames handed out so far. -/
def handed (s : State) : List Item := s.returned.reduceOption

/-- The frames that may still be handed out, in order; between the clearing and the end of
`addAll` the rest of the copy counts. -/
def queued (s : State) : List Item :=
  match s.producer with
  | .adding list => s.mPlayQueue1.values ++ list
  | _ => s.mPlayQueue1.values

structure Ordered (s : State) : Prop where
  numbers : s.given.map Item.number = List.range s.given.length
  queue : (handed s ++ queued s).Sublist s.given
  /-- A copy waiting to go back fits behind what was handed out. -/
  copy : ∀ list, s.producer = .clearing (some list) → (handed s ++ list).Sublist s.given

/-- The decode thread takes nothing while `drainFrame()` holds a copy that it will write
back over the queue. -/
def TakesApart (s : State) (i : Input) : Prop :=
  i = .consumer → s.consumer = .taking → ∀ list, s.producer ≠ .clearing (some list)

theorem ordered_initial : Ordered .initial where
  numbers := rfl
  queue := List.Sublist.refl _
  copy := by
    intro list h
    cases h

/-- A step that hands out nothing, gives nothing and leaves the receive thread alone keeps
the order when the queue only shrinks. -/
theorem Ordered.shrink {s t : State} (h : Ordered s) (hgiven : t.given = s.given)
    (hproducer : t.producer = s.producer) (hhanded : handed t = handed s)
    (hqueue : t.mPlayQueue1.values.Sublist s.mPlayQueue1.values) : Ordered t where
  numbers := by rw [hgiven]; exact h.numbers
  queue := by
    rw [hgiven, hhanded]
    refine List.Sublist.trans (List.Sublist.append_left ?_ _) h.queue
    unfold queued
    rw [hproducer]
    cases s.producer with
    | adding list => exact hqueue.append_right list
    | idle => exact hqueue
    | snapshot => exact hqueue
    | clearing list => exact hqueue
  copy := by
    rw [hgiven, hhanded, hproducer]
    exact h.copy

theorem ordered_putData {s : State} (h : Ordered s) (hidle : s.producer = .idle)
    (frame : List UInt8) : Ordered (putData s frame) := by
  unfold putData
  dsimp only
  split
  · rename_i queue hoffer
    have hqueue := Queue.offer_eq_some hoffer
    refine ⟨?_, ?_, ?_⟩
    · simp [h.numbers, List.range_succ]
    · have hall := h.queue
      simp only [queued, hidle, handed] at hall ⊢
      rw [hqueue, Queue.values_insert, ← List.append_assoc]
      exact hall.append_right _
    · intro list hlist
      rw [show s.producer = .clearing (some list) from hlist] at hidle
      cases hidle
  · exact h

theorem ordered_produce {s : State} (h : Ordered s) : Ordered (produce s) := by
  have hqueue := h.queue
  unfold produce
  split
  · exact h
  · rename_i hproducer
    simp only [queued, hproducer] at hqueue
    split
    · rename_i list hpruned
      refine ⟨h.numbers, hqueue, ?_⟩
      intro kept hkept
      cases hkept
      exact (List.Sublist.append_left (pruned_sublist hpruned) _).trans hqueue
    · exact ⟨h.numbers, hqueue, by simp⟩
  · refine ⟨h.numbers, ?_, by simp⟩
    have hprefix := (List.sublist_append_left (handed s) (queued s)).trans hqueue
    simpa [queued, handed] using hprefix
  · rename_i list hproducer
    have hcopy := h.copy list hproducer
    refine ⟨h.numbers, ?_, by simp⟩
    simpa [queued, handed] using hcopy
  · rename_i hproducer
    refine ⟨h.numbers, ?_, by simp⟩
    simpa [queued, handed, hproducer] using hqueue
  · rename_i x list hproducer
    simp only [queued, hproducer] at hqueue
    split
    · rename_i queue hoffer
      refine ⟨h.numbers, ?_, by simp⟩
      simp only [queued, handed] at hqueue ⊢
      rw [Queue.offer_eq_some hoffer, Queue.values_insert, List.append_assoc _ [x]]
      exact hqueue
    · refine ⟨h.numbers, ?_, by simp⟩
      exact (List.Sublist.append_left (List.sublist_append_left _ _) _).trans hqueue

theorem ordered_look {s : State} (h : Ordered s) (it : Iterator Item) (finished : Consumer)
    (frame : Cell Item → Iterator Item → Bool → Consumer) :
    Ordered (look s it finished frame) := by
  unfold look
  split
  · exact h.shrink rfl rfl rfl (List.Sublist.refl _)
  · split
    · exact h.shrink rfl rfl rfl (List.Sublist.refl _)
    · refine h.shrink rfl rfl ?_ (List.Sublist.refl _)
      simp [handed, List.reduceOption_append]

theorem ordered_consume {s : State} (h : Ordered s)
    (htakes : s.consumer = .taking → ∀ list, s.producer ≠ .clearing (some list)) :
    Ordered (consume s) := by
  unfold consume
  split
  case h_3 | h_5 | h_9 | h_11 => exact ordered_look h _ _ _
  case h_6 | h_12 => exact h.shrink rfl rfl rfl (Queue.values_remove_sublist _ _)
  case h_13 hconsumer =>
    split
    · rename_i item queue hpoll
      have hvalues := Queue.poll_eq_some hpoll
      have hhanded : handed { s with
          mPlayQueue1 := queue, consumer := .idle, returned := s.returned ++ [some item] } =
          handed s ++ [item] := by simp [handed, List.reduceOption_append]
      refine ⟨h.numbers, ?_, fun list hlist => absurd hlist (htakes hconsumer list)⟩
      have hqueue := h.queue
      rw [hhanded, List.append_assoc]
      convert hqueue using 2
      unfold queued
      dsimp only
      split <;> rw [hvalues] <;> rfl
    · exact h
  all_goals exact h.shrink rfl rfl rfl (List.Sublist.refl _)

/-- A take apart from the write-back of `drainFrame()` keeps the order, and so does every
other step. -/
theorem ordered_next {s : State} {i : Input} (h : Ordered s) (htakes : TakesApart s i) :
    Ordered (next s i) := by
  cases i with
  | putData frame =>
      rw [next]
      split
      · rename_i hidle
        exact ordered_putData h hidle frame
      · exact h
  | drainFrame =>
      rw [next]
      split
      · rename_i hidle
        have hqueue := h.queue
        simp only [queued, hidle.1] at hqueue
        exact ⟨h.numbers, hqueue, by simp⟩
      · exact h
  | producer => exact ordered_produce h
  | consumer => exact ordered_consume h (htakes rfl)
  | reveal n => exact h.shrink rfl rfl rfl (List.Sublist.refl _)
  | forget ticket => exact h.shrink rfl rfl rfl (List.Sublist.refl _)

/-- While no take falls between the copy and the clearing of a `drainFrame()` that writes its
copy back, the frames handed out are some of those given, in order and each at most once. -/
theorem handed_in_order {is : List Input} {s : State}
    (hmeets : Machine.Meets step (fun _ s i => TakesApart s i) [] .initial is)
    (h : Machine.final step .initial is = .ok s) :
    (handed s).Sublist s.given ∧ s.given.map Item.number = List.range s.given.length := by
  have hordered : Ordered s := Machine.final_of_meets Ordered
    (fun past s i s' out hs htakes hstep => by
      cases hstep
      exact ordered_next hs htakes)
    ordered_initial hmeets h
  exact ⟨(List.sublist_append_left _ _).trans hordered.queue, hordered.numbers⟩

/-- One key frame, drained while the decode thread waits. -/
def drainFirst : List Input :=
  [.putData [7, 1, 1], .drainFrame, .producer, .producer, .producer, .producer, .consumer, .consumer]

theorem handed_in_order_drainFirst :
    (handed (drainFirst.foldl next .initial)).Sublist (drainFirst.foldl next .initial).given ∧
      (drainFirst.foldl next .initial).given.map Item.number =
        List.range (drainFirst.foldl next .initial).given.length := by
  refine handed_in_order ?_ (final_step .initial drainFirst)
  have hidle : ∀ s : State, s.producer = .idle → TakesApart s .consumer := by
    intro s hs _ _ list hlist
    rw [hs] at hlist
    cases hlist
  have hother : ∀ (s : State) (i : Input), i ≠ .consumer → TakesApart s i :=
    fun s i hi h => absurd h hi
  rw [drainFirst]
  simp only [meets_step_cons]
  refine ⟨hother _ _ (by decide), hother _ _ (by decide), hother _ _ (by decide),
    hother _ _ (by decide), hother _ _ (by decide), hother _ _ (by decide), hidle _ ?_,
    hidle _ ?_, trivial⟩
  all_goals decide +kernel

/-- The same frame taken between the copy and the clearing comes back and is taken again. -/
def takenTwice : List Input :=
  [.putData [7, 1, 1], .drainFrame, .producer, .consumer, .consumer, .producer, .producer,
    .producer, .consumer, .consumer]

theorem hands_out_twice : ¬ ∀ (is : List Input) (s : State),
    Machine.final step .initial is = .ok s → (handed s).Sublist s.given := by
  intro h
  have hrun := h takenTwice _ (final_step _ _)
  have hlength := hrun.length_le
  revert hlength
  decide +kernel

end MirrorCast.PlayQueue
