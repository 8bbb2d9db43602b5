import MirrorCast.Program.MediaClientService

/-! # Encoder threads that wait for a rotation -/

namespace MirrorCast.MediaClientService

open Machine

/-- The encoder thread of an orientation has no business waiting. -/
def Strands (f : Fields) (o : Bool) : Prop := f.mIsHandling o = true ∨ f.mIsRecording = false

/-- No rotation or stop is in progress, and an encoder thread that should run is blocked. -/
def Stranded (s : State) : Prop :=
  s.todo = [] ∧ ∃ o, s.encoder o = .waiting ∧ Strands s.fields o

/-- The fields once the call under way has returned. -/
def State.after (s : State) : Fields := s.todo.foldl Action.write s.fields

/-- The call under way still signals the thread, or leaves it nothing to do. -/
def Served (s : State) (o : Bool) : Prop := .signal o ∈ s.todo ∨ ¬ Strands s.after o

/-- A thread goes to wait only where it is served, and no `sendData` fails while recording. -/
def AwaitsInTime (s : State) : Input → Prop
  | .encoder o feeding => (s.encoder o = .awaiting → Served s o) ∧
      (s.encoder o = .feeding → feeding = .sendDataFails → s.fields.mIsRecording = false)
  | .caller written =>
      s.todo.head? = some .sendData → written = false → s.fields.mIsRecording = false
  | .call _ | .wake _ => True

instance (f : Fields) (o : Bool) : Decidable (Strands f o) := inferInstanceAs (Decidable (_ ∨ _))

instance (s : State) (o : Bool) : Decidable (Served s o) := inferInstanceAs (Decidable (_ ∨ _))

instance (s : State) : ∀ i, Decidable (AwaitsInTime s i)
  | .encoder _ _ => inferInstanceAs (Decidable ((_ → _) ∧ (_ → _ → _)))
  | .caller _ => inferInstanceAs (Decidable (_ → _ → _))
  | .call _ | .wake _ => .isTrue trivial

/-! ## Calls -/

/-- A call signals every thread it gives something to do. -/
theorem signal_mem_actions {f : Fields} {o : Bool} (h : ¬ Strands f o) (c : Call) :
    .signal o ∈ c.actions ∨ ¬ Strands (c.actions.foldl Action.write f) o := by
  obtain ⟨hhandling, hrecording⟩ := not_or.mp h
  cases c with
  | fromPortraitToLandscape =>
      cases o with
      | true => exact .inr (by simp_all [Call.actions, Action.write, Strands, Fields.mIsHandling])
      | false => exact .inl (by simp [Call.actions])
  | fromLandscapeToPortrait =>
      cases o with
      | true => exact .inl (by simp [Call.actions])
      | false => exact .inr (by simp_all [Call.actions, Action.write, Strands, Fields.mIsHandling])
  | stopRecordScreen => exact .inl (by cases o <;> simp [Call.actions])

theorem served_nil {s : State} (h : s.todo = []) {o : Bool} :
    Served s o ↔ ¬ Strands s.fields o := by
  simp [Served, State.after, h]

/-- An action that is no signal to the thread leaves it served. -/
theorem served_cons {s s' : State} {action : Action} {todo : List Action} {o : Bool}
    (hs : s.todo = action :: todo) (haction : action ≠ .signal o) (htodo : s'.todo = todo)
    (hfields : s'.fields = action.write s.fields) (h : Served s o) : Served s' o := by
  rw [Served, State.after, hs] at h
  rw [Served, State.after, htodo, hfields]
  rcases h with hsignal | hafter
  · rcases List.mem_cons.mp hsignal with heq | hsignal
    · exact absurd heq.symm haction
    · exact .inl hsignal
  · exact .inr hafter

/-! ## The invariant -/

/-- Whoever waits is served. -/
structure Inv (s : State) : Prop where
  served : ∀ o, s.encoder o = .waiting → Served s o
  running : ∀ o todo, s.encoder o ≠ .releasing todo

theorem not_stranded {s : State} (h : Inv s) : ¬ Stranded s := by
  rintro ⟨htodo, o, hwaiting, hstrands⟩
  exact (served_nil htodo).mp (h.served o hwaiting) hstrands

theorem Inv.setEncoder {s s' : State} (h : Inv s) {o : Bool} {encoder : Encoder}
    (hencoder : s'.encoder = Function.update s.encoder o encoder)
    (hserved : ∀ o', Served s o' → Served s' o')
    (hwaiting : encoder = .waiting → Served s' o) (hrunning : ∀ todo, encoder ≠ .releasing todo) :
    Inv s' := by
  constructor
  · intro o' ho'
    rw [hencoder] at ho'
    by_cases heq : o' = o
    · subst heq
      rw [Function.update_self] at ho'
      exact hwaiting ho'
    · rw [Function.update_of_ne heq] at ho'
      exact hserved o' (h.served o' ho')
  · intro o' todo ho'
    rw [hencoder] at ho'
    by_cases heq : o' = o
    · subst heq
      rw [Function.update_self] at ho'
      exact hrunning todo ho'
    · rw [Function.update_of_ne heq] at ho'
      exact h.running o' todo ho'

/-- A thread that does not go to wait moves. -/
theorem Inv.move {s : State} (h : Inv s) (o : Bool) {encoder : Encoder}
    (hwaiting : encoder ≠ .waiting) (hrunning : ∀ todo, encoder ≠ .releasing todo) :
    Inv (s.setEncoder o encoder) :=
  h.setEncoder rfl (fun _ hserved => hserved) (fun heq => absurd heq hwaiting) hrunning

theorem Inv.setLock {s : State} (h : Inv s) (o : Bool) (holder : Option Holder) :
    Inv (s.setLock o holder) := ⟨h.served, h.running⟩

theorem Inv.signal {s : State} (h : Inv s) (o : Bool) : Inv (s.signal o) := by
  unfold State.signal
  split
  · exact h.move o nofun nofun
  · exact h

theorem not_waiting_signal (s : State) (o : Bool) : (s.signal o).encoder o ≠ .waiting := by
  unfold State.signal
  split
  · have hwoken : (s.setEncoder o .woken).encoder o = .woken := Function.update_self ..
    rw [hwoken]
    nofun
  · assumption

theorem signal_todo (s : State) (o : Bool) :
    (s.signal o).todo = s.todo ∧ (s.signal o).fields = s.fields := by
  unfold State.signal
  split <;> exact ⟨rfl, rfl⟩

/-! ## Steps -/

theorem call_keeps {s : State} (h : Inv s) (c : Call) : Inv (next s (.call c)) := by
  rw [next]
  split
  · rename_i htodo
    refine ⟨fun o ho => ?_, h.running⟩
    exact signal_mem_actions ((served_nil htodo).mp (h.served o ho)) c
  · exact h

theorem caller_keeps {s : State} (h : Inv s) {written : Bool}
    (hi : AwaitsInTime s (.caller written)) : Inv (caller s written) := by
  unfold caller
  cases hs : s.todo with
  | nil => exact h
  | cons action todo =>
      have htail : action.write s.fields = s.fields → (∀ o, action ≠ .signal o) →
          ∀ o', s.encoder o' = .waiting → Served { s with todo } o' := fun hfields haction o' ho' =>
        served_cons hs (haction o') rfl hfields.symm (h.served o' ho')
      cases action with
      | sendData =>
          dsimp only
          split
          · rename_i hfails
            rw [AwaitsInTime, hs] at hi
            exact absurd (hfails.1.symm.trans (hi rfl hfails.2)) (by decide)
          · exact ⟨htail rfl nofun, h.running⟩
      | lock o =>
          dsimp only
          split
          · exact ⟨htail rfl nofun, h.running⟩
          · exact h
      | signal o =>
          refine ⟨fun o' ho' => ?_, (h.signal o).running⟩
          have hne : o' ≠ o := by
            rintro rfl
            exact not_waiting_signal s o' ho'
          obtain ⟨htodo, hfields⟩ := signal_todo s o
          exact served_cons (htodo.trans hs) (by simpa using Ne.symm hne) rfl rfl
            ((h.signal o).served o' ho')
      | unlock o => exact ⟨htail rfl nofun, h.running⟩
      | mIsRecording value =>
          exact ⟨fun o ho => served_cons hs nofun rfl rfl (h.served o ho), h.running⟩
      | mIsHandlingPortrait value =>
          exact ⟨fun o ho => served_cons hs nofun rfl rfl (h.served o ho), h.running⟩
      | mIsHandlingLandscape value =>
          exact ⟨fun o ho => served_cons hs nofun rfl rfl (h.served o ho), h.running⟩
      | mIsKeyFrameWritePortrait value =>
          exact ⟨fun o ho => served_cons hs nofun rfl rfl (h.served o ho), h.running⟩
      | mIsKeyFrameWriteLandscape value =>
          exact ⟨fun o ho => served_cons hs nofun rfl rfl (h.served o ho), h.running⟩

theorem encode_keeps {s : State} (h : Inv s) {o : Bool} {feeding : Feeding}
    (hi : AwaitsInTime s (.encoder o feeding)) : Inv (encode s o feeding) := by
  obtain ⟨hawaits, hfails⟩ := hi
  unfold encode
  cases hpc : s.encoder o with
  | looping => exact h.move o (by split <;> nofun) (by split <;> nofun)
  | testing => exact h.move o (by split <;> nofun) (by split <;> nofun)
  | locking =>
      dsimp only
      split
      · exact (h.setLock o _).move o nofun nofun
      · exact h
  | awaiting =>
      exact (h.setLock o none).setEncoder rfl (fun _ hserved => hserved) (fun _ => hawaits hpc)
        nofun
  | waiting => exact h
  | woken =>
      dsimp only
      split
      · exact (h.setLock o _).move o nofun nofun
      · exact h
  | unlocking => exact (h.setLock o none).move o nofun nofun
  | feeding =>
      cases feeding with
      | sendDataFails =>
          dsimp only
          split
          · rename_i hrecording
            exact absurd (hrecording.symm.trans (hfails hpc rfl)) (by decide)
          · exact h
      | returns result => exact h.move o (by split <;> nofun) (by split <;> nofun)
  | releasing todo => exact absurd hpc (h.running o todo)
  | ended => exact h

theorem next_keeps {s : State} (h : Inv s) {i : Input} (hi : AwaitsInTime s i) :
    Inv (next s i) := by
  cases i with
  | call c => exact call_keeps h c
  | caller written => exact caller_keeps h hi
  | encoder o feeding => exact encode_keeps h hi
  | wake o => exact h.signal o

/-! ## Runs -/

/-- Where every thread goes to wait in time, no rotation or stop leaves one behind. -/
theorem no_lost_wakeup (isPortrait : Bool) (is : List Input)
    (hmeets : Meets step (fun _ s i => AwaitsInTime s i) [] (.initial isPortrait) is) :
    ¬ Stranded (is.foldl next (.initial isPortrait)) := by
  have hinv : Inv (.initial isPortrait) := ⟨nofun, nofun⟩
  have hfinal := final_of_meets Inv (fun past s i s' out h hi hstep => by
    cases hstep
    exact next_keeps h hi) hinv hmeets (final_total next _ is)
  exact not_stranded hfinal

/-- A call and all of its steps. -/
def whole (c : Call) : List Input := .call c :: List.replicate c.actions.length (.caller true)

/-- Next steps of an encoder thread. -/
def encoderSteps (isPortrait : Bool) (n : ℕ) : List Input :=
  List.replicate n (.encoder isPortrait (.returns true))

/-- The landscape thread waits before the rotation and is woken up by it. -/
def awaitedBefore : List Input :=
  encoderSteps false 4 ++ whole .fromPortraitToLandscape ++ encoderSteps false 3

theorem no_lost_wakeup_awaitedBefore : ¬ Stranded (awaitedBefore.foldl next (.initial true)) :=
  no_lost_wakeup true awaitedBefore (by decide +kernel)

/-- The rotation falls between the test of `mIsHandlingLandscape` and `await()`. -/
def awaitedAfter : List Input :=
  encoderSteps false 2 ++ whole .fromPortraitToLandscape ++ encoderSteps false 2

/-- The signal comes before anyone waits, and the landscape thread is blocked. -/
theorem rotation_strands_encoder :
    ¬ ∀ (isPortrait : Bool) (is : List Input),
      ¬ Stranded (is.foldl next (.initial isPortrait)) := by
  intro h
  exact h true awaitedAfter ⟨by decide +kernel, false, by decide +kernel, by decide +kernel⟩

end MirrorCast.MediaClientService
