import MirrorCast.Verification.Pool.Steps

/-! # Which messages of the pool are shared -/

namespace MirrorCast.Pool

open AMessage LinkedStack

variable {V : Type}

/-- The call is a `recycle` that has found `m` in use and clears it. -/
def Clears (c : Call) (m : ℕ) : Prop :=
  ∃ stage response, c = .recycle m stage response ∧ stage ≠ .checkWaiting ∧ stage ≠ .checkInUse

/-- What somebody has is not in the pool, about to be returned by an `obtain`, or being
cleared by a `recycle`. -/
def Private (s : State V) : Prop :=
  ∀ m, s.hold m ≠ .nobody →
    ¬ InPool s m ∧ (∀ t, ¬ Takes (s.call t) m) ∧ ∀ t, ¬ Clears (s.call t) m

theorem private_of_inv {s : State V} (h : Inv s) : Private s := by
  intro m hm
  obtain ⟨hpool, hnone⟩ := h.apart hm
  refine ⟨hpool, fun t htakes => hnone t (possesses_of_takes htakes), ?_⟩
  rintro t ⟨stage, response, hcall, hstage⟩
  refine hnone t ?_
  rw [hcall]
  exact ⟨rfl, hstage⟩

/-- No message is shared in a run that pops a message only if its next message is the one
read before and nobody will still recycle it. -/
theorem private_of_popsFresh (looper : ℕ → ℕ) {is : List (Input V)} {s : State V}
    (hmeets : Machine.Meets (step looper) (fun _ s i => PopsFresh s i) [] (.initial V) is)
    (h : Machine.final (step looper) (.initial V) is = .ok s) : Private s := by
  refine private_of_inv (Machine.final_of_meets Inv ?_ inv_initial hmeets h)
  intro past s i s' out hinv hpops hstep
  cases hstep
  exact inv_next looper hinv hpops

/-! ## Runs -/

theorem final_step (looper : ℕ → ℕ) (s : State V) (is : List (Input V)) :
    Machine.final (step looper) s is = .ok (is.foldl (next looper) s) := by
  induction is generalizing s with
  | nil => rfl
  | cons i is ih =>
      have hstep : step looper s i = .ok (next looper s i, []) := rfl
      rw [Machine.final_cons_of_ok hstep, ih, List.foldl_cons]

/-! ## A thread on its own -/

/-- Thread `t` obtains, copies and recycles messages. -/
def By (t : ℕ) : Input V → Prop
  | .obtain t' | .dup t' _ | .recycle t' _ | .advance t' => t' = t
  | _ => False

/-- No thread but `t` does anything, and nothing is sent. -/
structure Lone (t : ℕ) (s : State V) : Prop where
  mailbox : s.mailbox = []
  dispatching : ∀ t', s.dispatching t' = none
  idle : ∀ t', t' ≠ t → s.call t' = .idle

/-- Thread `t` awaits nothing, and what its `obtain` has read is still there. -/
structure Alone (t : ℕ) (s : State V) : Prop extends Lone t s where
  call : ∀ m stage, s.call t ≠ .await m stage
  read : ∀ cur next source, s.call t = .obtain (.swap cur next) source →
    (s.messages cur).mNext = next

section

variable {s : State V} {t : ℕ}

theorem Alone.popsFresh (h : Alone t s) : PopsFresh s (.advance t) := by
  intro cur next source hcall _
  refine ⟨h.read cur next source hcall, by simp [h.mailbox], fun t' => ⟨?_, ?_⟩⟩
  · by_cases ht : t' = t
    · rw [ht, hcall]
      exact id
    · rw [h.idle t' ht]
      exact id
  · intro awaited hd
    rw [h.dispatching t'] at hd
    cases hd

theorem Lone.setCall (h : Lone t s) {c : Call} (hawait : ∀ m stage, c ≠ .await m stage)
    (hread : ∀ cur next source, c = .obtain (.swap cur next) source →
      (s.messages cur).mNext = next) : Alone t (s.setCall t c) where
  mailbox := h.mailbox
  dispatching := h.dispatching
  idle := fun t' ht => by rw [call_setCall_apply, if_neg ht, h.idle t' ht]
  call := by rwa [call_setCall]
  read := by rwa [call_setCall]

/-- The call neither awaits a response nor has read what it is about to swap. -/
def Plain : Call → Prop
  | .await .. | .obtain (.swap ..) _ => False
  | _ => True

theorem Lone.setPlain (h : Lone t s) {c : Call} (hplain : Plain c) : Alone t (s.setCall t c) := by
  refine h.setCall ?_ ?_
  · rintro m stage rfl
    exact hplain
  · rintro cur next source rfl
    exact hplain.elim

theorem Alone.setHold (h : Alone t s) (m : ℕ) (new : Hold) : Alone t (s.setHold m new) :=
  ⟨⟨h.mailbox, h.dispatching, h.idle⟩, h.call, h.read⟩

theorem Lone.setMessage (h : Lone t s) (m : ℕ) (f : Fields V) : Lone t (s.setMessage m f) :=
  ⟨h.mailbox, h.dispatching, h.idle⟩

theorem Lone.obtained (h : Lone t s) (m : ℕ) (source : Option ℕ) :
    Alone t (obtained s t m source) := by
  cases source with
  | none =>
      exact (h.setPlain (c := .idle) trivial).setHold m .owner
  | some source =>
      have hgiven : Lone t (s.setHold m (.dup t)) := ⟨h.mailbox, h.dispatching, h.idle⟩
      exact hgiven.setPlain trivial

theorem Lone.recycled (h : Lone t s) (response : Option ℕ) : Alone t (recycled s t response) := by
  have hidle : Alone t (s.setCall t .idle) := h.setPlain trivial
  cases response with
  | none => exact hidle
  | some response => exact hidle.setHold response .owner

theorem Lone.obtain (h : Lone t s) (source : Option ℕ) (stage : Obtaining) :
    Alone t (obtain s t source stage) := by
  have hpool : ∀ head, Lone t { s with POOL := head } := fun _ =>
    ⟨h.mailbox, h.dispatching, h.idle⟩
  cases stage with
  | get =>
      simp only [AMessage.obtain]
      split <;> exact h.setPlain trivial
  | readNext cur =>
      refine h.setCall (by simp) ?_
      rintro _ _ _ ⟨⟩
      rfl
  | swap cur next =>
      simp only [AMessage.obtain]
      split
      · exact (hpool next).setPlain trivial
      · exact h.setPlain trivial
  | unlink cur => exact (h.setMessage cur _).setPlain trivial
  | acquire cur =>
      have hidle := h.setPlain (c := .idle) trivial
      exact (hidle.toLone.setMessage cur _).obtained cur source
  | construct =>
      have hmore : Lone t { s with constructed := s.constructed + 1 } :=
        ⟨h.mailbox, h.dispatching, h.idle⟩
      exact (hmore.setMessage s.constructed _).obtained s.constructed source

theorem Lone.copy (h : Lone t s) (source dupMsg : ℕ) (stage : Copying) :
    Alone t (copy s t source dupMsg stage) := by
  have hset := h.setMessage dupMsg
  cases stage with
  | target =>
      exact ((hset _).setPlain (c := .idle) trivial).setHold dupMsg .owner
  | _ => exact (hset _).setPlain trivial

theorem Lone.recycle (h : Lone t s) (m : ℕ) (response : Option ℕ) (stage : Recycling) :
    Alone t (recycle s t m response stage) := by
  have hcall : ∀ {s : State V}, Lone t s → ∀ stage, Alone t (s.setCall t
      (.recycle m stage response)) := fun h _ => h.setPlain trivial
  cases stage with
  | checkWaiting =>
      simp only [AMessage.recycle]
      split
      · exact h.recycled response
      · exact hcall h _
  | checkInUse =>
      simp only [AMessage.recycle]
      split
      · exact hcall (h.setMessage m _) _
      · exact h.recycled response
  | get => exact hcall h _
  | swap cur =>
      have hpushed : Lone t { s with POOL := some m } := ⟨h.mailbox, h.dispatching, h.idle⟩
      simp only [AMessage.recycle]
      split
      · exact hpushed.recycled response
      · exact hcall h _
  | _ => exact hcall (h.setMessage m _) _

theorem alone_next (looper : ℕ → ℕ) (h : Alone t s) {i : Input V} (hi : By t i) :
    Alone t (next looper s i) := by
  cases i with
  | obtain t' =>
      cases hi
      simp only [next]
      split
      · exact h.toLone.setPlain trivial
      · exact h
  | dup t' source =>
      cases hi
      simp only [next]
      split
      · exact h.toLone.setPlain trivial
      · exact h
  | recycle t' m =>
      cases hi
      simp only [next]
      split
      · exact (h.setHold m .nobody).toLone.setPlain trivial
      · exact h
  | advance t' =>
      cases hi
      simp only [next, advance]
      split
      · exact h
      · exact h.toLone.obtain _ _
      · exact h.toLone.copy _ _ _
      · exact h.toLone.recycle _ _ _
      · rename_i m stage hcall
        exact absurd hcall (h.call m stage)
  | _ => exact hi.elim

end

/-- A thread on its own meets the condition. -/
theorem meets_of_by (looper : ℕ → ℕ) {t : ℕ} {is : List (Input V)} (his : ∀ i ∈ is, By t i) :
    Machine.Meets (step looper) (fun _ s i => PopsFresh s i) [] (.initial V) is := by
  have halone : Alone t (.initial V) := ⟨⟨rfl, fun _ => rfl, fun _ _ => rfl⟩, fun _ _ => nofun,
    fun _ _ _ => nofun⟩
  generalize (State.initial V) = s at halone ⊢
  generalize [] = past
  induction is generalizing past s with
  | nil => trivial
  | cons i is ih =>
      have hi := his i List.mem_cons_self
      refine ⟨?_, ?_⟩
      · cases i with
        | advance t' =>
            cases hi
            exact halone.popsFresh
        | _ => trivial
      · intro s' out hstep
        cases hstep
        exact ih (fun j hj => his j (List.mem_cons_of_mem i hj)) _ (alone_next looper halone hi) _

/-! ## Runs -/

/-- `n` steps of the call of thread `t`. -/
def steps (n t : ℕ) : List (Input Unit) := List.replicate n (.advance t)

/-- Thread 0 obtains a new message, recycles it and obtains it again. -/
def reuse : List (Input Unit) :=
  [.obtain 0] ++ steps 2 0 ++ [.recycle 0 0] ++ steps 9 0 ++ [.obtain 0] ++ steps 5 0

theorem private_reuse :
    (reuse.foldl (next fun _ => 1) (.initial Unit)).constructed = 1 ∧
      (reuse.foldl (next fun _ => 1) (.initial Unit)).hold 0 = .owner ∧
      Private (reuse.foldl (next fun _ => 1) (.initial Unit)) := by
  refine ⟨by decide +kernel, by decide +kernel, ?_⟩
  refine private_of_popsFresh (fun _ => 1) (meets_of_by _ (t := 0) ?_) (final_step _ _ reuse)
  simp [reuse, steps, By]

/-- Thread 0 leaves two messages in the pool. Thread 1 reads the first and its next one, thread
2 takes both and gives the first back, and thread 1 pops it. -/
def staleNext : List (Input Unit) :=
  [.obtain 0] ++ steps 2 0 ++ [.obtain 0] ++ steps 2 0 ++ [.recycle 0 1] ++ steps 9 0 ++
    [.recycle 0 0] ++ steps 9 0 ++ [.obtain 1] ++ steps 2 1 ++ [.obtain 2] ++ steps 5 2 ++
    [.obtain 2] ++ steps 5 2 ++ [.recycle 2 0] ++ steps 9 2 ++ steps 1 1

/-- Thread 0 awaits the response of a handler of thread 1 and recycles its message; thread 2
obtains the message before the handler returns and it is recycled again. -/
def recycledTwice : List (Input Unit) :=
  [.obtain 0] ++ steps 2 0 ++ [.setTarget 0 (some 0), .postAndAwaitResponse 0 0] ++ steps 1 0 ++
    [.deliver 0, .obtain 1] ++ steps 2 1 ++ [.postResponse 0 1] ++ steps 11 0 ++ [.obtain 2] ++
    steps 5 2 ++ [.finish 1] ++ steps 2 1

theorem shares_messages :
    (¬ ∀ (is : List (Input Unit)) (m : ℕ), let s := is.foldl (next fun _ => 1) (.initial Unit)
      s.hold m ≠ .nobody → ¬ InPool s m) ∧
    ¬ ∀ (is : List (Input Unit)) (m t : ℕ), let s := is.foldl (next fun _ => 1) (.initial Unit)
      s.hold m ≠ .nobody → ¬ Clears (s.call t) m := by
  constructor
  · intro h
    have hpool : (staleNext.foldl (next fun _ => 1) (.initial Unit)).POOL = some 1 := by
      decide +kernel
    refine h staleNext 1 (by decide +kernel) ?_
    rw [InPool, hpool]
    exact .here 1
  · intro h
    have hcall : (recycledTwice.foldl (next fun _ => 1) (.initial Unit)).call 1 =
        .recycle 0 .clearQueue none := by decide +kernel
    exact h recycledTwice 0 1 (by decide +kernel) ⟨_, _, hcall, nofun, nofun⟩

end MirrorCast.Pool
