import MirrorCast.Verification.Pool.Holding

/-! # The invariant of the pool and the changes that keep it -/

namespace MirrorCast.Pool

open AMessage LinkedStack

variable {V : Type}

/-- A message is in the list that starts at `POOL`. -/
def InPool (s : State V) (m : ℕ) : Prop := Linked (fun k => (s.messages k).mNext) s.POOL m

/-- The message is neither in the pool nor in the hands of an `obtain` or `recycle`. -/
def Apart (s : State V) (m : ℕ) : Prop := ¬ InPool s m ∧ ∀ t, ¬ Possesses (s.call t) m

/-- A thread has marked the message as waiting for a response. -/
def Hold.Marks (h : Hold) : Prop := ∃ t, h = .awaiter t ∨ h = .sender t

/-- `Hold.Marks`, by the kind of hold. -/
def Hold.Waits : Hold → Prop
  | .awaiter _ | .sender _ => True
  | _ => False

theorem Hold.Marks.waits {h : Hold} (hmarks : Hold.Marks h) : Hold.Waits h := by
  obtain ⟨t, rfl | rfl⟩ := hmarks
  · trivial
  · trivial

/-- No delivery, no handler and no `recycle` depends on the hold. -/
def Hold.Movable : Hold → Prop
  | .nobody | .receiver | .awaiter _ => False
  | _ => True

structure Inv (s : State V) : Prop where
  pooled : ∃ xs, Chain (fun k => (s.messages k).mNext) s.POOL xs ∧ xs.Nodup ∧
    ∀ m ∈ xs, ((s.messages m).mInUse = false ∧ m < s.constructed) ∧ ∀ t, ¬ Possesses (s.call t) m
  fits : ∀ t m, Fits t (s.call t) m (s.hold m)
  possessed : ∀ t m, Possesses (s.call t) m →
    (s.messages m).mInUse = false ∧ m < s.constructed
  alone : ∀ t t' m, Possesses (s.call t) m → Possesses (s.call t') m → t = t'
  taken : ∀ t m, Takes (s.call t) m → Unclaimed s m
  delivered : ∀ d ∈ s.mailbox, Sent d.awaited (s.hold d.message)
  dispatched : ∀ t m awaited, s.dispatching t = some (m, awaited) → Sent awaited (s.hold m)
  responses : ∀ m r, (s.messages m).mResponseQueue = some r → s.hold r = .response m
  waiting : ∀ m, Hold.Marks (s.hold m) → (s.messages m).mWaitingForResponse = true
  used : ∀ m, s.hold m ≠ .nobody → (s.messages m).mInUse = true
  linked : ∀ t m cur response, s.call t = .recycle m (.swap cur) response →
    (s.messages m).mNext = cur
  fresh : ∀ m, s.constructed ≤ m → s.hold m = .nobody ∧ Unclaimed s m

theorem inv_initial : Inv (State.initial V) where
  pooled := ⟨[], rfl, List.nodup_nil, by simp⟩
  fits := fun _ _ => trivial
  possessed := fun _ _ h => h.elim
  alone := fun _ _ _ h => h.elim
  taken := fun _ _ h => h.elim
  delivered := by simp [State.initial]
  dispatched := fun _ _ _ h => nomatch h
  responses := fun _ _ h => nomatch h
  waiting := by
    rintro m ⟨t, h | h⟩ <;> cases h
  used := fun _ _ => rfl
  linked := fun _ _ _ _ h => nomatch h
  fresh := fun _ _ => ⟨rfl, by simp [State.initial], fun _ => ⟨id, fun _ => nofun⟩⟩

section

variable {s : State V} {t m : ℕ}

theorem Inv.of_inPool (h : Inv s) (hm : InPool s m) :
    ((s.messages m).mInUse = false ∧ m < s.constructed) ∧ ∀ t, ¬ Possesses (s.call t) m := by
  obtain ⟨xs, hchain, -, hall⟩ := h.pooled
  exact hall m (hchain.linked_iff.mp hm)

theorem Inv.apart_of_used (h : Inv s) (hm : (s.messages m).mInUse = true) : Apart s m := by
  refine ⟨fun hpool => ?_, fun t hposs => ?_⟩
  · rw [(h.of_inPool hpool).1.1] at hm
    cases hm
  · rw [(h.possessed t m hposs).1] at hm
    cases hm

/-- What an owner has is apart from the pool and known to no `recycle`. -/
theorem Inv.apart (h : Inv s) (hm : s.hold m ≠ .nobody) : Apart s m :=
  h.apart_of_used (h.used m hm)

theorem Inv.constructed_of_hold (h : Inv s) (hm : s.hold m ≠ .nobody) : m < s.constructed := by
  by_contra hnot
  exact hm (h.fresh m (Nat.le_of_not_lt hnot)).1

theorem Inv.nobody_of_possesses (h : Inv s) (hm : Possesses (s.call t) m) :
    s.hold m = .nobody := by
  by_contra hne
  exact (h.apart hne).2 t hm

theorem possesses_of_takes {c : Call} (h : Takes c m) : Possesses c m := by
  cases c with
  | obtain stage source => cases stage <;> exact h
  | _ => exact h.elim

theorem not_mayRecycle_of_takes {c : Call} (h : Takes c m) : ¬ MayRecycle c m := by
  cases c with
  | obtain stage source => exact id
  | _ => exact h.elim

/-! ## Changes of one part of the state -/

theorem Inv.setCall (h : Inv s) {c : Call} (hfits : ∀ m, Fits t c m (s.hold m))
    (hposs : ∀ m, Possesses c m → Possesses (s.call t) m ∨
      ((s.messages m).mInUse = false ∧ m < s.constructed) ∧ Apart s m)
    (htakes : ∀ m, Takes c m → Takes (s.call t) m ∨ Unclaimed s m)
    (hmay : ∀ m, MayRecycle c m → MayRecycle (s.call t) m ∨
      m < s.constructed ∧ ∀ t, ¬ Takes (s.call t) m)
    (hlinked : ∀ m cur response, c = .recycle m (.swap cur) response →
      (s.messages m).mNext = cur) : Inv (s.setCall t c) := by
  have hcall : ∀ t', (s.setCall t c).call t' = if t' = t then c else s.call t' := fun t' =>
    Function.update_apply ..
  have hunclaimed : ∀ m, Unclaimed s m → ¬ MayRecycle c m → Unclaimed (s.setCall t c) m := by
    intro m hm hc
    refine ⟨hm.1, fun t' => ⟨?_, (hm.2 t').2⟩⟩
    rw [hcall]
    split
    · exact hc
    · exact (hm.2 t').1
  have hnew : ∀ m, Possesses c m → ∀ t', t' ≠ t → ¬ Possesses (s.call t') m := by
    intro m hm t' hne hother
    rcases hposs m hm with hold | ⟨-, -, hnone⟩
    · exact hne (h.alone _ _ _ hother hold)
    · exact hnone t' hother
  constructor
  case pooled =>
    obtain ⟨xs, hchain, hnodup, hall⟩ := h.pooled
    refine ⟨xs, hchain, hnodup, fun m hm => ⟨(hall m hm).1, fun t' => ?_⟩⟩
    rw [hcall]
    split
    · intro hc
      rcases hposs m hc with hold | ⟨-, hapart⟩
      · exact (hall m hm).2 t hold
      · exact hapart.1 (hchain.linked_iff.mpr hm)
    · exact (hall m hm).2 t'
  case fits =>
    intro t' m
    rw [hcall]
    split
    · rename_i ht
      rw [ht]
      exact hfits m
    · exact h.fits t' m
  case possessed =>
    intro t' m
    rw [hcall]
    split
    · intro hc
      rcases hposs m hc with hold | ⟨hloose, -⟩
      · exact h.possessed t m hold
      · exact hloose
    · exact h.possessed t' m
  case alone =>
    intro t₁ t₂ m
    rw [hcall, hcall]
    split <;> split
    · rename_i h₁ h₂
      exact fun _ _ => h₁.trans h₂.symm
    · rename_i h₁ h₂
      exact fun hc hother => absurd hother (hnew m hc t₂ h₂)
    · rename_i h₁ h₂
      exact fun hother hc => absurd hother (hnew m hc t₁ h₁)
    · exact h.alone t₁ t₂ m
  case taken =>
    intro t' m htaken
    rw [hcall] at htaken
    have hold : ∀ t'', Takes (s.call t'') m → Unclaimed (s.setCall t c) m := by
      intro t'' ht''
      have hm := h.taken t'' m ht''
      refine hunclaimed m hm fun hc => ?_
      rcases hmay m hc with hmine | ⟨-, hnone⟩
      · exact (hm.2 t).1 hmine
      · exact hnone t'' ht''
    split at htaken
    · rcases htakes m htaken with hmine | hm
      · exact hold t hmine
      · exact hunclaimed m hm (not_mayRecycle_of_takes htaken)
    · exact hold t' htaken
  case linked =>
    intro t' m cur response hc
    rw [hcall] at hc
    split at hc
    · exact hlinked m cur response hc
    · exact h.linked t' m cur response hc
  case fresh =>
    intro m hm
    refine ⟨(h.fresh m hm).1, hunclaimed m (h.fresh m hm).2 fun hc => ?_⟩
    rcases hmay m hc with hmine | ⟨hlt, -⟩
    · exact ((h.fresh m hm).2.2 t).1 hmine
    · exact absurd hm (Nat.not_le_of_lt hlt)
  case delivered => exact h.delivered
  case dispatched => exact h.dispatched
  case responses => exact h.responses
  case waiting => exact h.waiting
  case used => exact h.used

/-- A call that has no message for itself and recycles none. -/
theorem Inv.setQuiet (h : Inv s) {c : Call} (hfits : ∀ m, Fits t c m (s.hold m))
    (hposs : ∀ m, ¬ Possesses c m) (hmay : ∀ m, ¬ MayRecycle c m) : Inv (s.setCall t c) := by
  refine h.setCall hfits (fun m hm => absurd hm (hposs m))
    (fun m hm => absurd (possesses_of_takes hm) (hposs m)) (fun m hm => absurd hm (hmay m)) ?_
  rintro m cur response rfl
  exact absurd ⟨rfl, by simp, by simp⟩ (hposs m)

theorem Inv.setIdle (h : Inv s) : Inv (s.setCall t .idle) :=
  h.setQuiet (fun _ => trivial) (fun _ => id) fun _ => id

theorem Inv.setHold (h : Inv s) {new : Hold} (hfits : ∀ t, Fits t (s.call t) m new)
    (hdelivered : ∀ d ∈ s.mailbox, d.message = m → Sent d.awaited new)
    (hdispatched : ∀ t awaited, s.dispatching t = some (m, awaited) → Sent awaited new)
    (hresponses : ∀ k, (s.messages k).mResponseQueue ≠ some m)
    (hwaiting : Hold.Marks new → (s.messages m).mWaitingForResponse = true)
    (hused : new ≠ .nobody → (s.messages m).mInUse = true ∧ m < s.constructed) :
    Inv (s.setHold m new) := by
  have hhold : ∀ k, (s.setHold m new).hold k = if k = m then new else s.hold k := fun k =>
    Function.update_apply ..
  constructor
  case fits =>
    intro t k
    rw [hhold]
    split
    · rename_i hk
      rw [hk]
      exact hfits t
    · exact h.fits t k
  case delivered =>
    intro d hd
    rw [hhold]
    split
    · rename_i hk
      exact hdelivered d hd hk
    · exact h.delivered d hd
  case dispatched =>
    intro t k awaited hk
    rw [hhold]
    split
    · rename_i heq
      rw [heq] at hk
      exact hdispatched t awaited hk
    · exact h.dispatched t k awaited hk
  case responses =>
    intro k r hr
    rw [hhold]
    split
    · rename_i heq
      rw [heq] at hr
      exact absurd hr (hresponses k)
    · exact h.responses k r hr
  case waiting =>
    intro k hk
    rw [hhold] at hk
    split at hk
    · rename_i heq
      rw [heq]
      exact hwaiting hk
    · exact h.waiting k hk
  case used =>
    intro k hk
    rw [hhold] at hk
    split at hk
    · rename_i heq
      rw [heq]
      exact (hused hk).1
    · exact h.used k hk
  case fresh =>
    intro k hk
    refine ⟨?_, (h.fresh k hk).2⟩
    rw [hhold]
    split
    · rename_i heq
      by_contra hne
      have hlt := (hused hne).2
      rw [← heq] at hlt
      exact absurd hk (Nat.not_le_of_lt hlt)
    · exact (h.fresh k hk).1
  case pooled => exact h.pooled
  case possessed => exact h.possessed
  case alone => exact h.alone
  case taken => exact h.taken
  case linked => exact h.linked

/-- A message changes hands that no `recycle` knows of. -/
theorem Inv.handOver (h : Inv s) {new : Hold} (hmovable : Hold.Movable (s.hold m))
    (hfits : ∀ t, Foreign t (s.hold m) ∨ ∀ new, Fits t (s.call t) m new)
    (hresponses : ∀ k, (s.messages k).mResponseQueue ≠ some m)
    (hwaiting : Hold.Marks new → (s.messages m).mWaitingForResponse = true) :
    Inv (s.setHold m new) := by
  have hnobody : s.hold m ≠ .nobody := fun heq => by rwa [heq] at hmovable
  have hreceiver : s.hold m ≠ .receiver := fun heq => by rwa [heq] at hmovable
  have hawaiter : ∀ t, s.hold m ≠ .awaiter t := fun t heq => by rwa [heq] at hmovable
  have hsent : ∀ awaited, Sent awaited (s.hold m) → Sent awaited new := by
    intro awaited hsent
    unfold Sent Hold.Answerable at hsent
    split at hsent
    · rcases hsent with hsent | ⟨t, hsent⟩
      · exact absurd hsent hnobody
      · exact absurd hsent (hawaiter t)
    · rcases hsent with hsent | hsent
      · exact absurd hsent hnobody
      · exact absurd hsent hreceiver
  refine h.setHold (fun t => ?_) ?_ ?_ hresponses hwaiting
    fun _ => ⟨h.used m hnobody, h.constructed_of_hold hnobody⟩
  · rcases hfits t with hforeign | hany
    · exact (h.fits t m).of_foreign hforeign new
    · exact hany new
  · rintro d hd rfl
    exact hsent _ (h.delivered d hd)
  · intro t awaited hd
    exact hsent _ (h.dispatched t m awaited hd)

/-- The fields of a message change; who links it and whether it is in use may change only
where nobody looks. -/
theorem Inv.setMessage (h : Inv s) {f : Fields V}
    (hinUse : f.mInUse = (s.messages m).mInUse ∨ (f.mInUse = true ∧ Apart s m) ∨
      (f.mInUse = false ∧ s.hold m = .nobody))
    (hnext : f.mNext = (s.messages m).mNext ∨ ¬ InPool s m ∧
      ∀ t cur response, s.call t ≠ .recycle m (.swap cur) response)
    (hresponses : ∀ r, f.mResponseQueue = some r → s.hold r = .response m)
    (hwaiting : Hold.Marks (s.hold m) → f.mWaitingForResponse = true) :
    Inv (s.setMessage m f) := by
  have hmessages : ∀ k, (s.setMessage m f).messages k = if k = m then f else s.messages k :=
    fun k => Function.update_apply ..
  have hkeeps : ∀ k, InPool s k ∨ (∃ t, Possesses (s.call t) k) →
      (s.messages k).mInUse = false → ((s.setMessage m f).messages k).mInUse = false := by
    intro k hk hold
    rw [hmessages]
    split
    · rename_i heq
      rw [heq] at hk hold
      rcases hinUse with hsame | ⟨-, hpool, hnone⟩ | ⟨hfalse, -⟩
      · rw [hsame, hold]
      · rcases hk with hk | ⟨t, hk⟩
        · exact absurd hk hpool
        · exact absurd hk (hnone t)
      · exact hfalse
    · exact hold
  constructor
  case pooled =>
    obtain ⟨xs, hchain, hnodup, hall⟩ := h.pooled
    refine ⟨xs, hchain.congr fun k hk => ?_, hnodup, fun k hk => ?_⟩
    · rw [hmessages]
      split
      · rename_i heq
        rw [heq] at hk ⊢
        rcases hnext with hsame | ⟨hpool, -⟩
        · exact hsame
        · exact absurd (hchain.linked_iff.mpr hk) hpool
      · rfl
    · obtain ⟨⟨hloose, hlt⟩, hnone⟩ := hall k hk
      exact ⟨⟨hkeeps k (.inl (hchain.linked_iff.mpr hk)) hloose, hlt⟩, hnone⟩
  case possessed =>
    intro t k hk
    obtain ⟨hloose, hlt⟩ := h.possessed t k hk
    exact ⟨hkeeps k (.inr ⟨t, hk⟩) hloose, hlt⟩
  case responses =>
    intro k r hr
    rw [hmessages] at hr
    split at hr
    · rename_i heq
      rw [heq]
      exact hresponses r hr
    · exact h.responses k r hr
  case waiting =>
    intro k hk
    rw [hmessages]
    split
    · rename_i heq
      rw [heq] at hk
      exact hwaiting hk
    · exact h.waiting k hk
  case used =>
    intro k hk
    rw [hmessages]
    split
    · rename_i heq
      rw [heq] at hk
      rcases hinUse with hsame | ⟨htrue, -⟩ | ⟨-, hnobody⟩
      · rw [hsame, h.used m hk]
      · exact htrue
      · exact absurd hnobody hk
    · exact h.used k hk
  case linked =>
    intro t k cur response hc
    rw [hmessages]
    split
    · rename_i heq
      rw [heq] at hc
      rcases hnext with hsame | ⟨-, hnone⟩
      · rw [hsame, h.linked t m cur response hc]
      · exact absurd hc (hnone t cur response)
    · exact h.linked t k cur response hc
  case fits => exact h.fits
  case alone => exact h.alone
  case taken => exact h.taken
  case delivered => exact h.delivered
  case dispatched => exact h.dispatched
  case fresh => exact h.fresh

/-- Only what a message contains changes. -/
theorem Inv.setContents (h : Inv s) {f : Fields V} (hinUse : f.mInUse = (s.messages m).mInUse)
    (hnext : f.mNext = (s.messages m).mNext)
    (hqueue : f.mResponseQueue = none ∨ f.mResponseQueue = (s.messages m).mResponseQueue)
    (hwaiting : f.mWaitingForResponse = (s.messages m).mWaitingForResponse) :
    Inv (s.setMessage m f) := by
  refine h.setMessage (.inl hinUse) (.inl hnext) (fun r hr => ?_) fun hmarks => ?_
  · rcases hqueue with hqueue | hqueue
    · rw [hqueue] at hr
      cases hr
    · exact h.responses m r (hqueue ▸ hr)
  · rw [hwaiting, h.waiting m hmarks]

/-! ## The pool -/

theorem Inv.popped (h : Inv s) (hpool : s.POOL = some m) :
    Inv { s with POOL := (s.messages m).mNext } ∧
      Apart { s with POOL := (s.messages m).mNext } m := by
  obtain ⟨xs, hchain, hnodup, hall⟩ := h.pooled
  rw [hpool] at hchain
  obtain ⟨rest, rfl, hrest⟩ := hchain.pop
  obtain ⟨hnot, hnodup⟩ := List.nodup_cons.mp hnodup
  refine ⟨{ h with pooled := ⟨rest, hrest, hnodup, fun k hk =>
    hall k (List.mem_cons_of_mem _ hk)⟩ }, fun hm => hnot (hrest.linked_iff.mp hm), ?_⟩
  exact (hall m List.mem_cons_self).2

theorem Inv.pushed (h : Inv s) (hnext : (s.messages m).mNext = s.POOL)
    (hloose : (s.messages m).mInUse = false ∧ m < s.constructed) (hapart : Apart s m) :
    Inv { s with POOL := some m } := by
  obtain ⟨xs, hchain, hnodup, hall⟩ := h.pooled
  refine { h with pooled := ⟨m :: xs, hchain.push hnext, ?_, fun k hk => ?_⟩ }
  · exact List.nodup_cons.mpr ⟨fun hm => hapart.1 (hchain.linked_iff.mpr hm), hnodup⟩
  · rcases List.mem_cons.mp hk with rfl | hk
    · exact ⟨hloose, hapart.2⟩
    · exact hall k hk

/-! ## Deliveries -/

theorem Inv.pushMail (h : Inv s) {d : Delivery} (hsent : Sent d.awaited (s.hold d.message))
    (hhold : s.hold d.message ≠ .nobody) : Inv { s with mailbox := s.mailbox ++ [d] } := by
  have hmem : ∀ d' ∈ s.mailbox ++ [d], d' ∈ s.mailbox ∨ d' = d := by simp
  have hunclaimed : ∀ k, k ≠ d.message → Unclaimed s k →
      Unclaimed { s with mailbox := s.mailbox ++ [d] } k := by
    intro k hk hold
    refine ⟨fun d' hd' => ?_, hold.2⟩
    rcases hmem d' hd' with hd' | rfl
    · exact hold.1 d' hd'
    · exact hk.symm
  refine { h with taken := fun t k hk => ?_, delivered := fun d' hd' => ?_, fresh := fun k hk => ?_ }
  · refine hunclaimed k ?_ (h.taken t k hk)
    rintro rfl
    exact hhold (h.nobody_of_possesses (possesses_of_takes hk))
  · rcases hmem d' hd' with hd' | rfl
    · exact h.delivered d' hd'
    · exact hsent
  · refine ⟨(h.fresh k hk).1, hunclaimed k ?_ (h.fresh k hk).2⟩
    rintro rfl
    exact hhold (h.fresh _ hk).1

theorem Inv.deliver (h : Inv s) {d : Delivery} {k : ℕ} (hd : s.mailbox[k]? = some d) :
    Inv { s with
      mailbox := s.mailbox.eraseIdx k
      dispatching := Function.update s.dispatching t (some (d.message, d.awaited)) } := by
  have hmem : d ∈ s.mailbox := List.mem_of_getElem? hd
  have hdispatching : ∀ t' m awaited, Function.update s.dispatching t
      (some (d.message, d.awaited)) t' = some (m, awaited) →
        (m = d.message ∧ awaited = d.awaited) ∨ s.dispatching t' = some (m, awaited) := by
    intro t' m awaited ht'
    rw [Function.update_apply] at ht'
    split at ht'
    · obtain ⟨rfl, rfl⟩ := Prod.mk.inj (Option.some.inj ht')
      exact .inl ⟨rfl, rfl⟩
    · exact .inr ht'
  have hunclaimed : ∀ m, Unclaimed s m → Unclaimed { s with
      mailbox := s.mailbox.eraseIdx k
      dispatching := Function.update s.dispatching t (some (d.message, d.awaited)) } m := by
    intro m hm
    refine ⟨fun d' hd' => hm.1 d' (List.mem_of_mem_eraseIdx hd'), fun t' => ⟨(hm.2 t').1, ?_⟩⟩
    intro awaited ht'
    rcases hdispatching t' m awaited ht' with ⟨rfl, -⟩ | ht'
    · exact hm.1 d hmem rfl
    · exact (hm.2 t').2 awaited ht'
  refine { h with
    taken := fun t' m hm => hunclaimed m (h.taken t' m hm)
    delivered := fun d' hd' => h.delivered d' (List.mem_of_mem_eraseIdx hd')
    dispatched := fun t' m awaited ht' => ?_
    fresh := fun m hm => ⟨(h.fresh m hm).1, hunclaimed m (h.fresh m hm).2⟩ }
  rcases hdispatching t' m awaited ht' with ⟨rfl, rfl⟩ | ht'
  · exact h.delivered d hmem
  · exact h.dispatched t' m awaited ht'

theorem Inv.endDispatch (h : Inv s) :
    Inv { s with dispatching := Function.update s.dispatching t none } := by
  have hdispatching : ∀ t' m awaited, Function.update s.dispatching t none t' =
      some (m, awaited) → s.dispatching t' = some (m, awaited) := by
    intro t' m awaited ht'
    rw [Function.update_apply] at ht'
    split at ht'
    · cases ht'
    · exact ht'
  have hunclaimed : ∀ m, Unclaimed s m →
      Unclaimed { s with dispatching := Function.update s.dispatching t none } m := by
    intro m hm
    exact ⟨hm.1, fun t' => ⟨(hm.2 t').1, fun awaited ht' =>
      (hm.2 t').2 awaited (hdispatching t' m awaited ht')⟩⟩
  exact { h with
    taken := fun t' m hm => hunclaimed m (h.taken t' m hm)
    dispatched := fun t' m awaited ht' => h.dispatched t' m awaited (hdispatching t' m awaited ht')
    fresh := fun m hm => ⟨(h.fresh m hm).1, hunclaimed m (h.fresh m hm).2⟩ }

end

end MirrorCast.Pool
