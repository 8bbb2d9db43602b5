import MirrorCast.Verification.Pool.Invariant

/-! # Every step keeps the invariant of the pool -/

namespace MirrorCast.Pool

open AMessage LinkedStack

variable {V : Type} {s : State V} {t m : ℕ}

/-! ## The end of a call -/

theorem foreign_owner (t : ℕ) : Foreign t .owner :=
  ⟨nofun, fun _ => nofun, nofun, nofun, nofun⟩

theorem foreign_response (t m : ℕ) : Foreign t (.response m) :=
  ⟨nofun, fun _ => nofun, nofun, nofun, nofun⟩

theorem foreign_sender {t t' : ℕ} (hne : t' ≠ t) : Foreign t' (.sender t) := by
  simp [Foreign, Ne.symm hne]

theorem possesses_swap (m : ℕ) (cur response : Option ℕ) :
    Possesses (.recycle m (.swap cur) response) m :=
  ⟨rfl, nofun, nofun⟩

/-- The messages an owner has are nobody's response. -/
theorem Inv.not_response (h : Inv s) (hm : ∀ k, s.hold m ≠ .response k) (k : ℕ) :
    (s.messages k).mResponseQueue ≠ some m :=
  fun hk => hm k (h.responses k m hk)

theorem Inv.giveUp (h : Inv s) (hm : s.hold m = .owner) (new : Hold)
    (hwaiting : Hold.Marks new → (s.messages m).mWaitingForResponse = true) :
    Inv (s.setHold m new) :=
  h.handOver (by rw [hm]; trivial) (fun t => .inl (by rw [hm]; exact foreign_owner t))
    (h.not_response fun k => by rw [hm]; nofun) hwaiting

/-- A message that a call of thread `t` has for itself is returned when the call is over. -/
theorem Inv.returned (h : Inv s) (hcall : s.call t = .idle)
    (hm : s.hold m = .dup t ∨ s.hold m = .sender t ∨ s.hold m = .answer t) :
    Inv (s.setHold m .owner) := by
  have hforeign : ∀ t', t' ≠ t → Foreign t' (s.hold m) := by
    intro t' hne
    rcases hm with hm | hm | hm <;> rw [hm] <;>
      refine ⟨nofun, fun _ => nofun, ?_, ?_, ?_⟩ <;> simp [Ne.symm hne]
  refine h.handOver ?_ (fun t' => ?_) (h.not_response fun k => ?_) fun hmarks => hmarks.waits.elim
  · rcases hm with hm | hm | hm <;> rw [hm] <;> trivial
  · by_cases hne : t' = t
    · right
      intro new
      rw [hne, hcall]
      trivial
    · exact .inl (hforeign t' hne)
  · rcases hm with hm | hm | hm <;> rw [hm] <;> nofun

theorem call_setCall (s : State V) (t : ℕ) (c : Call) : (s.setCall t c).call t = c :=
  Function.update_self ..

theorem call_setCall_apply (s : State V) (t t' : ℕ) (c : Call) :
    (s.setCall t c).call t' = if t' = t then c else s.call t' :=
  Function.update_apply ..

/-- Which messages are in the pool depends on their links only. -/
theorem inPool_setMessage {f : Fields V} (hnext : f.mNext = (s.messages m).mNext) (k : ℕ) :
    InPool (s.setMessage m f) k ↔ InPool s k := by
  have hsame : (fun j => ((s.setMessage m f).messages j).mNext) = fun j => (s.messages j).mNext := by
    funext j
    simp only [State.setMessage, Function.update_apply]
    split
    · rename_i heq
      rw [hnext, heq]
    · rfl
  rw [InPool, hsame]
  rfl

theorem messages_setMessage (s : State V) (m : ℕ) (f : Fields V) :
    (s.setMessage m f).messages m = f :=
  Function.update_self ..

theorem Unclaimed.setIdle (h : Unclaimed s m) : Unclaimed (s.setCall t .idle) m := by
  refine ⟨h.1, fun t' => ⟨?_, (h.2 t').2⟩⟩
  rw [call_setCall_apply]
  split
  · exact id
  · exact (h.2 t').1

theorem inv_recycled (h : Inv s) {stage : Recycling} {response : Option ℕ}
    (hcall : s.call t = .recycle m stage response) : Inv (recycled s t response) := by
  cases response with
  | none => exact h.setIdle
  | some r =>
      refine h.setIdle.returned (call_setCall s t .idle) (.inr (.inr ?_))
      have hfits := h.fits t r
      rw [hcall] at hfits
      exact hfits.2.2 rfl

/-! ## `obtain` -/

theorem inv_obtained (h : Inv s) (hnobody : s.hold m = .nobody)
    (hused : (s.messages m).mInUse = true) (hlt : m < s.constructed) (hunclaimed : Unclaimed s m)
    (source : Option ℕ) : Inv (obtained s t m source) := by
  have hgive : ∀ (s : State V), Inv s → s.hold m = .nobody → (s.messages m).mInUse = true →
      m < s.constructed → Unclaimed s m → ∀ new, ¬ Hold.Waits new →
        Inv (s.setHold m new) := by
    intro s h hnobody hused hlt hunclaimed new hwaits
    refine h.setHold (fun t' => ?_) (fun d hd hdm => absurd hdm (hunclaimed.1 d hd))
      (fun t' awaited hd => absurd hd ((hunclaimed.2 t').2 awaited))
      (h.not_response fun k => by rw [hnobody]; nofun) (fun hnew => absurd hnew.waits hwaits)
      fun _ => ⟨hused, hlt⟩
    have hfits := h.fits t' m
    rw [hnobody] at hfits
    exact hfits.of_nobody (hunclaimed.2 t').1 new
  cases source with
  | none =>
      exact hgive _ h.setIdle hnobody hused hlt hunclaimed.setIdle _ id
  | some source =>
      refine (hgive s h hnobody hused hlt hunclaimed (.dup t) id).setQuiet ?_ (fun _ => id)
        fun _ => id
      rintro k rfl
      exact Function.update_self ..

/-- What a pop finds: the next message is the one read before, and nobody will still recycle
the message. -/
def PopsFresh (s : State V) : Input V → Prop
  | .advance t => ∀ cur next source, s.call t = .obtain (.swap cur next) source →
      s.POOL = some cur → (s.messages cur).mNext = next ∧ Unclaimed s cur
  | _ => True

theorem inv_obtain (h : Inv s) {stage : Obtaining} {source : Option ℕ}
    (hcall : s.call t = .obtain stage source) (hpops : PopsFresh s (.advance t)) :
    Inv (obtain s t source stage) := by
  cases stage with
  | get =>
      simp only [obtain]
      split
      · exact h.setQuiet (fun _ => trivial) (fun _ => id) fun _ => id
      · exact h.setQuiet (fun _ => trivial) (fun _ => id) fun _ => id
  | readNext cur => exact h.setQuiet (fun _ => trivial) (fun _ => id) fun _ => id
  | swap cur next =>
      simp only [obtain]
      split
      · rename_i hpool
        obtain ⟨rfl, hunclaimed⟩ := hpops cur next source hcall hpool
        obtain ⟨hpopped, hapart⟩ := h.popped hpool
        have hloose := (h.of_inPool (by rw [InPool, hpool]; exact .here cur)).1
        refine hpopped.setCall (fun _ => trivial) ?_ ?_ (fun _ hm => hm.elim) (by simp)
        · rintro k rfl
          exact .inr ⟨hloose, hapart⟩
        · rintro k rfl
          exact .inr hunclaimed
      · exact h.setQuiet (fun _ => trivial) (fun _ => id) fun _ => id
  | unlink cur =>
      have hposs : Possesses (s.call t) cur := by
        rw [hcall]
        rfl
      have hset : Inv (s.setMessage cur { s.messages cur with mNext := none }) := by
        refine h.setMessage (.inl rfl) (.inr ⟨fun hpool => ?_, ?_⟩) (h.responses cur) (h.waiting cur)
        · exact (h.of_inPool hpool).2 t hposs
        · intro t' next response hswap
          have ht : t' = t := h.alone t' t cur (by rw [hswap]; exact possesses_swap ..) hposs
          rw [ht, hcall] at hswap
          cases hswap
      refine hset.setCall (fun _ => trivial) (fun k hk => .inl ?_) (fun k hk => .inl ?_)
        (fun _ hm => hm.elim) (by simp)
      · rw [show k = cur from hk]
        exact hposs
      · change Takes (s.call t) k
        rw [hcall]
        exact hk
  | acquire cur =>
      have hposs : Possesses (s.call t) cur := by
        rw [hcall]
        rfl
      have hunclaimed := h.taken t cur (by rw [hcall]; rfl)
      have hapart : Apart (s.setCall t .idle) cur := by
        refine ⟨fun hpool => (h.of_inPool hpool).2 t hposs, fun t' => ?_⟩
        rw [call_setCall_apply]
        split
        · exact id
        · rename_i hne
          exact fun hother => hne (h.alone t' t cur hother hposs)
      have hset := h.setIdle.setMessage (m := cur) (f := { s.messages cur with mInUse := true })
        (.inr (.inl ⟨rfl, hapart⟩)) (.inl rfl) (h.responses cur) (h.waiting cur)
      exact inv_obtained hset (h.nobody_of_possesses hposs)
        (by rw [messages_setMessage]) (h.possessed t cur hposs).2
        hunclaimed.setIdle source
  | construct =>
      obtain ⟨hnobody, hunclaimed⟩ := h.fresh s.constructed (Nat.le_refl _)
      have hmore : Inv { s with constructed := s.constructed + 1 } := by
        obtain ⟨xs, hchain, hnodup, hall⟩ := h.pooled
        exact { h with
          pooled := ⟨xs, hchain, hnodup, fun k hk =>
            ⟨⟨(hall k hk).1.1, Nat.lt_succ_of_lt (hall k hk).1.2⟩, (hall k hk).2⟩⟩
          possessed := fun t' k hk =>
            ⟨(h.possessed t' k hk).1, Nat.lt_succ_of_lt (h.possessed t' k hk).2⟩
          fresh := fun k hk => h.fresh k (Nat.le_of_succ_le hk) }
      have hapart : Apart { s with constructed := s.constructed + 1 } s.constructed :=
        ⟨fun hpool => Nat.lt_irrefl _ (h.of_inPool hpool).1.2,
          fun t' hposs => Nat.lt_irrefl _ (h.possessed t' _ hposs).2⟩
      have hset := hmore.setMessage (m := s.constructed) (f := .new V) (.inr (.inl ⟨rfl, hapart⟩))
        (.inr ⟨hapart.1, fun t' cur response hswap => hapart.2 t' (by
          rw [hswap]
          exact possesses_swap ..)⟩) (fun _ hr => by cases hr) (fun hmarks => by
          change Hold.Marks (s.hold s.constructed) at hmarks
          rw [hnobody] at hmarks
          exact hmarks.waits.elim)
      exact inv_obtained hset hnobody (by rw [messages_setMessage]; rfl) (Nat.lt_succ_self _)
        hunclaimed source

/-! ## `dup`, `recycle` and `postAndAwaitResponse` -/

theorem Inv.startRecycle (h : Inv s) {response : Option ℕ}
    (hanswerable : Hold.Answerable (s.hold m))
    (hresponse : ∀ r, response = some r → s.hold r = .answer t) (hlt : m < s.constructed)
    (htakes : ∀ t, ¬ Takes (s.call t) m) :
    Inv (s.setCall t (.recycle m .checkWaiting response)) := by
  refine h.setCall (fun k => ⟨?_, fun _ => nofun, hresponse k⟩) (fun k hk => absurd rfl hk.2.1)
    (fun _ hk => hk.elim) ?_ fun _ _ _ => nofun
  · rintro rfl -
    exact hanswerable
  · rintro k ⟨rfl, -⟩
    exact .inr ⟨hlt, htakes⟩

/-- Nobody has a message once its receiver gave it up. -/
theorem Inv.release (h : Inv s) (hm : s.hold m = .nobody ∨ s.hold m = .receiver) :
    Inv (s.setHold m .nobody) := by
  refine h.setHold (fun t => ?_) (fun _ _ _ => sent_nobody _) (fun _ _ _ => sent_nobody _)
    (h.not_response fun k => ?_)
    (fun hmarks => hmarks.waits.elim) fun hne => absurd rfl hne
  · have hfits := h.fits t m
    rcases hm with hm | hm
    · rwa [hm] at hfits
    · rw [hm] at hfits
      exact hfits.of_foreign ⟨nofun, fun _ => nofun, nofun, nofun, nofun⟩ _
  · rcases hm with hm | hm <;> rw [hm] <;> nofun

theorem setCall_setCall (s : State V) (t : ℕ) (c c' : Call) :
    (s.setCall t c).setCall t c' = s.setCall t c' := by
  simp only [State.setCall, Function.update_idem]

theorem hold_setHold (s : State V) (m k : ℕ) (new : Hold) :
    (s.setHold m new).hold k = if k = m then new else s.hold k :=
  Function.update_apply ..

theorem inv_copy (h : Inv s) {source dupMsg : ℕ} {stage : Copying}
    (hcall : s.call t = .copy source dupMsg stage) : Inv (copy s t source dupMsg stage) := by
  have hdup : s.hold dupMsg = .dup t := by
    have hfits := h.fits t dupMsg
    rw [hcall] at hfits
    exact hfits rfl
  have hnext : ∀ (f : Fields V) (stage : Copying), Inv (s.setMessage dupMsg f) →
      Inv ((s.setMessage dupMsg f).setCall t (.copy source dupMsg stage)) := by
    intro f stage hset
    refine hset.setQuiet ?_ (fun _ => id) fun _ => id
    rintro k rfl
    exact hdup
  cases stage with
  | map => exact hnext _ _ (h.setContents rfl rfl (.inr rfl) rfl)
  | what => exact hnext _ _ (h.setContents rfl rfl (.inr rfl) rfl)
  | target =>
      have hset := h.setContents (m := dupMsg) (f := { s.messages dupMsg with
        mMsg := (s.messages source).mMsg.or (s.messages dupMsg).mMsg }) rfl rfl (.inr rfl) rfl
      exact hset.setIdle.returned (call_setCall _ t .idle) (.inl hdup)

/-- A `recycle` that has a message for itself goes on. -/
theorem inv_recycling (h : Inv s) {stage stage' : Recycling} {response : Option ℕ}
    (hcall : s.call t = .recycle m stage response) (hposs : Possesses (s.call t) m)
    (hstage : stage' ≠ .checkWaiting ∧ stage' ≠ .checkInUse)
    (hlinked : ∀ cur, stage' = .swap cur → (s.messages m).mNext = cur) :
    Inv (s.setCall t (.recycle m stage' response)) := by
  refine h.setCall (fun k => ?_) ?_ (fun _ hk => hk.elim) ?_ ?_
  · have hfits := h.fits t k
    rw [hcall] at hfits
    exact ⟨fun _ hs => absurd hs hstage.1, fun _ hs => absurd hs hstage.2, hfits.2.2⟩
  · rintro k ⟨rfl, -⟩
    exact .inl hposs
  · rintro k ⟨-, hs | hs⟩
    · exact absurd hs hstage.1
    · exact absurd hs hstage.2
  · rintro k cur r hc
    cases hc
    exact hlinked cur rfl

theorem inv_recycle (h : Inv s) {stage : Recycling} {response : Option ℕ}
    (hcall : s.call t = .recycle m stage response) : Inv (recycle s t m response stage) := by
  have hfits := h.fits t
  rw [hcall] at hfits
  have hclear : ∀ (f : Fields V) (stage' : Recycling), Possesses (s.call t) m →
      stage' ≠ .checkWaiting ∧ stage' ≠ .checkInUse ∧ (∀ cur, stage' ≠ .swap cur) →
      Inv (s.setMessage m f) →
      Inv ((s.setMessage m f).setCall t (.recycle m stage' response)) := by
    intro f stage' hposs hstage hset
    exact inv_recycling hset hcall hposs ⟨hstage.1, hstage.2.1⟩
      fun cur hswap => absurd hswap (hstage.2.2 cur)
  cases stage with
  | clearQueue =>
      exact hclear _ .clearMap (by rw [hcall]; exact ⟨rfl, nofun, nofun⟩)
        ⟨nofun, nofun, fun _ => nofun⟩ (h.setContents rfl rfl (.inl rfl) rfl)
  | clearMap =>
      exact hclear _ .clearWhat (by rw [hcall]; exact ⟨rfl, nofun, nofun⟩)
        ⟨nofun, nofun, fun _ => nofun⟩ (h.setContents rfl rfl (.inr rfl) rfl)
  | clearWhat =>
      exact hclear _ .clearMsg (by rw [hcall]; exact ⟨rfl, nofun, nofun⟩)
        ⟨nofun, nofun, fun _ => nofun⟩ (h.setContents rfl rfl (.inr rfl) rfl)
  | clearMsg =>
      exact hclear _ .get (by rw [hcall]; exact ⟨rfl, nofun, nofun⟩)
        ⟨nofun, nofun, fun _ => nofun⟩ (h.setContents rfl rfl (.inr rfl) rfl)
  | checkWaiting =>
      simp only [recycle]
      split
      · exact inv_recycled h hcall
      · rename_i hwaiting
        have hnobody : s.hold m = .nobody := by
          rcases (hfits m).1 rfl rfl with hnobody | ⟨t', hawaiter⟩
          · exact hnobody
          · exact absurd (h.waiting m ⟨t', .inl hawaiter⟩) hwaiting
        refine h.setCall (fun k => ⟨fun _ => nofun, ?_, (hfits k).2.2⟩)
          (fun _ hk => absurd rfl hk.2.2) (fun _ hk => hk.elim) ?_ fun _ _ _ => nofun
        · rintro rfl -
          exact hnobody
        · rintro k ⟨rfl, -⟩
          left
          rw [hcall]
          exact ⟨rfl, .inl rfl⟩
  | checkInUse =>
      simp only [recycle]
      split
      · rename_i hused
        have hapart := h.apart_of_used hused
        have hnobody := (hfits m).2.1 rfl rfl
        have hlt : m < s.constructed := by
          by_contra hnot
          have hmay := ((h.fresh m (Nat.le_of_not_lt hnot)).2.2 t).1
          rw [hcall] at hmay
          exact hmay ⟨rfl, .inr rfl⟩
        have hset := h.setMessage (m := m) (f := { s.messages m with mInUse := false })
          (.inr (.inr ⟨rfl, hnobody⟩)) (.inl rfl) (h.responses m) (h.waiting m)
        refine hset.setCall (fun k => ⟨fun _ => nofun, fun _ => nofun, (hfits k).2.2⟩) ?_
          (fun _ hk => hk.elim) ?_ fun _ _ _ => nofun
        · rintro k ⟨rfl, -⟩
          have hpool := inPool_setMessage (s := s) (m := k)
            (f := { s.messages k with mInUse := false }) rfl k
          exact .inr ⟨⟨by rw [messages_setMessage], hlt⟩, fun hin => hapart.1 (hpool.mp hin),
            hapart.2⟩
        · rintro k ⟨-, hs | hs⟩ <;> cases hs
      · exact inv_recycled h hcall
  | get =>
      refine inv_recycling h hcall (by rw [hcall]; exact ⟨rfl, nofun, nofun⟩) ⟨nofun, nofun⟩ ?_
      intro cur hs
      cases hs
  | swap cur =>
      have hposs : Possesses (s.call t) m := by
        rw [hcall]
        exact ⟨rfl, nofun, nofun⟩
      simp only [recycle]
      split
      · rename_i hpool
        have hdone := inv_recycled h hcall
        have hparts : (recycled s t response).messages = s.messages ∧
            (recycled s t response).POOL = s.POOL ∧
            (recycled s t response).constructed = s.constructed ∧
            ∀ t', (recycled s t response).call t' = if t' = t then .idle else s.call t' := by
          cases response <;> exact ⟨rfl, rfl, rfl, fun t' => call_setCall_apply s t t' .idle⟩
        obtain ⟨hmessages, hPOOL, hconstructed, hcalls⟩ := hparts
        have hpush : Inv { recycled s t response with POOL := some m } := by
          refine hdone.pushed ?_ ?_ ⟨fun hin => ?_, fun t' => ?_⟩
          · rw [hmessages, hPOOL, hpool]
            exact h.linked t m cur response hcall
          · rw [hmessages, hconstructed]
            exact h.possessed t m hposs
          · rw [InPool, hmessages, hPOOL] at hin
            exact (h.of_inPool hin).2 t hposs
          · rw [hcalls]
            split
            · exact id
            · rename_i hne
              exact fun hother => hne (h.alone t' t m hother hposs)
        cases response <;> exact hpush
      · exact inv_recycling h hcall hposs ⟨nofun, nofun⟩ fun _ => nofun
  | link cur =>
      have hposs : Possesses (s.call t) m := by
        rw [hcall]
        exact ⟨rfl, nofun, nofun⟩
      have hset : Inv (s.setMessage m { s.messages m with mNext := cur }) := by
        refine h.setMessage (.inl rfl) (.inr ⟨fun hpool => (h.of_inPool hpool).2 t hposs, ?_⟩)
          (h.responses m) (h.waiting m)
        intro t' next response' hswap
        have ht : t' = t := h.alone t' t m (by rw [hswap]; exact ⟨rfl, nofun, nofun⟩) hposs
        rw [ht, hcall] at hswap
        cases hswap
      refine inv_recycling hset hcall hposs ⟨nofun, nofun⟩ ?_
      rintro _ ⟨⟩
      rw [messages_setMessage]

theorem inv_await (looper : ℕ → ℕ) (h : Inv s) {stage : Awaiting}
    (hcall : s.call t = .await m stage) : Inv (await looper s t m stage) := by
  have hfits := h.fits t
  rw [hcall] at hfits
  cases stage with
  | send =>
      have hsender : s.hold m = .sender t := hfits m rfl
      have hset : Inv (s.setMessage m (s.messages m).getMessage) :=
        h.setContents rfl rfl (.inr rfl) rfl
      have hback : Inv (((s.setMessage m (s.messages m).getMessage).setCall t .idle).setHold m
          .owner) :=
        hset.setIdle.returned (call_setCall _ t .idle) (.inr (.inl hsender))
      simp only [await]
      split
      · exact hback
      · rename_i handler _
        split
        · exact hback
        · have hgiven : Inv ((((s.setMessage m (s.messages m).getMessage).setCall t .idle).setHold m
              (.awaiter t)).setCall t (.await m .take)) := by
            have hmarked := h.waiting m ⟨t, .inr hsender⟩
            have hidle : ((s.setMessage m (s.messages m).getMessage).setCall t .idle).hold m =
              .sender t := hsender
            refine (hset.setIdle.handOver ?_ (fun t' => ?_) (Inv.not_response hset.setIdle ?_)
              fun _ => ?_).setQuiet ?_ (fun _ => id) fun _ => id
            · rw [hidle]
              trivial
            · by_cases hne : t' = t
              · right
                intro new
                rw [hne, call_setCall]
                trivial
              · left
                rw [hidle]
                exact foreign_sender hne
            · simp [hidle]
            · change ((s.setMessage m _).messages m).mWaitingForResponse = true
              rw [messages_setMessage]
              exact hmarked
            · rintro k rfl
              rw [hold_setHold, if_pos rfl]
          have hsame : (((s.setMessage m (s.messages m).getMessage).setCall t .idle).setHold m
              (.awaiter t)).setCall t (.await m .take) =
              ((s.setMessage m (s.messages m).getMessage).setHold m (.awaiter t)).setCall t
                (.await m .take) :=
            setCall_setCall ((s.setMessage m (s.messages m).getMessage).setHold m (.awaiter t)) t
              .idle _
          rw [hsame] at hgiven
          have hawaiter : (((s.setMessage m (s.messages m).getMessage).setHold m
              (.awaiter t)).setCall t (.await m .take)).hold m = .awaiter t := by
            exact (hold_setHold _ m m _).trans (if_pos rfl)
          refine hgiven.pushMail (d := ⟨handler, m, true⟩) ?_ ?_
          · exact .inr ⟨t, hawaiter⟩
          · simp [hawaiter]
  | take =>
      have hawaiter : s.hold m = .awaiter t := hfits m rfl
      simp only [await]
      split
      · exact h
      · rename_i response hqueue
        have hresponse := h.responses m response hqueue
        have hne : m ≠ response := by
          rintro rfl
          rw [hawaiter] at hresponse
          cases hresponse
        have hset : Inv (s.setMessage m { s.messages m with mResponseQueue := none }) :=
          h.setContents rfl rfl (.inl rfl) rfl
        have hgiven : Inv ((s.setMessage m { s.messages m with mResponseQueue := none }).setHold
            response (.answer t)) := by
          have hkept : (s.setMessage m { s.messages m with mResponseQueue := none }).hold response =
              .response m := hresponse
          refine hset.handOver ?_ (fun t' => .inl ?_) (fun k hk => ?_)
            fun hmarks => hmarks.waits.elim
          · rw [hkept]
            trivial
          · rw [hkept]
            exact foreign_response t' m
          · have hother := hresponse.symm.trans (hset.responses k response hk)
            cases hother
            rw [messages_setMessage] at hk
            cases hk
        refine hgiven.setQuiet (fun k => ⟨?_, ?_⟩) (fun _ => id) fun _ => id
        · rintro rfl
          rw [hold_setHold, if_neg hne]
          exact hawaiter
        · rintro rfl
          rw [hold_setHold, if_pos rfl]
  | unmark response =>
      have hawaiter : s.hold m = .awaiter t := (hfits m).1 rfl
      have hsome : s.hold m ≠ .nobody := by simp [hawaiter]
      have hapart := h.apart hsome
      have hstart : Inv (s.setCall t (.recycle m .checkWaiting (some response))) := by
        refine h.startRecycle (.inr ⟨t, hawaiter⟩) ?_ (h.constructed_of_hold hsome)
          fun t' htakes => hapart.2 t' (possesses_of_takes htakes)
        rintro r ⟨⟩
        exact (hfits response).2 rfl
      have hfree : Inv ((s.setCall t (.recycle m .checkWaiting (some response))).setHold m
          .nobody) := by
        refine hstart.setHold (fun t' => ?_) (fun _ _ _ => sent_nobody _)
          (fun _ _ _ => sent_nobody _) (h.not_response (by simp [hawaiter]))
          (fun hmarks => hmarks.waits.elim)
          fun hne => absurd rfl hne
        have hfits' := hstart.fits t' m
        rw [show (s.setCall t _).hold m = .awaiter t from hawaiter] at hfits'
        refine hfits'.of_awaiter ?_
        by_cases hne : t' = t
        · right
          rw [hne]
          exact ⟨_, _, call_setCall ..⟩
        · exact .inl hne
      refine hfree.setMessage (.inl rfl) (.inl rfl) (fun r hr => ?_) fun hmarks => ?_
      · have hr' := h.responses m r hr
        rw [hold_setHold, if_neg]
        · exact hr'
        · rintro rfl
          cases hawaiter.symm.trans hr'
      · rw [hold_setHold, if_pos rfl] at hmarks
        exact hmarks.waits.elim

/-! ## All steps -/

theorem inv_next (looper : ℕ → ℕ) (h : Inv s) {i : Input V} (hpops : PopsFresh s i) :
    Inv (next looper s i) := by
  cases i with
  | obtain t =>
      simp only [next]
      split
      · exact h.setQuiet (fun _ => trivial) (fun _ => id) fun _ => id
      · exact h
  | dup t source =>
      simp only [next]
      split
      · exact h.setQuiet (fun _ => trivial) (fun _ => id) fun _ => id
      · exact h
  | recycle t m =>
      simp only [next]
      split
      · rename_i hcond
        have hsome : s.hold m ≠ .nobody := by simp [hcond.2]
        have hapart := h.apart hsome
        have hgiven := h.giveUp hcond.2 .nobody
          fun hmarks => hmarks.waits.elim
        refine hgiven.startRecycle (.inl ?_) (by simp) (h.constructed_of_hold hsome)
          fun t' htakes => hapart.2 t' (possesses_of_takes htakes)
        rw [hold_setHold, if_pos rfl]
      · exact h
  | set m key value =>
      simp only [next]
      split
      · exact h.setContents rfl rfl (.inr rfl) rfl
      · exact h
  | setWhat m what =>
      simp only [next]
      split
      · exact h.setContents rfl rfl (.inr rfl) rfl
      · exact h
  | setTarget m handler =>
      simp only [next]
      split
      · exact h.setContents rfl rfl (.inr rfl) rfl
      · exact h
  | post m =>
      simp only [next]
      split
      · rename_i howner
        have hset : Inv (s.setMessage m (s.messages m).getMessage) :=
          h.setContents rfl rfl (.inr rfl) rfl
        split
        · exact hset
        · rename_i handler _
          have hgiven := hset.giveUp (m := m) howner .receiver
            fun hmarks => hmarks.waits.elim
          have hreceiver : ((s.setMessage m (s.messages m).getMessage).setHold m .receiver).hold m =
              .receiver := (hold_setHold _ m m _).trans (if_pos rfl)
          refine hgiven.pushMail (d := ⟨handler, m, false⟩) ?_ ?_
          · exact .inr hreceiver
          · simp [hreceiver]
      · exact h
  | postAndAwaitResponse t m =>
      simp only [next]
      split
      · rename_i hcond
        have hset : Inv (s.setMessage m { s.messages m with mWaitingForResponse := true }) :=
          h.setMessage (.inl rfl) (.inl rfl) (h.responses m) fun _ => rfl
        have hgiven := hset.giveUp (m := m) hcond.2.1 (.sender t)
          fun _ => by rw [messages_setMessage]
        refine hgiven.setQuiet ?_ (fun _ => id) fun _ => id
        rintro k rfl
        rw [hold_setHold, if_pos rfl]
      · exact h
  | postResponse m response =>
      simp only [next]
      split
      · rename_i hcond
        have hgiven := h.giveUp hcond.1 (.response m)
          fun hmarks => hmarks.waits.elim
        refine hgiven.setMessage (.inl rfl) (.inl rfl) ?_ (hgiven.waiting m)
        rintro r ⟨⟩
        rw [hold_setHold, if_pos rfl]
      · exact h
  | deliver k =>
      simp only [next]
      split
      · exact h
      · rename_i d hd
        split
        · exact h.deliver hd
        · exact h
  | finish t =>
      simp only [next]
      split
      · rename_i m awaited hcall hdispatching
        have hsent := h.dispatched t m awaited hdispatching
        have htakes : ∀ t', ¬ Takes (s.call t') m := fun t' htakes =>
          ((h.taken t' m htakes).2 t).2 awaited hdispatching
        have hlt : m < s.constructed := by
          by_contra hnot
          exact ((h.fresh m (Nat.le_of_not_lt hnot)).2.2 t).2 awaited hdispatching
        cases awaited with
        | true => exact (h.endDispatch).startRecycle hsent (by simp) hlt htakes
        | false =>
            refine (h.endDispatch.release hsent).startRecycle (.inl ?_) (by simp) hlt htakes
            rw [hold_setHold, if_pos rfl]
      · exact h
  | interrupt t =>
      simp only [next]
      split
      · exact h.setIdle
      · exact h
  | advance t =>
      simp only [next, advance]
      split
      · exact h
      · rename_i stage source hcall
        exact inv_obtain h hcall hpops
      · rename_i source dupMsg stage hcall
        exact inv_copy h hcall
      · rename_i m stage response hcall
        exact inv_recycle h hcall
      · rename_i m stage hcall
        exact inv_await looper h hcall

end MirrorCast.Pool
