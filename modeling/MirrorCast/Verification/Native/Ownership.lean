import MirrorCast.Program.Native.Accepting

/-! # Which receive thread uses which socket -/

namespace MirrorCast.Native.Accepting

open Machine

/-- The action concerns the connection and the slot that the thread was created for. -/
def Owned (e : Event) : Prop :=
  match e.action with
  | .reads conn | .closes conn => conn = e.conn
  | .clears slot | .fills slot => e.slot = some slot

namespace Receive

/-- The number that is read from. -/
def fd : Receive → Option ℕ
  | clearing _ fd | reading _ fd _ | filling _ fd _ => fd
  | _ => none

/-- The thread does not look at a number any more. -/
def done : Receive → Bool
  | closing .clearing _ | ended => true
  | _ => false

/-- The slot found in `*argc`. -/
def slot : Receive → Option Slot
  | opening slot | clearing slot _ | reading slot _ _ | filling slot _ _ | closing _ slot =>
      some slot
  | starting | ended => none

end Receive

namespace Loop

/-- The slot whose number is written next. -/
def assigned : Loop → Option Slot
  | assigning slot _ _ => some slot
  | _ => none

end Loop

/-! ## The condition -/

/-- The thread may still use the number: its own global has it, or it reads from it. -/
def Holds (s : State) (t : Thread) (fd : ℕ) : Prop :=
  t.receive.done = false ∧ (t.slot.bind s.client_sock_fd = some fd ∨ t.receive.fd = some fd)

/-- The hand-over works: a number that `accept` returns is not held by a thread, the number of a
slot is replaced when its threads are done, and a thread does not find another thread's slot in
`*argc`. -/
def HandedOver (s : State) : Input → Prop
  | .server_accept e =>
      (s.loop = .accepting → ∀ fd ∈ e.fd, ∀ t ∈ s.threads, ¬ Holds s t fd) ∧
        ∀ slot ∈ s.loop.assigned, ∀ t ∈ s.threads, t.slot = some slot → t.receive.done = true
  | .receive_data k _ =>
      ∀ t ∈ s.threads[k]?, t.receive = .starting → s.which_client = none ∨ s.which_client = t.slot

instance (s : State) (t : Thread) (fd : ℕ) : Decidable (Holds s t fd) :=
  inferInstanceAs (Decidable (_ ∧ (_ ∨ _)))

instance (s : State) : ∀ i, Decidable (HandedOver s i)
  | .server_accept e =>
      inferInstanceAs (Decidable ((_ → ∀ fd ∈ e.fd, ∀ t ∈ s.threads, ¬ Holds s t fd) ∧
        ∀ slot ∈ s.loop.assigned, ∀ t ∈ s.threads, _ → _))
  | .receive_data k _ => inferInstanceAs (Decidable (∀ t ∈ s.threads[k]?, _ → _ ∨ _))

/-! ## Numbers that lead to one connection -/

/-- The number leads to the connection or to none. -/
def Leads (s : State) (fd : Option ℕ) (conn : ℕ) : Prop :=
  ∀ conn', fd.bind s.sockets = some conn' → conn' = conn

/-- Sockets have been closed and globals set to `-1`, no more. -/
structure Shrinks (s s' : State) : Prop where
  sockets : ∀ fd conn, s'.sockets fd = some conn → s.sockets fd = some conn
  client_sock_fd : ∀ slot fd, s'.client_sock_fd slot = some fd → s.client_sock_fd slot = some fd
  which_client : s'.which_client = s.which_client

theorem Shrinks.refl (s : State) : Shrinks s s := ⟨fun _ _ h => h, fun _ _ h => h, rfl⟩

theorem leads_none (s : State) (conn : ℕ) : Leads s none conn := nofun

theorem Shrinks.leads {s s' : State} (h : Shrinks s s') {fd : Option ℕ} {conn : ℕ}
    (hleads : Leads s fd conn) : Leads s' fd conn := by
  intro conn' hconn'
  cases fd with
  | none => cases hconn'
  | some fd => exact hleads conn' (h.sockets fd conn' hconn')

theorem Shrinks.leads_global {s s' : State} (h : Shrinks s s') {slot : Option Slot} {conn : ℕ}
    (hleads : Leads s (slot.bind s.client_sock_fd) conn) :
    Leads s' (slot.bind s'.client_sock_fd) conn := by
  cases slot with
  | none => exact leads_none s' conn
  | some slot =>
      cases hfd : s'.client_sock_fd slot with
      | none =>
          rw [Option.bind_some, hfd]
          exact leads_none s' conn
      | some fd =>
          rw [Option.bind_some, hfd, ← h.client_sock_fd slot fd hfd]
          exact h.leads hleads

theorem close_shrinks (s : State) (fd : Option ℕ) : Shrinks s (s.close fd) := by
  cases fd with
  | none => exact Shrinks.refl s
  | some closed =>
      refine ⟨fun fd conn hconn => ?_, fun _ _ h => h, rfl⟩
      by_cases heq : fd = closed
      · subst heq
        exact absurd ((Function.update_self ..).symm.trans hconn) nofun
      · exact (Function.update_of_ne heq _ _).symm.trans hconn

theorem assign_none_shrinks (s : State) (slot : Slot) : Shrinks s (s.assign slot none) := by
  refine ⟨fun _ _ h => h, fun slot' fd hfd => ?_, rfl⟩
  by_cases heq : slot' = slot
  · subst heq
    exact absurd ((Function.update_self ..).symm.trans hfd) nofun
  · exact (Function.update_of_ne heq _ _).symm.trans hfd

/-- `close_client_sock` only closes and clears. -/
theorem closeClientSock_shrinks (s : State) (slot : Slot) (close : Close) :
    Shrinks s (closeClientSock s slot close).1 := by
  cases close with
  | testing => exact Shrinks.refl s
  | closing => exact close_shrinks s _
  | clearing => exact assign_none_shrinks s slot

theorem closeClientSock_threads (s : State) (slot : Slot) (close : Close) :
    (closeClientSock s slot close).1.threads = s.threads ∧
      (closeClientSock s slot close).1.loop = s.loop := by
  cases close with
  | testing => exact ⟨rfl, rfl⟩
  | closing =>
      rw [closeClientSock]
      cases s.client_sock_fd slot <;> exact ⟨rfl, rfl⟩
  | clearing => exact ⟨rfl, rfl⟩

/-! ## The invariant -/

/-- What a thread has found belongs to it, and so does what it may still find. -/
structure Owns (s : State) (t : Thread) : Prop where
  slot : ∀ slot, t.receive.slot = some slot → t.slot = some slot
  global : t.receive.done = false → Leads s (t.slot.bind s.client_sock_fd) t.conn
  reading : Leads s t.receive.fd t.conn

/-- The number that the accept loop works with is that of its connection. -/
def LoopOwns (s : State) : Loop → Prop
  | .resetting fd conn | .sleeping _ fd conn | .numbering _ fd conn
  | .replacing _ _ fd conn => Leads s (some fd) conn
  | .testing _ _ fd conn => Leads s (some fd) conn ∧ s.which_client = none
  | .assigning slot fd conn => Leads s (some fd) conn ∧ s.which_client = some slot
  | .creating conn => Leads s (s.which_client.bind s.client_sock_fd) conn
  | .accepting | .closing _ _ | .ended => True

structure Inv (s : State) : Prop where
  threads : ∀ t ∈ s.threads, Owns s t
  loop : LoopOwns s s.loop

theorem Inv.loop_eq {s : State} (h : Inv s) {loop : Loop} (hloop : s.loop = loop) :
    LoopOwns s loop := hloop ▸ h.loop

theorem Owns.shrink {s s' : State} {t : Thread} (h : Owns s t) (hs : Shrinks s s') : Owns s' t :=
  ⟨h.slot, fun hdone => hs.leads_global (h.global hdone), hs.leads h.reading⟩

theorem Owns.same {s s' : State} {t : Thread} (h : Owns s t) (hsockets : s'.sockets = s.sockets)
    (hglobals : s'.client_sock_fd = s.client_sock_fd) : Owns s' t := by
  refine ⟨h.slot, ?_, ?_⟩
  · rw [hglobals]
    intro hdone conn hconn
    exact h.global hdone conn (hsockets ▸ hconn)
  · intro conn hconn
    exact h.reading conn (hsockets ▸ hconn)

/-- The thread goes on with the slot it has found. -/
theorem Owns.go {s : State} {t : Thread} (h : Owns s t) (receive : Receive)
    (hdone : t.receive.done = false) (hslot : receive.slot = t.receive.slot)
    (hfd : receive.fd = t.receive.fd ∨ receive.fd = none) : Owns s { t with receive } := by
  refine ⟨fun slot heq => h.slot slot (hslot ▸ heq), fun _ => h.global hdone, ?_⟩
  rcases hfd with hfd | hfd
  · have hreading := h.reading
    rwa [← hfd] at hreading
  · rw [hfd]
    exact leads_none s t.conn

theorem LoopOwns.shrink {s s' : State} (hs : Shrinks s s') {loop : Loop} (h : LoopOwns s loop) :
    LoopOwns s' loop := by
  cases loop with
  | resetting fd conn => exact hs.leads h
  | sleeping slot fd conn => exact hs.leads h
  | numbering slot fd conn => exact hs.leads h
  | replacing close slot fd conn => exact hs.leads h
  | testing slot onlyOne fd conn => exact ⟨hs.leads h.1, hs.which_client.trans h.2⟩
  | assigning slot fd conn => exact ⟨hs.leads h.1, hs.which_client.trans h.2⟩
  | creating conn =>
      rw [LoopOwns, hs.which_client]
      exact hs.leads_global h
  | accepting => trivial
  | closing close slot => trivial
  | ended => trivial

theorem Inv.shrink {s s' : State} (h : Inv s) (hs : Shrinks s s')
    (hthreads : s'.threads = s.threads) (hloop : LoopOwns s' s'.loop) : Inv s' :=
  ⟨fun t ht => (h.threads t (hthreads ▸ ht)).shrink hs, hloop⟩

theorem Inv.closeClientSock {s : State} (h : Inv s) (slot : Slot) (close : Close) :
    Inv (closeClientSock s slot close).1 := by
  have hs := closeClientSock_shrinks s slot close
  obtain ⟨hthreads, hloop⟩ := closeClientSock_threads s slot close
  refine h.shrink hs hthreads ?_
  rw [hloop]
  exact h.loop.shrink hs

/-- The accept loop moves on. -/
theorem Inv.move {s : State} (h : Inv s) {loop : Loop} (hloop : LoopOwns s loop) :
    Inv { s with loop } :=
  have hs : Shrinks s { s with loop } := ⟨fun _ _ h => h, fun _ _ h => h, rfl⟩
  h.shrink hs rfl (hloop.shrink hs)

/-! ## The accept loop -/

/-- A number that no thread holds goes to a new connection. -/
theorem leads_update {s s' : State} {fd : ℕ} {conn : ℕ}
    (hsockets : s'.sockets = Function.update s.sockets fd (some conn)) {fd' : Option ℕ}
    {conn' : ℕ} (hleads : Leads s fd' conn') (hne : fd' ≠ some fd) : Leads s' fd' conn' := by
  intro c hc
  cases fd' with
  | none => cases hc
  | some fd' =>
      rw [Option.bind_some, hsockets,
        Function.update_of_ne (fun heq => hne (congrArg some heq))] at hc
      exact hleads c hc

theorem Owns.accept {s s' : State} {t : Thread} {fd conn : ℕ} (h : Owns s t)
    (hsockets : s'.sockets = Function.update s.sockets fd (some conn))
    (hglobals : s'.client_sock_fd = s.client_sock_fd) (hholds : ¬ Holds s t fd) : Owns s' t := by
  refine ⟨h.slot, fun hdone => ?_, ?_⟩
  · rw [hglobals]
    exact leads_update hsockets (h.global hdone) fun heq => hholds ⟨hdone, .inl heq⟩
  · refine leads_update hsockets h.reading fun heq => ?_
    have hdone : t.receive.done = false := by
      cases hreceive : t.receive <;> simp_all [Receive.fd, Receive.done]
    exact hholds ⟨hdone, .inr heq⟩

theorem accepting_keeps {s : State} (h : Inv s) {e : Environment} (hloop : s.loop = .accepting)
    (hi : ∀ fd ∈ e.fd, ∀ t ∈ s.threads, ¬ Holds s t fd) : Inv (server_accept s e) := by
  unfold server_accept
  rw [hloop]
  dsimp only
  cases hfd : e.fd with
  | none =>
      refine h.move ?_
      split <;> trivial
  | some fd =>
      dsimp only
      split
      · have hself : Function.update s.sockets fd (some s.accepted) fd = some s.accepted :=
          Function.update_self ..
        refine ⟨fun t ht => (h.threads t ht).accept rfl rfl (hi fd hfd t ht), ?_⟩
        dsimp only
        split
        · exact fun conn' hconn' => (Option.some.inj (hself.symm.trans hconn')).symm
        · trivial
      · exact h

/-- The number of a slot is replaced when its threads are done. -/
theorem assigning_keeps {s : State} (h : Inv s) {slot : Slot} {fd conn : ℕ}
    (hloop : s.loop = .assigning slot fd conn)
    (hi : ∀ t ∈ s.threads, t.slot = some slot → t.receive.done = true) :
    Inv { s.assign slot (some fd) with loop := .creating conn } := by
  obtain ⟨hleads, hwhich⟩ := h.loop_eq hloop
  refine ⟨fun t ht => ?_, ?_⟩
  · have howns := h.threads t ht
    refine ⟨howns.slot, fun hdone => ?_, howns.reading⟩
    have hother : t.slot ≠ some slot := fun heq =>
      absurd (hdone.symm.trans (hi t ht heq)) (by decide)
    cases hslot : t.slot with
    | none => exact leads_none _ _
    | some slot' =>
        have hglobal := howns.global hdone
        rw [hslot] at hglobal hother
        have hsame : (s.assign slot (some fd)).client_sock_fd slot' = s.client_sock_fd slot' :=
          Function.update_of_ne (fun heq => hother (congrArg some heq)) _ _
        dsimp only [Option.bind_some] at hglobal ⊢
        rw [hsame]
        exact hglobal
  · have hself : (s.assign slot (some fd)).client_sock_fd slot = some fd :=
      Function.update_self ..
    have hglobal : (s.assign slot (some fd)).which_client = some slot := hwhich
    rw [LoopOwns]
    dsimp only
    rw [hglobal, Option.bind_some, hself]
    exact hleads

theorem creating_keeps {s : State} (h : Inv s) {conn : ℕ} (hloop : s.loop = .creating conn)
    {loop : Loop} (hnext : LoopOwns s loop) :
    Inv { s with threads := s.threads ++ [⟨conn, s.which_client, .starting⟩], loop } := by
  have howns := h.loop_eq hloop
  have hs : Shrinks s { s with
      threads := s.threads ++ [⟨conn, s.which_client, .starting⟩]
      loop } := ⟨fun _ _ h => h, fun _ _ h => h, rfl⟩
  refine ⟨fun t ht => ?_, hnext.shrink hs⟩
  rcases List.mem_append.mp ht with ht | ht
  · exact (h.threads t ht).shrink hs
  · rw [List.mem_singleton.mp ht]
    exact ⟨nofun, fun _ => howns, leads_none _ conn⟩

theorem server_accept_keeps {s : State} (h : Inv s) {e : Environment}
    (hi : HandedOver s (.server_accept e)) : Inv (server_accept s e) := by
  obtain ⟨haccept, hassign⟩ := hi
  cases hloop : s.loop with
  | accepting => exact accepting_keeps h hloop (haccept hloop)
  | resetting fd conn =>
      have howns := h.loop_eq hloop
      rw [server_accept, hloop]
      exact ⟨fun t ht => (h.threads t ht).same rfl rfl, howns, rfl⟩
  | testing slot onlyOne fd conn =>
      have howns := h.loop_eq hloop
      rw [server_accept, hloop]
      refine h.move ?_
      split
      · exact howns.1
      · split
        · exact howns.1
        · cases slot with
          | one => exact howns
          | two =>
              dsimp only
              split
              · exact howns.1
              · split
                · exact howns.1
                · rw [LoopOwns, howns.2]
                  exact leads_none s conn
  | replacing close slot fd conn =>
      have howns := h.loop_eq hloop
      have hleads := (closeClientSock_shrinks s slot close).leads howns
      rw [server_accept, hloop]
      refine (h.closeClientSock slot close).move ?_
      split
      · exact hleads
      · exact hleads
  | sleeping slot fd conn =>
      have howns := h.loop_eq hloop
      rw [server_accept, hloop]
      exact h.move howns
  | numbering slot fd conn =>
      have howns := h.loop_eq hloop
      rw [server_accept, hloop]
      exact ⟨fun t ht => (h.threads t ht).same rfl rfl, howns, rfl⟩
  | assigning slot fd conn =>
      rw [server_accept, hloop]
      exact assigning_keeps h hloop (hassign slot (by rw [hloop]; rfl))
  | creating conn =>
      rw [server_accept, hloop]
      exact creating_keeps h hloop (by split <;> trivial)
  | closing close slot =>
      rw [server_accept, hloop]
      refine (h.closeClientSock slot close).move ?_
      split <;> trivial
  | ended =>
      rw [server_accept, hloop]
      exact h

/-! ## A receive thread -/

/-- After a `read` the thread goes on with its slot, and with its number or with none. -/
theorem afterRead_goes (slot : Slot) (fd : Option ℕ) (stage : Stage) (read : Read) :
    (afterRead slot fd stage read).slot = some slot ∧
      ((afterRead slot fd stage read).fd = fd ∨ (afterRead slot fd stage read).fd = none) := by
  cases read with
  | more => cases stage <;> exact ⟨rfl, .inl rfl⟩
  | whole positive => cases stage <;> cases positive <;> exact ⟨rfl, .inl rfl⟩
  | fails => cases stage <;> first | exact ⟨rfl, .inl rfl⟩ | exact ⟨rfl, .inr rfl⟩

/-- The step of a thread keeps what it owns and does nothing to others. -/
theorem receive_data_owns {s : State} {t : Thread} (h : Owns s t) (read : Read)
    (hstart : t.receive = .starting → s.which_client = none ∨ s.which_client = t.slot) :
    Shrinks s (receive_data s t read).1 ∧
      Owns (receive_data s t read).1 { t with receive := (receive_data s t read).2.1 } ∧
      ∀ action ∈ (receive_data s t read).2.2, Owned ⟨t.conn, t.slot, action⟩ := by
  have hended : ∀ s', Owns s' { t with receive := .ended } := fun s' =>
    ⟨nofun, nofun, leads_none s' t.conn⟩
  unfold receive_data
  cases hreceive : t.receive with
  | starting =>
      dsimp only
      cases hwhich : s.which_client with
      | none => exact ⟨Shrinks.refl s, hended s, nofun⟩
      | some slot =>
          have hglobal := h.global (by rw [hreceive]; rfl)
          refine ⟨Shrinks.refl s, ⟨?_, fun _ => hglobal, leads_none s t.conn⟩, nofun⟩
          rintro _ ⟨⟩
          exact ((hstart hreceive).resolve_left (by rw [hwhich]; nofun)).symm.trans hwhich
  | opening slot =>
      have hglobal := h.global (by rw [hreceive]; rfl)
      have hslot := h.slot slot (by rw [hreceive]; rfl)
      refine ⟨Shrinks.refl s, ⟨?_, fun _ => hglobal, ?_⟩, nofun⟩
      · rintro _ ⟨⟩
        exact hslot
      · rw [hslot] at hglobal
        exact hglobal
  | clearing slot fd =>
      have hslot := h.slot slot (by rw [hreceive]; rfl)
      refine ⟨Shrinks.refl s, h.go (.reading slot fd .infoLength) (by rw [hreceive]; rfl)
        (by rw [hreceive]; rfl) (.inl (by rw [hreceive]; rfl)), ?_⟩
      intro action haction
      rw [List.mem_singleton.mp haction]
      exact hslot
  | reading slot fd stage =>
      have hreading := h.reading
      rw [hreceive] at hreading
      have hgo : ∀ read, Owns s { t with receive := afterRead slot fd stage read } := by
        intro read
        obtain ⟨hslot, hfd⟩ := afterRead_goes slot fd stage read
        refine h.go (afterRead slot fd stage read) (by rw [hreceive]; rfl) ?_ ?_
        · rw [hslot, hreceive]
          rfl
        · rw [hreceive]
          exact hfd
      dsimp only
      cases hsocket : fd.bind s.sockets with
      | none => exact ⟨Shrinks.refl s, hgo .fails, nofun⟩
      | some conn =>
          refine ⟨Shrinks.refl s, hgo read, ?_⟩
          intro action haction
          rw [List.mem_singleton.mp haction]
          exact hreading conn hsocket
  | filling slot fd stage =>
      have hslot := h.slot slot (by rw [hreceive]; rfl)
      refine ⟨Shrinks.refl s, h.go (.reading slot fd stage) (by rw [hreceive]; rfl)
        (by rw [hreceive]; rfl) (.inl (by rw [hreceive]; rfl)), ?_⟩
      intro action haction
      rw [List.mem_singleton.mp haction]
      exact hslot
  | closing close slot =>
      have hslot := h.slot slot (by rw [hreceive]; rfl)
      refine ⟨closeClientSock_shrinks s slot close, ?_, ?_⟩
      · cases close with
        | testing =>
            dsimp only [closeClientSock]
            cases hfd : s.client_sock_fd slot with
            | none => exact hended s
            | some fd =>
                exact h.go (.closing .closing slot) (by rw [hreceive]; rfl) (by rw [hreceive]; rfl)
                  (.inr rfl)
        | closing =>
            refine ⟨?_, nofun, leads_none _ t.conn⟩
            rintro _ ⟨⟩
            exact hslot
        | clearing => exact hended _
      · intro action haction
        obtain ⟨conn, hconn, rfl⟩ := List.mem_map.mp haction
        rw [Option.mem_toList] at hconn
        cases close with
        | closing =>
            have hglobal := h.global (by rw [hreceive]; rfl)
            rw [hslot] at hglobal
            exact hglobal conn hconn
        | testing => cases hconn
        | clearing => cases hconn
  | ended => exact ⟨Shrinks.refl s, hended s, nofun⟩

theorem receive_data_frame (s : State) (t : Thread) (read : Read) :
    (receive_data s t read).1.threads = s.threads ∧
      (receive_data s t read).1.loop = s.loop := by
  unfold receive_data
  cases t.receive with
  | starting =>
      dsimp only
      split <;> exact ⟨rfl, rfl⟩
  | reading slot fd stage =>
      dsimp only
      split <;> exact ⟨rfl, rfl⟩
  | closing close slot => exact closeClientSock_threads s slot close
  | opening slot => exact ⟨rfl, rfl⟩
  | clearing slot fd => exact ⟨rfl, rfl⟩
  | filling slot fd stage => exact ⟨rfl, rfl⟩
  | ended => exact ⟨rfl, rfl⟩

theorem step_keeps {s s' : State} {i : Input} {events : List Event} (h : Inv s)
    (hi : HandedOver s i) (hstep : step s i = .ok (s', events)) :
    Inv s' ∧ ∀ e ∈ events, Owned e := by
  cases i with
  | server_accept e =>
      cases hstep
      exact ⟨server_accept_keeps h hi, nofun⟩
  | receive_data k read =>
      unfold step at hstep
      dsimp only at hstep
      cases hthread : s.threads[k]? with
      | none =>
          rw [hthread] at hstep
          cases hstep
          exact ⟨h, nofun⟩
      | some t =>
          rw [hthread] at hstep
          cases hstep
          obtain ⟨hs, howns, hactions⟩ :=
            receive_data_owns (h.threads t (List.mem_of_getElem? hthread)) read
              (hi t hthread)
          obtain ⟨hthreads, hloop⟩ := receive_data_frame s t read
          refine ⟨⟨fun t' ht' => ?_, ?_⟩, ?_⟩
          · rw [hthreads] at ht'
            rcases List.mem_or_eq_of_mem_set ht' with ht' | rfl
            · have hkept := (h.threads t' ht').shrink hs
              exact hkept.same rfl rfl
            · exact howns.same rfl rfl
          · have hkept := h.loop.shrink hs
            rw [← hloop] at hkept
            exact hkept.shrink ⟨fun _ _ h => h, fun _ _ h => h, rfl⟩
          · intro e he
            obtain ⟨action, haction, rfl⟩ := List.mem_map.mp he
            exact hactions action haction

/-! ## Runs -/

/-- Where the hand-over works, every receive thread reads from, clears, fills and closes only
what it was created for. -/
theorem receive_threads_own (is : List Input)
    (hmeets : Meets step (fun _ s i => HandedOver s i) [] .initial is) :
    ∀ e ∈ outputs step .initial is, Owned e := by
  have hinv : Inv .initial := ⟨nofun, trivial⟩
  refine forall_mem_outputs (fun _ => Inv) Owned ?_ hinv hmeets
  intro past s i s' events h hi hstep
  exact step_keeps h hi hstep

/-- Steps of the accept loop of a phone, for the connection with the given number. -/
def acceptSteps (n fd : ℕ) : List Input :=
  List.replicate n (.server_accept ⟨some fd, true, 1, 1, 1⟩)

def receiveSteps (n thread : ℕ) (read : Read) : List Input :=
  List.replicate n (.receive_data thread read)

/-- A client is replaced, and its thread ends while the accept loop sleeps: it fails to read the
client info, both parameter sets and a frame. -/
def replaced : List Input :=
  acceptSteps 6 7 ++ receiveSteps 4 0 .more ++ acceptSteps 6 8 ++ receiveSteps 5 0 .fails ++
    acceptSteps 4 8 ++ receiveSteps 4 1 .more

theorem receive_threads_own_replaced : Owned ⟨1, some .one, .reads 1⟩ :=
  receive_threads_own replaced (by decide +kernel) ⟨1, some .one, .reads 1⟩ (by decide +kernel)

example : outputs step .initial replaced =
    [⟨0, some .one, .clears .one⟩, ⟨0, some .one, .reads 0⟩, ⟨1, some .one, .clears .one⟩,
      ⟨1, some .one, .reads 1⟩] := by decide +kernel

/-- The thread of the replaced client notices only after the accept loop has gone on. -/
def replacedEarly : List Input :=
  acceptSteps 6 7 ++ receiveSteps 4 0 .more ++ acceptSteps 10 8 ++ receiveSteps 6 0 .fails

/-- It closes the socket of the client that has replaced its own. -/
theorem replaced_thread_closes_other :
    ¬ ∀ is : List Input, ∀ e ∈ outputs step .initial is, Owned e := by
  intro h
  have hevents : outputs step .initial replacedEarly =
      [⟨0, some .one, .clears .one⟩, ⟨0, some .one, .reads 0⟩,
        ⟨0, some .one, .closes 1⟩] := by decide +kernel
  have howned := h replacedEarly ⟨0, some .one, .closes 1⟩ (by rw [hevents]; simp)
  exact Nat.one_ne_zero howned

end MirrorCast.Native.Accepting
