import MirrorCast.Library.Outcomes
import MirrorCast.Verification.Receiver.Queue

/-! # Runs of the jitter queue -/

namespace MirrorCast.RTPReceiver.Source

open Java

/-! ## Packets leave the queue -/

/-- No check fails, and whatever is thrown leaves a sound queue behind. -/
def Stops (stop : Stop) (t : Source) : Prop := stop ≠ .check ∧ t.queue.Sound

/-- The packet has just been taken out of the queue. -/
structure Queue.Taken (packet : Packet) (q : Queue) : Prop where
  number : packet.mInt32Data = q.mAwaitingExtSeqNo
  numbered : Numbered packet
  strict : ∀ p ∈ q.mPackets, q.mAwaitingExtSeqNo < p.mInt32Data

/-- What holds from the taking of a packet on, until its number is no longer awaited. -/
structure Queue.Handing (packet : Packet) (q : Queue) : Prop extends q.Sound, q.Taken packet where
  all_numbered : ∀ p ∈ q.mPackets, Numbered p
  behind : ∀ e ∈ Source.handed q.effects, e ≤ q.mAwaitingExtSeqNo
  idle : q.mDeclareLostTimerPending = false
  generations : Generations (q.mAwaitingExtSeqNo + 2) q.mDeclareLostGeneration q.outstanding

/-- The number is no longer awaited. -/
theorem Queue.Handing.inside {packet : Packet} {q : Queue} (h : q.Handing packet) :
    Queue.Inside { q with mAwaitingExtSeqNo := int32 (q.mAwaitingExtSeqNo + 1) } := by
  obtain ⟨hlo, hhi⟩ := h.numbered
  have hnumber := h.number
  rw [int32_eq (by omega) (by omega)]
  exact {
    inOrder := ⟨h.inOrder.sorted, h.strict⟩
    assigned := h.assigned
    handed := h.handed
    timer := h.timer
    lower := by dsimp only; omega
    upper := by dsimp only; omega
    numbered := h.all_numbered
    behind := fun e he => Int.lt_add_one_of_le (h.behind e he)
    generations := h.generations.mono (by dsimp only; omega) }

section

variable {env : Env} {s : Source} {α : Type} {Q : α → Source → Prop}
  {E : Stop → Source → Prop}

/-- The state after an assignment. -/
def recorded (s : Source) : Source :=
  { s with effects := s.effects ++ [.assigned s.mAwaitingExtSeqNo s.mPackets] }

theorem assign_bind {f : Source → Source} {g : Unit → Handler α}
    (h : Ends (g ()) (recorded (f s)) Q E) : Ends (assign f >>= g) s Q E := h

theorem check_bind {c : Prop} [Decidable c] {g : Unit → Handler α} (hc : c)
    (h : Ends (g ()) s Q E) : Ends (check c >>= g) s Q E := by
  rw [check, if_pos hc]
  exact h

theorem call_ends {e : Option JavaException} {Q : Unit → Source → Prop} (h : Q () s)
    (hthrown : ∀ e, E (.thrown e) s) : Ends (call e) s Q E := by
  cases e with
  | none => exact h
  | some e => exact hthrown e

theorem call_bind {e : Option JavaException} {g : Unit → Handler α} (h : Ends (g ()) s Q E)
    (hthrown : ∀ e, E (.thrown e) s) : Ends (call e >>= g) s Q E := by
  cases e with
  | none => exact h
  | some e => exact hthrown e

/-- A packet is taken if it is the awaited one, or if none is awaited yet. -/
theorem getNextPacket_ends (h : s.queue.Inside) :
    Ends getNextPacket s
      (fun
        | none, t => t = s ∧ (∀ p ∈ s.mPackets, s.mAwaitingExtSeqNo < p.mInt32Data) ∧
            (s.mPackets ≠ [] → 0 ≤ s.mAwaitingExtSeqNo)
        | some packet, t => t.queue.Inside ∧ t.queue.Taken packet ∧
            s.mPackets.length = t.mPackets.length + 1)
      Stops := by
  have hinOrder : InOrder s.mAwaitingExtSeqNo s.mPackets := h.inOrder
  have hnumbered : ∀ p ∈ s.mPackets, Numbered p := h.numbered
  refine .get_bind ?_
  split
  next hnil => exact .pure ⟨rfl, by simp [hnil], by simp [hnil]⟩
  next packet packets hcons =>
    rw [hcons] at hinOrder hnumbered
    obtain ⟨hlo, hhi⟩ := hnumbered packet (by simp)
    have hpackets : ∀ p ∈ packets, Numbered p := fun p hp => hnumbered p (by simp [hp])
    refine .ite (fun hnew => ?_) fun hold => .ite (fun hne => .pure ?_) fun heq => ?_
    · -- the first packet of all
      have hfirst : Queue.Inside { s.queue with mAwaitingExtSeqNo := packet.mInt32Data } := {
        inOrder := by
          refine ⟨h.inOrder.sorted, ?_⟩
          rw [show s.queue.mPackets = packet :: packets from hcons]
          intro p hp
          rcases List.mem_cons.mp hp with rfl | hp
          · exact le_rfl
          · exact (hinOrder.first_lt p hp).le
        assigned := h.assigned
        handed := h.handed
        timer := h.timer
        lower := by dsimp only; omega
        upper := by dsimp only; omega
        numbered := h.numbered
        behind := fun e he => (h.behind e he).trans_le (hnew.le.trans hlo)
        generations := h.generations.mono (by
          have hawaiting : s.queue.mAwaitingExtSeqNo < 0 := hnew
          dsimp only
          omega) }
      have hrest : InOrder packet.mInt32Data packets :=
        ⟨hinOrder.tail.sorted, fun p hp => (hinOrder.first_lt p hp).le⟩
      refine assign_bind (assign_bind (.pure ⟨?_, ⟨rfl, ⟨hlo, hhi⟩, hinOrder.first_lt⟩, ?_⟩))
      · exact (hfirst.log_assigned.set_packets hrest hpackets).log_assigned
      · rw [hcons]
        rfl
    · refine ⟨rfl, ?_, fun _ => not_lt.mp hold⟩
      have hlt := lt_of_le_of_ne (hinOrder.awaited packet (by simp)) (Ne.symm hne)
      rw [hcons]
      intro p hp
      rcases List.mem_cons.mp hp with rfl | hp
      · exact hlt
      · exact hlt.trans (hinOrder.first_lt p hp)
    · have hnumber : packet.mInt32Data = s.mAwaitingExtSeqNo := not_ne_iff.mp heq
      refine assign_bind (.pure ⟨?_, ⟨hnumber, ⟨hlo, hhi⟩, ?_⟩, ?_⟩)
      · exact (h.set_packets hinOrder.tail hpackets).log_assigned
      · intro p hp
        exact hnumber ▸ hinOrder.first_lt p hp
      · rw [hcons]
        rfl

/-- A timer that is still pending is out of date now. -/
theorem Queue.Inside.cancelTimers {packet : Packet} (h : s.queue.Inside)
    (htaken : s.queue.Taken packet) :
    Ends cancelTimers s
      (fun _ t => t.queue.Handing packet ∧ t.mPackets = s.mPackets ∧ t.effects = s.effects) E := by
  have hupper := h.upper
  obtain ⟨hgenerations, hcount⟩ := h.generations.next (by omega)
  refine .modify ⟨?_, rfl, rfl⟩
  exact {
    inOrder := h.inOrder
    assigned := h.assigned
    handed := h.handed
    timer := hcount
    number := htaken.number
    numbered := htaken.numbered
    strict := htaken.strict
    all_numbered := h.numbered
    behind := fun e he => (h.behind e he).le
    idle := rfl
    generations := hgenerations.mono (by dsimp only [queue]; omega) }

theorem Queue.Inside.handing {packet : Packet} {q : Queue} (h : q.Inside)
    (htaken : q.Taken packet) (hidle : q.mDeclareLostTimerPending = false) :
    q.Handing packet where
  toSound := h.toSound
  toTaken := htaken
  all_numbered := h.numbered
  behind := fun e he => (h.behind e he).le
  idle := hidle
  generations := h.generations.mono (by omega)

/-- The assembler gets the packet. -/
theorem Queue.Handing.log_processPacket {packet : Packet} {q : Queue} (h : q.Handing packet)
    (hbehind : ∀ e ∈ Source.handed q.effects, e < packet.mInt32Data) :
    (q.log (.processPacket packet)).Handing packet where
  toSound := h.toSound.log_processPacket hbehind
  number := h.number
  numbered := h.numbered
  strict := h.strict
  all_numbered := h.all_numbered
  behind := by
    intro e he
    rw [Queue.log, handed_append] at he
    rcases List.mem_append.mp he with he | he
    · exact h.behind e he
    · cases List.mem_singleton.mp he
      exact h.number.le
  idle := h.idle
  generations := h.generations

/-- The end of the body. -/
theorem Queue.Handing.advance {packet : Packet} (h : s.queue.Handing packet) :
    Ends (assign fun s => { s with mAwaitingExtSeqNo := int32 (s.mAwaitingExtSeqNo + 1) }) s
      (fun _ t => t.queue.Inside ∧ t.mPackets = s.mPackets ∧ t.mDeclareLostTimerPending = false)
      E :=
  .modify ⟨h.inside.log_assigned, rfl, h.idle⟩

/-- Only the assembler and its type are new. -/
theorem makeAssembler_ends {packetType : ℤ} {q : Queue} (h : s.queue = q)
    (hthrown : ∀ e, E (.thrown e) s) :
    Ends (makeAssembler env packetType) s (fun _ t => t.queue = q) E := by
  unfold makeAssembler
  split
  next e _ => exact .throw (hthrown e)
  next => exact .modify h

theorem release_ends {packet : Packet} (h : s.queue.Inside) (htaken : s.queue.Taken packet) :
    Ends (release env packet) s
      (fun _ t => t.queue.Inside ∧ t.mPackets = s.mPackets ∧ t.mDeclareLostTimerPending = false)
      Stops := by
  refine .get_bind (.when_bind (fun _ => h.cancelTimers htaken)
    (fun hidle => ⟨h.handing htaken (Bool.eq_false_iff.mpr hidle), rfl, rfl⟩) ?_)
  rintro t ⟨hhanding, hpackets, heffects⟩
  have hbehind : ∀ e ∈ handed t.effects, e < packet.mInt32Data :=
    heffects ▸ htaken.number ▸ h.behind
  have hnonneg : 0 ≤ t.mAwaitingExtSeqNo :=
    hhanding.numbered.1.trans_eq hhanding.number
  refine .get_bind (check_bind hnonneg (.get_bind ?_))
  refine .when_bind (Q := fun _ (u : Source) => u.queue = t.queue)
    (fun _ => makeAssembler_ends rfl fun _ => ⟨nofun, hhanding.toSound⟩) (fun _ => rfl) ?_
  intro u hu
  have hready : u.queue.Handing packet := hu ▸ hhanding
  have hkept : u.mPackets = s.mPackets := (congrArg Queue.mPackets hu).trans hpackets
  refine .get_bind (.ite (fun _ => ?_) fun _ => hkept ▸ hready.advance)
  have hlogged := hready.log_processPacket
    (show ∀ e ∈ handed u.queue.effects, _ from hu ▸ hbehind)
  refine .modify_bind (call_bind ?_ fun _ => ⟨nofun, hlogged.toSound⟩)
  exact hkept ▸ Queue.Handing.advance hlogged

/-! ## The loop -/

/-- Once no packet has its turn, they all come after the awaited number. -/
theorem dequeueLoop_ends {n : ℕ} (hn : s.mPackets.length = n) (h : s.queue.Inside)
    (hpending : s.mDeclareLostTimerPending = true → s.mPackets ≠ []) :
    Ends (dequeueLoop env n) s (fun _ t => t.queue.Settled) Stops := by
  induction n generalizing s with
  | zero =>
      have hnil : s.queue.mPackets = [] := List.eq_nil_of_length_eq_zero hn
      refine .pure { h with
        strict := ?_
        awaiting := fun hne => absurd hnil hne
        pending := hpending }
      rw [hnil]
      simp
  | succ n ih =>
      refine .bind (getNextPacket_ends h) ?_
      intro next t ht
      cases next with
      | none =>
          obtain ⟨rfl, hstrict, hawaiting⟩ := ht
          exact .pure { h with strict := hstrict, awaiting := hawaiting, pending := hpending }
      | some packet =>
          obtain ⟨hinside, htaken, hlength⟩ := ht
          refine .bind (release_ends hinside htaken) ?_
          rintro _ u ⟨hu, hpackets, hidle⟩
          refine ih ?_ hu ?_
          · rw [hpackets]
            omega
          · rw [hidle]
            nofun

/-- A timer is started. -/
theorem Queue.Settled.post {q : Queue} (h : q.Settled) (hidle : q.mDeclareLostTimerPending = false)
    (hne : q.mPackets ≠ []) :
    Queue.Settled
      { q with
        mDeclareLostTimerPending := true
        outstanding := q.outstanding ++ [.declareLost q.mDeclareLostGeneration] } where
  inOrder := h.inOrder
  assigned := h.assigned
  handed := h.handed
  timer := by
    have hcount := h.timer
    rw [hidle] at hcount
    rw [List.count_append, hcount, List.count_singleton_self]
    rfl
  lower := h.lower
  upper := h.upper
  numbered := h.numbered
  behind := h.behind
  generations := h.generations.post
  strict := h.strict
  awaiting := h.awaiting
  pending := fun _ => hne

/-- The end of a handler. -/
theorem awaitFirst_ends (h : s.queue.Settled) :
    Ends awaitFirst s (fun _ t => t.queue.Settled) Stops := by
  refine .get_bind (.ite (fun _ => .pure h) fun hidle => ?_)
  split
  next hnil => exact .pure h
  next packet packets hcons =>
    have hawaiting : 0 ≤ s.mAwaitingExtSeqNo := h.awaiting (by simp [queue, hcons])
    have hfirst : s.mAwaitingExtSeqNo < packet.mInt32Data := h.strict packet (by simp [queue, hcons])
    refine check_bind hawaiting (check_bind hfirst (.get_bind (check_bind ?_ ?_)))
    · exact Bool.eq_false_iff.mpr hidle
    · exact .modify_bind (.get_bind (.modify (h.post (Bool.eq_false_iff.mpr hidle)
        (by simp [queue, hcons]))))

theorem dequeueMore_ends (h : s.queue.Inside)
    (hpending : s.mDeclareLostTimerPending = true → s.mPackets ≠ []) :
    Ends (dequeueMore env) s (fun _ t => t.queue.Settled) Stops := by
  have hreport : Ends (report env) s (fun _ t => t.queue = s.queue) Stops :=
    .get_bind (.ite (fun _ => .ite (fun _ => .modify_bind (.modify rfl)) fun _ => .modify rfl)
      fun _ => .pure rfl)
  refine .bind hreport ?_
  intro _ t ht
  refine .get_bind (.bind (dequeueLoop_ends rfl (ht ▸ h) ?_) fun _ _ hu => awaitFirst_ends hu)
  intro hp
  have hpackets : t.mPackets = s.mPackets := congrArg Queue.mPackets ht
  rw [hpackets]
  exact hpending ((congrArg Queue.mDeclareLostTimerPending ht).symm.trans hp)

/-! ## The entry points -/

theorem queuePacket_ends {packet : Packet} (h : s.queue.Settled) (hpacket : Numbered packet) :
    Ends (queuePacket env packet) s (fun _ t => t.queue.Settled) Stops := by
  refine .modify_bind (.get_bind ?_)
  refine .when_bind (Q := fun _ (t : Source) => t.queue = s.queue.log (.queuePacket packet))
    (fun _ => .modify rfl) (fun _ => rfl) ?_
  intro t ht
  have hlogged : t.queue.Settled := ht ▸ h.log (fun _ => nofun) fun _ _ => nofun
  refine .get_bind (.ite (fun _ => .pure hlogged) fun hfresh => ?_)
  split
  next hduplicate => exact .pure hlogged
  next packets hpackets =>
    have hmem : ∀ p, p ∈ packets.reverse ↔ p = packet ∨ p ∈ t.mPackets := by
      intro p
      rw [List.mem_reverse, mem_insertFromBack hpackets, List.mem_reverse]
    have hawaited : t.mAwaitingExtSeqNo ≤ packet.mInt32Data := by
      have hnonneg := hpacket.1
      omega
    refine assign_bind (dequeueMore_ends ?_ fun _ => ?_)
    · refine (hlogged.set_packets (hlogged.inOrder.insert hawaited hpackets) ?_).log_assigned
      intro p hp
      rcases (hmem p).mp hp with rfl | hp
      · exact hpacket
      · exact hlogged.numbered p hp
    · exact List.ne_nil_of_mem ((hmem packet).mpr (.inl rfl))

/-- The message is handled, and no longer outstanding. -/
def deliver (env : Env) (timer : Timer) : Handler Unit := do
  modify fun s => { s with outstanding := s.outstanding.erase timer }
  onMessageReceived env timer

/-- A message that is out of date. -/
theorem Queue.Settled.erase {q : Queue} {timer : Timer} (h : q.Settled)
    (htimer : timer ≠ .declareLost q.mDeclareLostGeneration) :
    Queue.Settled { q with outstanding := q.outstanding.erase timer } where
  inOrder := h.inOrder
  assigned := h.assigned
  handed := h.handed
  timer := (List.count_erase_of_ne htimer.symm).trans h.timer
  lower := h.lower
  upper := h.upper
  numbered := h.numbered
  behind := h.behind
  generations := h.generations.of_subset (List.erase_subset)
  strict := h.strict
  awaiting := h.awaiting
  pending := h.pending

/-- The pending timer has fired and is cancelled. -/
def Queue.fired (q : Queue) : Queue :=
  { q with
    mDeclareLostGeneration := int32 (q.mDeclareLostGeneration + 1)
    mDeclareLostTimerPending := false
    outstanding := q.outstanding.erase (.declareLost q.mDeclareLostGeneration) }

/-- A packet is waiting then, so the next number can be awaited. -/
theorem Queue.Settled.fired {q : Queue} (h : q.Settled)
    (htimer : .declareLost q.mDeclareLostGeneration ∈ q.outstanding) :
    Queue.Inside
      { q.fired with mAwaitingExtSeqNo := int32 (q.fired.mAwaitingExtSeqNo + 1) } := by
  have hpending : q.mDeclareLostTimerPending = true := by
    by_contra hidle
    have hcount := h.timer
    rw [if_neg hidle, List.count_eq_zero] at hcount
    exact hcount htimer
  obtain ⟨first, hfirst⟩ := List.exists_mem_of_ne_nil _ (h.pending hpending)
  have hawaiting := h.awaiting (h.pending hpending)
  have hlt := h.strict first hfirst
  have hle := (h.numbered first hfirst).2
  obtain ⟨hgenerations, hcount⟩ := h.generations.next (by omega)
  have hnext : int32 (q.fired.mAwaitingExtSeqNo + 1) = q.mAwaitingExtSeqNo + 1 :=
    int32_eq (by dsimp only [Queue.fired]; omega) (by dsimp only [Queue.fired]; omega)
  rw [hnext]
  exact {
    inOrder := ⟨h.inOrder.sorted, h.strict⟩
    assigned := h.assigned
    handed := h.handed
    timer := Nat.eq_zero_of_le_zero (hcount ▸ List.erase_sublist.count_le _)
    lower := by dsimp only; omega
    upper := by dsimp only; omega
    numbered := h.numbered
    behind := fun e he => (h.behind e he).trans (Int.lt_add_one_of_le le_rfl)
    generations := hgenerations.of_subset List.erase_subset }

/-- A declare-lost message of the present generation comes from the source. -/
def Fires (s : Source) (timer : Timer) : Prop :=
  timer = .declareLost s.mDeclareLostGeneration → timer ∈ s.outstanding

theorem deliver_ends {timer : Timer} (h : s.queue.Settled) (htimer : s.Fires timer) :
    Ends (deliver env timer) s (fun _ t => t.queue.Settled) Stops := by
  refine .modify_bind ?_
  cases timer with
  | retransmit generation =>
      have hother : Timer.retransmit generation ≠ .declareLost s.mDeclareLostGeneration := nofun
      have herased := h.erase hother
      refine .get_bind (.ite (fun _ => .pure herased) fun _ => ?_)
      have hlogged : (Queue.log _ (.requestRetransmission s.mAwaitingExtSeqNo)).Settled :=
        herased.log (fun _ => nofun) fun _ _ => nofun
      refine .modify_bind (.get_bind (.modify_bind ?_))
      exact call_ends hlogged fun _ => ⟨nofun, hlogged.toSound⟩
  | declareLost generation =>
      refine .get_bind (.ite (fun hne => .pure (h.erase ?_)) fun heq => ?_)
      · intro htimer
        exact hne (Timer.declareLost.inj htimer)
      · obtain rfl : generation = s.mDeclareLostGeneration := not_ne_iff.mp heq
        refine .modify_bind (.modify_bind (.get_bind (.when_bind
          (Q := fun _ (t : Source) => ∃ q : Queue, q.Settled ∧
            .declareLost q.mDeclareLostGeneration ∈ q.outstanding ∧ t.queue = q.fired)
          (fun _ => ?_) (fun _ => ⟨s.queue, h, htimer rfl, rfl⟩) ?_)))
        · have hlogged : (s.queue.log .signalDiscontinuity).Settled :=
            h.log (fun _ => nofun) fun _ _ => nofun
          refine .modify_bind (call_ends ⟨_, hlogged, htimer rfl, rfl⟩ fun _ => ⟨nofun, ?_⟩)
          exact {
            inOrder := h.inOrder
            assigned := hlogged.assigned
            handed := hlogged.handed
            timer := (hlogged.fired (htimer rfl)).timer }
        · rintro t ⟨q, hq, hmem, ht⟩
          have hinside := hq.fired hmem
          rw [← ht] at hinside
          have hidle : t.mDeclareLostTimerPending = false :=
            congrArg Queue.mDeclareLostTimerPending ht
          refine assign_bind (.modify_bind (.modify_bind (dequeueMore_ends ?_ ?_)))
          · have hlogged : (Queue.log _ .notifyPacketLost).Inside :=
              hinside.log_assigned.log (fun _ => nofun) fun _ _ => nofun
            exact hlogged
          · intro hpending
            exact absurd (hidle.symm.trans hpending) nofun

end

/-! ## Any order of packets and messages -/

inductive Event where
  | queuePacket (env : Env) (packet : Packet)
  | message (env : Env) (timer : Timer)

def handle : Event → Handler Unit
  | .queuePacket env packet => queuePacket env packet
  | .message env timer => deliver env timer

/-- Packets have numbers of the queue, and messages come as `Fires` says. -/
def Allowed (s : Source) : Event → Prop
  | .queuePacket _ packet => Numbered packet
  | .message _ timer => s.Fires timer

/-- The states between handlers. -/
inductive Reachable : Source → Prop where
  | new : Reachable new
  | step {s t : Source} {event : Event} (hs : Reachable s) (hevent : s.Allowed event)
      (hrun : (handle event).run s = (.ok (), t)) : Reachable t

theorem Reachable.queuePacket {s t : Source} {packet : Packet} (env : Env) (hs : Reachable s)
    (hpacket : Numbered packet) (hrun : (queuePacket env packet).run s = (.ok (), t)) :
    Reachable t :=
  .step hs (show s.Allowed (.queuePacket env packet) from hpacket) hrun

theorem handle_ends {s : Source} {event : Event} (h : s.queue.Settled) (hevent : s.Allowed event) :
    Ends (handle event) s (fun _ t => t.queue.Settled) Stops := by
  cases event with
  | queuePacket env packet => exact queuePacket_ends h hevent
  | message env timer => exact deliver_ends h hevent

theorem new_settled : new.queue.Settled where
  inOrder := ⟨.nil, nofun⟩
  assigned := nofun
  handed := .nil
  timer := rfl
  lower := by decide
  upper := by decide
  numbered := nofun
  behind := nofun
  generations := ⟨0, by decide, by decide, rfl, nofun⟩
  strict := nofun
  awaiting := fun h => absurd rfl h
  pending := nofun

theorem Reachable.settled {s : Source} (hs : Reachable s) : s.queue.Settled := by
  induction hs with
  | new => exact new_settled
  | step _ hevent hrun ih => exact (handle_ends ih hevent).of_ok hrun

/-- The packets are in order now and were so after each change of the queue or of the awaited
number, and the assembler got its packets in order. -/
def Ordered (s : Source) : Prop :=
  InOrder s.mAwaitingExtSeqNo s.mPackets ∧
    (∀ awaiting packets, .assigned awaiting packets ∈ s.effects → InOrder awaiting packets) ∧
    (handed s.effects).Pairwise (· < ·)

/-- The timer is pending exactly if one message of its generation is outstanding, and then a
packet is waiting. A handler may stop, but not at a check. -/
theorem jitter_queue_sound {s : Source} (hs : Reachable s) :
    s.Ordered ∧ (∀ p ∈ s.mPackets, s.mAwaitingExtSeqNo < p.mInt32Data) ∧
      s.outstanding.count (.declareLost s.mDeclareLostGeneration) =
        (if s.mDeclareLostTimerPending then 1 else 0) ∧
      (s.mDeclareLostTimerPending = true → s.mPackets ≠ []) ∧
      ∀ event, s.Allowed event → ∀ stop t, (handle event).run s = (.error stop, t) →
        stop ≠ .check ∧ t.Ordered := by
  have h := hs.settled
  refine ⟨⟨h.inOrder, h.assigned, h.handed⟩, h.strict, h.timer, h.pending, ?_⟩
  intro event hevent stop t hrun
  obtain ⟨hne, hsound⟩ := (handle_ends h hevent).of_error hrun
  exact ⟨hne, hsound.inOrder, hsound.assigned, hsound.handed⟩

/-- An assembler for every packet type, and nothing that throws. -/
def quiet : Env where
  arrivalUs := 0
  nowUs := 0
  makeAssembler := fun _ => .ok true
  processPacket := fun _ => none
  signalDiscontinuity := none
  requestRetransmission := none

/-- After packets 5 and 7. -/
def gap : Source :=
  ((queuePacket quiet ⟨7, 33, 0⟩).run ((queuePacket quiet ⟨5, 33, 0⟩).run new).2).2

theorem gap_reachable : Reachable gap := by
  have hfive : Reachable ((queuePacket quiet ⟨5, 33, 0⟩).run new).2 :=
    .queuePacket quiet .new (show Numbered ⟨5, 33, 0⟩ by decide) rfl
  exact .queuePacket quiet hfive (show Numbered ⟨7, 33, 0⟩ by decide) rfl

theorem jitter_queue_sound_gap :
    Reachable gap ∧ gap.mAwaitingExtSeqNo = 6 ∧ gap.mPackets = [⟨7, 33, 0⟩] ∧
      gap.outstanding.count (.declareLost 0) = 1 := by
  refine ⟨gap_reachable, rfl, rfl, ?_⟩
  have htimer := (jitter_queue_sound gap_reachable).2.2.1
  exact htimer

end MirrorCast.RTPReceiver.Source
