import MirrorCast.Library.Machine
import MirrorCast.Library.Outcomes
import MirrorCast.Program.RTPReceiver
import Mathlib.Data.BitVec
import Mathlib.Order.Bounds.Basic

/-! # Extended sequence numbers -/

namespace MirrorCast.RTPReceiver.Source

open Java Machine

/-! ## Parts put together -/

theorem int32Or_zero (x : ℤ) : int32Or 0 x = int32 x := by
  have hzero : BitVec.ofInt 32 0 = 0#32 := rfl
  rw [int32Or, hzero, BitVec.zero_or, BitVec.toInt_ofInt, int32]

theorem int32Or_comm (x y : ℤ) : int32Or x y = int32Or y x := by
  rw [int32Or, BitVec.or_comm, int32Or]

/-- A sign stays. -/
theorem int32Or_neg {x y : ℤ} (hlo : -2 ^ 31 ≤ y) (hy : y < 0) : int32Or x y < 0 := by
  have hsign : (BitVec.ofInt 32 y).msb = true := by
    rw [BitVec.msb_eq_toInt, BitVec.toInt_ofInt]
    exact decide_eq_true ((int32_eq hlo (by omega)).trans_lt hy)
  have hmsb : (BitVec.ofInt 32 x ||| BitVec.ofInt 32 y).msb = true := by
    rw [BitVec.msb_or, hsign, Bool.or_true]
  rw [BitVec.msb_eq_toInt] at hmsb
  exact of_decide_eq_true hmsb

/-! ## What the queue leaves alone -/

/-- The numbering is not touched, and no further packet is queued. -/
structure Apart (s t : Source) : Prop where
  mFirst : t.mFirst = s.mFirst
  mMaxSeq : t.mMaxSeq = s.mMaxSeq
  mCycles : t.mCycles = s.mCycles
  effects : ∃ more, t.effects = s.effects ++ more ∧ ∀ packet, .queuePacket packet ∉ more

instance : IsPreorder Source Apart where
  refl s := ⟨rfl, rfl, rfl, [], (List.append_nil _).symm, nofun⟩
  trans s t u hst htu := by
    obtain ⟨more, hmore, hnone⟩ := hst.effects
    obtain ⟨more', hmore', hnone'⟩ := htu.effects
    refine ⟨htu.mFirst.trans hst.mFirst, htu.mMaxSeq.trans hst.mMaxSeq,
      htu.mCycles.trans hst.mCycles, more ++ more', ?_, ?_⟩
    · rw [hmore', hmore, List.append_assoc]
    · intro packet hmem
      rcases List.mem_append.mp hmem with hmem | hmem
      · exact hnone packet hmem
      · exact hnone' packet hmem

section

variable {env : Env} {s : Source}

theorem Apart.of_fields {t : Source} (hfirst : t.mFirst = s.mFirst) (hmax : t.mMaxSeq = s.mMaxSeq)
    (hcycles : t.mCycles = s.mCycles) (heffects : t.effects = s.effects) : Apart s t :=
  ⟨hfirst, hmax, hcycles, [], by rw [heffects, List.append_nil], nofun⟩

theorem log_apart {effect : Effect} (h : ∀ packet, effect ≠ .queuePacket packet) :
    Keeps Apart (log effect) s :=
  .modify ⟨rfl, rfl, rfl, [effect], rfl, fun packet hmem =>
    h packet (List.mem_singleton.mp hmem).symm⟩

theorem assign_apart {f : Source → Source} (h : Apart s (f s)) : Keeps Apart (assign f) s :=
  .modify_bind h (log_apart fun _ => nofun)

theorem check_apart {c : Prop} [Decidable c] : Keeps Apart (check c) s :=
  .ite (fun _ => .pure) fun _ => .throw

theorem call_apart {e : Option JavaException} : Keeps Apart (call e) s := by
  cases e with
  | none => exact .pure
  | some e => exact .throw

theorem report_apart : Keeps Apart (report env) s :=
  .get_bind (.ite
    (fun _ => .when_bind (fun _ => .modify (.of_fields rfl rfl rfl rfl))
      fun _ _ => .modify (.of_fields rfl rfl rfl rfl))
    fun _ => .pure)

theorem getNextPacket_apart : Keeps Apart getNextPacket s := by
  refine .get_bind ?_
  split
  · exact .pure
  · refine .ite (fun _ => ?_) fun _ => .ite (fun _ => .pure) fun _ => ?_
    · exact .bind (assign_apart (.of_fields rfl rfl rfl rfl)) fun _ _ _ =>
        .bind (assign_apart (.of_fields rfl rfl rfl rfl)) fun _ _ _ => .pure
    · exact .bind (assign_apart (.of_fields rfl rfl rfl rfl)) fun _ _ _ => .pure

theorem makeAssembler_apart {packetType : ℤ} : Keeps Apart (makeAssembler env packetType) s := by
  unfold makeAssembler
  split
  · exact .throw
  · exact .modify (.of_fields rfl rfl rfl rfl)

theorem release_apart {packet : Packet} : Keeps Apart (release env packet) s := by
  refine .get_bind (.when_bind (fun _ => .modify (.of_fields rfl rfl rfl rfl)) fun t _ => ?_)
  refine .get_bind (.bind check_apart fun _ u _ => .get_bind ?_)
  refine .when_bind (fun _ => makeAssembler_apart) fun v _ => .get_bind ?_
  have hadvance (w : Source) : Keeps Apart
      (assign fun s => { s with mAwaitingExtSeqNo := int32 (s.mAwaitingExtSeqNo + 1) }) w :=
    assign_apart (.of_fields rfl rfl rfl rfl)
  refine .ite (fun _ => ?_) fun _ => hadvance v
  exact .bind (log_apart fun _ => nofun) fun _ _ _ => .bind call_apart fun _ w _ => hadvance w

theorem dequeueLoop_apart {n : ℕ} : Keeps Apart (dequeueLoop env n) s := by
  induction n generalizing s with
  | zero => exact .pure
  | succ n ih =>
      refine .bind getNextPacket_apart fun next t _ => ?_
      cases next with
      | none => exact .pure
      | some packet => exact .bind release_apart fun _ _ _ => ih

theorem awaitFirst_apart : Keeps Apart awaitFirst s := by
  refine .get_bind (.ite (fun _ => .pure) fun _ => ?_)
  split
  · exact .pure
  · refine .bind check_apart fun _ t _ => .bind check_apart fun _ u _ => .get_bind ?_
    exact .bind check_apart fun _ _ _ =>
      .modify_bind (.of_fields rfl rfl rfl rfl) (.get_bind (.modify (.of_fields rfl rfl rfl rfl)))

theorem dequeueMore_apart : Keeps Apart (dequeueMore env) s :=
  .bind report_apart fun _ _ _ => .get_bind (.bind dequeueLoop_apart fun _ _ _ => awaitFirst_apart)

/-- The packet is queued, and nothing else happens to the numbering. -/
structure Queued (packet : Packet) (s t : Source) : Prop where
  mFirst : t.mFirst = s.mFirst
  mMaxSeq : t.mMaxSeq = s.mMaxSeq
  mCycles : t.mCycles = s.mCycles
  effects : ∃ more, t.effects = s.effects ++ .queuePacket packet :: more ∧
    ∀ other, .queuePacket other ∉ more

theorem queuePacket_queued {packet : Packet} :
    Ends (queuePacket env packet) s (fun _ t => Queued packet s t) fun _ t => Queued packet s t := by
  have hqueued (t : Source)
      (ht : Apart { s with effects := s.effects ++ [.queuePacket packet] } t) :
      Queued packet s t := by
    obtain ⟨hfirst, hmax, hcycles, more, hmore, hnone⟩ := ht
    exact ⟨hfirst, hmax, hcycles, more, by simpa using hmore, hnone⟩
  refine .modify_bind (Ends.mono (show Keeps Apart _ _ from ?_) (fun _ => hqueued)
    fun _ => hqueued)
  refine .get_bind (.when_bind (fun _ => .modify (.of_fields rfl rfl rfl rfl)) fun t _ => ?_)
  refine .get_bind (.ite (fun _ => .pure) fun _ => ?_)
  split
  · exact .pure
  · exact .bind (assign_apart (.of_fields rfl rfl rfl rfl)) fun _ _ _ => dequeueMore_apart

/-! ## One arrival -/

/-- Exactly one packet has been queued, with this number. -/
def Stored (number : ℤ) (s t : Source) : Prop :=
  ∃ packet more, packet.mInt32Data = number ∧
    t.effects = s.effects ++ .queuePacket packet :: more ∧ ∀ other, .queuePacket other ∉ more

theorem Stored.forall_iff {number : ℤ} {s t : Source} (h : Stored number s t) (n : ℤ) :
    (∀ packet, .queuePacket packet ∈ t.effects.drop s.effects.length → packet.mInt32Data = n) ↔
      number = n := by
  obtain ⟨packet, more, rfl, heffects, hnone⟩ := h
  rw [heffects, List.drop_left]
  constructor
  · intro hall
    exact hall packet (by simp)
  · rintro hn other hmem
    rcases List.mem_cons.mp hmem with heq | hmem
    · cases heq
      exact hn
    · exact absurd hmem (hnone other)

theorem Queued.stored {packet : Packet} {t : Source} (h : Queued packet s t) :
    Stored packet.mInt32Data s t := by
  obtain ⟨more, heffects, hnone⟩ := h.effects
  exact ⟨packet, more, rfl, heffects, hnone⟩

theorem onPacketReceived_first (env : Env) (seq : ℤ) (buffer : Packet) (hfirst : s.mFirst = true) :
    Ends (onPacketReceived env seq buffer) s
      (fun _ t => Stored (int32Or s.mCycles seq) s t ∧ t.mFirst = false ∧ t.mMaxSeq = seq ∧
        t.mCycles = s.mCycles)
      fun _ t => Stored (int32Or s.mCycles seq) s t ∧ t.mFirst = true := by
  refine .get_bind (.ite (fun _ => ?_) fun hnext => absurd hfirst hnext)
  refine .seq queuePacket_queued (fun _ t ht => ⟨ht.stored, ht.mFirst.trans hfirst⟩) ?_
  intro _ t ht
  exact .modify ⟨ht.stored, rfl, rfl, ht.mCycles⟩

/-- A packet that counts as the next one, whether it has an earlier number or not. -/
theorem onPacketReceived_next {seq cycles : ℤ} (env : Env) (buffer : Packet)
    (hfirst : s.mFirst = false) (hdelta : int32 (seq - s.mMaxSeq) < MAX_DROPOUT)
    (hcycles : cycles = if seq < s.mMaxSeq then int32 (s.mCycles + RTP_SEQ_MOD) else s.mCycles) :
    Ends (onPacketReceived env seq buffer) s
      (fun _ t => Stored (int32Or cycles seq) s t ∧ t.mMaxSeq = seq ∧ t.mCycles = cycles ∧
        t.mFirst = false)
      fun _ t => Stored (int32Or cycles seq) s t ∧ t.mMaxSeq = seq ∧ t.mCycles = cycles ∧
        t.mFirst = false := by
  refine .get_bind (.ite (fun h => absurd (hfirst.symm.trans h) nofun) fun _ => ?_)
  refine .ite (fun _ => .modify_bind ?_) fun h => absurd hdelta h
  subst hcycles
  exact queuePacket_queued.mono
    (fun _ t ht => ⟨ht.stored, ht.mMaxSeq, ht.mCycles, ht.mFirst.trans hfirst⟩)
    fun _ t ht => ⟨ht.stored, ht.mMaxSeq, ht.mCycles, ht.mFirst.trans hfirst⟩

end

/-! ## Arrivals -/

/-- A datagram arrives with the packet of a number. -/
structure Arrival where
  env : Env
  number : ℤ
  data : List UInt8
  buffer : Packet
  wire : (RTPUtils.unsignedAt data 2 2 : ℤ) = number % 2 ^ 16

/-- The field is read as a signed number. -/
theorem Arrival.seqNo_eq (a : Arrival) : seqNo a.data = a.number.bmod (2 ^ 16) := by
  have hcut := Int.emod_bmod a.number (2 ^ 16)
  unfold seqNo RTPUtils.U16_AT
  rw [a.wire]
  exact hcut

/-- From 2 ^ 15 on the field reads as a negative number. -/
theorem Arrival.seqNo_cases (a : Arrival) (hlo : -2 ^ 15 ≤ a.number) (hhi : a.number < 2 ^ 16) :
    ∃ seq, seqNo a.data = seq ∧
      (a.number < 2 ^ 15 ∧ seq = a.number ∨ 2 ^ 15 ≤ a.number ∧ seq = a.number - 2 ^ 16) := by
  refine ⟨_, a.seqNo_eq, ?_⟩
  rcases lt_or_ge a.number (2 ^ 15) with h | h
  · exact .inl ⟨h, Int.bmod_eq_of_le (by omega) (by omega)⟩
  · have hmod : a.number % ((2 ^ 16 : ℕ) : ℤ) = a.number :=
      Int.emod_eq_of_lt (by omega) (by omega)
    refine .inr ⟨h, ?_⟩
    rw [Int.bmod_eq_emod, hmod, if_pos (by omega)]
    rfl

/-- One arrival; an exception of the assembler ends the run. -/
def arrive : Step Source Arrival Unit Stop := fun s a =>
  match (onPacketReceived a.env (seqNo a.data) a.buffer).run s with
  | (.ok (), t) => .ok (t, [])
  | (.error stop, _) => .error stop

def numbers (arrivals : List Arrival) : Set ℤ := { e | ∃ a ∈ arrivals, a.number = e }

/-- The first number has 16 bits, and the others are not far away from the largest so far. -/
def Near (past : List Arrival) (a : Arrival) : Prop :=
  (past = [] → 0 ≤ a.number ∧ a.number < 2 ^ 16) ∧
    ∀ largest, IsGreatest (numbers past) largest →
      largest - 100 < a.number ∧ a.number < largest + 3000

/-- A packet that is queued has its true number, and the source knows the largest so far once it
has received a packet. -/
def Right (past : List Arrival) (s : Source) (a : Arrival) : Prop :=
  let t := ((onPacketReceived a.env (seqNo a.data) a.buffer).run s).2
  (∀ packet, .queuePacket packet ∈ t.effects.drop s.effects.length → packet.mInt32Data = a.number) ∧
    (t.mFirst = false → IsGreatest (numbers (a :: past)) (int32Or t.mMaxSeq t.mCycles))

/-- The number has 15 bits, and no larger one has arrived. -/
def InOrder15 (past : List Arrival) (a : Arrival) : Prop :=
  a.number < 2 ^ 15 ∧ ∀ b ∈ past, b.number ≤ a.number

/-- What the source knows as long as the numbers have 15 bits and come in order. -/
structure Known (past : List Arrival) (s : Source) : Prop where
  mCycles : s.mCycles = 0
  first : past = [] → s.mFirst = true
  next : past ≠ [] → s.mFirst = false ∧ IsGreatest (numbers past) s.mMaxSeq ∧ 0 ≤ s.mMaxSeq ∧
    s.mMaxSeq < 2 ^ 15

section

variable {past : List Arrival} {s t : Source} {a : Arrival} {out : List Unit}

theorem isGreatest_cons (h : ∀ b ∈ past, b.number ≤ a.number) :
    IsGreatest (numbers (a :: past)) a.number := by
  refine ⟨⟨a, by simp, rfl⟩, ?_⟩
  rintro _ ⟨b, hb, rfl⟩
  rcases List.mem_cons.mp hb with rfl | hb
  · exact le_rfl
  · exact h b hb

theorem le_of_isGreatest (h : IsGreatest (numbers (a :: past)) a.number) :
    ∀ b ∈ past, b.number ≤ a.number :=
  fun b hb => h.2 ⟨b, by simp [hb], rfl⟩

theorem run_of_arrive (h : arrive s a = .ok (t, out)) :
    (onPacketReceived a.env (seqNo a.data) a.buffer).run s = (.ok (), t) := by
  unfold arrive at h
  split at h
  next u hrun =>
    cases h
    exact hrun
  next => cases h

/-- What is to be right, once it is known which number was stored. -/
theorem right_iff {number seq : ℤ} (hseq : seqNo a.data = seq)
    (ht : t = ((onPacketReceived a.env seq a.buffer).run s).2) (hstored : Stored number s t)
    (hmax : t.mFirst = false → int32Or t.mMaxSeq t.mCycles = number) :
    Right past s a ↔
      number = a.number ∧ (t.mFirst = false → IsGreatest (numbers (a :: past)) number) := by
  unfold Right
  rw [hseq, ← ht]
  refine and_congr (hstored.forall_iff _) (forall_congr' fun hfirst => ?_)
  rw [hmax hfirst]

theorem first_step (hknown : Known [] s) (hnear : Near [] a) :
    (Right [] s a ↔ InOrder15 [] a) ∧
      ∀ t out, InOrder15 [] a → arrive s a = .ok (t, out) → Known [a] t := by
  obtain ⟨hlo, hhi⟩ := hnear.1 rfl
  obtain ⟨seq, hseq, hcases⟩ := a.seqNo_cases (by omega) hhi
  have hends := onPacketReceived_first a.env seq a.buffer (hknown.first rfl)
  have hcut : int32 seq = seq := int32_eq (by omega) (by omega)
  rw [hknown.mCycles, int32Or_zero, hcut] at hends
  have hgreatest : IsGreatest (numbers [a]) a.number := isGreatest_cons (by simp)
  constructor
  · obtain ⟨hstored, hmax⟩ := Ends.state (P := fun t => Stored seq s t ∧
      (t.mFirst = false → int32Or t.mMaxSeq t.mCycles = seq)) (hends.mono
        (fun _ t ⟨hstored, _, hmax, hcycles⟩ => ⟨hstored, fun _ => by
          rw [hmax, hcycles, int32Or_comm, int32Or_zero, hcut]⟩)
        fun _ t ⟨hstored, hfirst⟩ => ⟨hstored, fun h => absurd (hfirst.symm.trans h) nofun⟩)
    rw [right_iff hseq rfl hstored hmax]
    constructor
    · rintro ⟨hnumber, -⟩
      exact ⟨by omega, by simp⟩
    · rintro ⟨hsmall, -⟩
      have hnumber : seq = a.number := by omega
      exact ⟨hnumber, fun _ => hnumber ▸ hgreatest⟩
  · intro t out hin hok
    have hsmall := hin.1
    have hnumber : seq = a.number := by omega
    have hrun := run_of_arrive hok
    rw [hseq] at hrun
    obtain ⟨-, hfirst, hmax, hcycles⟩ := hends.of_ok hrun
    refine ⟨hcycles, nofun, fun _ => ⟨hfirst, ?_⟩⟩
    rw [hmax, hnumber]
    exact ⟨hgreatest, hlo, hsmall⟩

theorem next_step (hpast : past ≠ []) (hknown : Known past s) (hnear : Near past a) :
    (Right past s a ↔ InOrder15 past a) ∧
      ∀ t out, InOrder15 past a → arrive s a = .ok (t, out) → Known (a :: past) t := by
  obtain ⟨hfirst, hlargest, hlo, hhi⟩ := hknown.next hpast
  obtain ⟨hnear, hnear'⟩ := hnear.2 _ hlargest
  obtain ⟨seq, hseq, hcases⟩ := a.seqNo_cases (by omega) (by omega)
  have hdelta : int32 (seq - s.mMaxSeq) < MAX_DROPOUT := by
    rw [int32_eq (by omega) (by omega), MAX_DROPOUT]
    omega
  have hends := onPacketReceived_next a.env a.buffer hfirst hdelta rfl
  rw [hknown.mCycles] at hends
  have hin (h : InOrder15 past a) : seq = a.number ∧ ¬ seq < s.mMaxSeq := by
    obtain ⟨b, hb, hmax⟩ := hlargest.1
    have hle := h.2 b hb
    have hsmall := h.1
    omega
  constructor
  · obtain ⟨hstored, hmax, hcycles, hnext⟩ := Ends.state hends
    rw [right_iff hseq rfl hstored fun _ => by rw [hmax, hcycles, int32Or_comm]]
    constructor
    · rintro ⟨hnumber, hgreatest⟩
      have hge := le_of_isGreatest (hnumber ▸ hgreatest hnext)
      refine ⟨?_, hge⟩
      by_contra hlarge
      have hneg := int32Or_neg (x := if seq < s.mMaxSeq then int32 (0 + RTP_SEQ_MOD) else 0)
        (y := seq) (by omega) (by omega)
      omega
    · intro h
      obtain ⟨hnumber, hge⟩ := hin h
      rw [if_neg hge, int32Or_zero, int32_eq (by omega) (by omega), hnumber]
      exact ⟨rfl, fun _ => isGreatest_cons h.2⟩
  · intro t out h hok
    obtain ⟨hnumber, hge⟩ := hin h
    have hrun := run_of_arrive hok
    rw [hseq] at hrun
    obtain ⟨-, hmax, hcycles, hnext⟩ := hends.of_ok hrun
    rw [if_neg hge] at hcycles
    refine ⟨hcycles, nofun, fun _ => ⟨hnext, ?_⟩⟩
    rw [hmax, hnumber]
    exact ⟨isGreatest_cons h.2, by omega, h.1⟩

end

/-- The numbers are right exactly for 15-bit numbers that come in order. -/
theorem numbering_right_iff {arrivals : List Arrival}
    (hnear : Meets arrive (fun past _ a => Near past a) [] new arrivals) :
    Meets arrive Right [] new arrivals ↔
      Meets arrive (fun past _ a => InOrder15 past a) [] new arrivals := by
  refine meets_iff Known ?_ ⟨rfl, fun _ => rfl, fun h => absurd rfl h⟩ hnear
  intro past s a hknown hnear
  by_cases hpast : past = []
  · subst hpast
    exact first_step hknown hnear
  · exact next_step hpast hknown hnear

/-- There is no assembler. -/
def idle : Env where
  arrivalUs := 0
  nowUs := 0
  makeAssembler := fun _ => .ok false
  processPacket := fun _ => none
  signalDiscontinuity := none
  requestRetransmission := none

def five : Arrival := ⟨idle, 5, [128, 33, 0, 5], ⟨0, 33, 0⟩, by decide⟩

def seven : Arrival := ⟨idle, 7, [128, 33, 0, 7], ⟨0, 33, 0⟩, by decide⟩

theorem numbering_right_of_in_order : Meets arrive Right [] new [five, seven] := by
  refine (numbering_right_iff ?_).mpr ?_
  · refine ⟨⟨fun _ => by decide, fun largest h => ?_⟩, fun _ _ _ => ⟨⟨nofun, ?_⟩, ?_⟩⟩
    · exact absurd h.1 (by simp [numbers])
    · rintro largest ⟨⟨b, hb, rfl⟩, -⟩
      cases List.mem_singleton.mp hb
      decide
    · exact fun _ _ _ => trivial
  · refine ⟨⟨by decide, by simp⟩, fun _ _ _ => ⟨⟨by decide, ?_⟩, fun _ _ _ => trivial⟩⟩
    intro b hb
    cases List.mem_singleton.mp hb
    decide

def half : Arrival := ⟨idle, 2 ^ 15, [128, 33, 128, 0], ⟨0, 33, 0⟩, by decide⟩

/-- The first packet already may get a negative number. -/
theorem numbering_not_right :
    ¬ ∀ arrivals, Meets arrive (fun past _ a => Near past a) [] new arrivals →
      Meets arrive Right [] new arrivals := by
  intro h
  have hright := h [half] ⟨⟨fun _ => by decide, fun largest h => ?_⟩, fun _ _ _ => trivial⟩
  · have hstored := hright.1.1 ⟨-2 ^ 15, 33, 0⟩ (by decide +kernel)
    exact absurd hstored (by decide)
  · exact absurd h.1 (by simp [numbers])

end MirrorCast.RTPReceiver.Source
