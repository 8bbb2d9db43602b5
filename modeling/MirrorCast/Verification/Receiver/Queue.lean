import MirrorCast.Program.RTPReceiver

/-! # The jitter queue of a source -/

namespace MirrorCast.RTPReceiver.Source

open Java

/-! ## Packets in order -/

/-- The packets are in order, and the awaited number is not behind any of them. -/
structure InOrder (awaiting : ℤ) (packets : List Packet) : Prop where
  sorted : packets.Pairwise fun p q => p.mInt32Data < q.mInt32Data
  awaited : ∀ p ∈ packets, awaiting ≤ p.mInt32Data

theorem InOrder.tail {awaiting : ℤ} {p : Packet} {ps : List Packet}
    (h : InOrder awaiting (p :: ps)) : InOrder awaiting ps where
  sorted := (List.pairwise_cons.mp h.sorted).2
  awaited := fun q hq => h.awaited q (by simp [hq])

/-- The packets behind the first one come after its number. -/
theorem InOrder.first_lt {awaiting : ℤ} {p : Packet} {ps : List Packet}
    (h : InOrder awaiting (p :: ps)) : ∀ q ∈ ps, p.mInt32Data < q.mInt32Data :=
  (List.pairwise_cons.mp h.sorted).1

theorem mem_insertFromBack {packet : Packet} {queue result : List Packet}
    (h : insertFromBack packet queue = some result) (p : Packet) :
    p ∈ result ↔ p = packet ∨ p ∈ queue := by
  fun_induction insertFromBack packet queue generalizing result with
  | case1 =>
      cases h
      simp
  | case2 last before heq => cases h
  | case3 last before hne hlt =>
      cases h
      simp
  | case4 last before hne hge ih =>
      obtain ⟨inserted, hinserted, rfl⟩ := Option.map_eq_some_iff.mp h
      rw [List.mem_cons, List.mem_cons, ih hinserted]
      exact or_left_comm

theorem insertFromBack_sorted {packet : Packet} {queue result : List Packet}
    (hqueue : queue.Pairwise fun p q => q.mInt32Data < p.mInt32Data)
    (h : insertFromBack packet queue = some result) :
    result.Pairwise fun p q => q.mInt32Data < p.mInt32Data := by
  fun_induction insertFromBack packet queue generalizing result with
  | case1 =>
      cases h
      simp
  | case2 last before heq => cases h
  | case3 last before hne hlt =>
      cases h
      refine List.pairwise_cons.mpr ⟨?_, hqueue⟩
      intro p hp
      rcases List.mem_cons.mp hp with rfl | hp
      · exact hlt
      · exact ((List.pairwise_cons.mp hqueue).1 p hp).trans hlt
  | case4 last before hne hge ih =>
      obtain ⟨inserted, hinserted, rfl⟩ := Option.map_eq_some_iff.mp h
      obtain ⟨hlast, hbefore⟩ := List.pairwise_cons.mp hqueue
      refine List.pairwise_cons.mpr ⟨?_, ih hbefore hinserted⟩
      intro p hp
      rcases (mem_insertFromBack hinserted p).mp hp with rfl | hp
      · omega
      · exact hlast p hp

theorem InOrder.insert {awaiting : ℤ} {packet : Packet} {packets result : List Packet}
    (h : InOrder awaiting packets) (hpacket : awaiting ≤ packet.mInt32Data)
    (hresult : insertFromBack packet packets.reverse = some result) :
    InOrder awaiting result.reverse where
  sorted := List.pairwise_reverse.mpr
    (insertFromBack_sorted (List.pairwise_reverse.mpr h.sorted) hresult)
  awaited := by
    intro p hp
    rcases (mem_insertFromBack hresult p).mp (List.mem_reverse.mp hp) with rfl | hp
    · exact hpacket
    · exact h.awaited p (List.mem_reverse.mp hp)

/-! ## What holds of the queue and its timer -/

/-- The fields of a source that the queue and its timer work with. -/
structure Queue where
  mPackets : List Packet
  mAwaitingExtSeqNo : ℤ
  mDeclareLostGeneration : ℤ
  mDeclareLostTimerPending : Bool
  outstanding : List Timer
  effects : List Effect

def queue (s : Source) : Queue :=
  ⟨s.mPackets, s.mAwaitingExtSeqNo, s.mDeclareLostGeneration, s.mDeclareLostTimerPending,
    s.outstanding, s.effects⟩

/-- The numbers of the packets handed to the assembler. -/
def handed (effects : List Effect) : List ℤ :=
  effects.filterMap fun
    | .processPacket packet => some packet.mInt32Data
    | _ => none

theorem handed_append (effects effects' : List Effect) :
    handed (effects ++ effects') = handed effects ++ handed effects' :=
  List.filterMap_append

theorem handed_log {effect : Effect} (hother : ∀ p, effect ≠ .processPacket p)
    {effects : List Effect} : handed (effects ++ [effect]) = handed effects := by
  rw [handed_append]
  cases effect with
  | processPacket p => exact absurd rfl (hother p)
  | _ => exact List.append_nil _

/-- A number that a packet of the queue may have. -/
def Numbered (packet : Packet) : Prop := 0 ≤ packet.mInt32Data ∧ packet.mInt32Data < 2 ^ 31 - 1

instance (packet : Packet) : Decidable (Numbered packet) := inferInstanceAs (Decidable (_ ∧ _))

/-- The generation has been counted up at most `n` times, and no message has a later one. -/
def Generations (n generation : ℤ) (outstanding : List Timer) : Prop :=
  ∃ count : ℤ, 0 ≤ count ∧ count ≤ n ∧ generation = int32 count ∧
    ∀ g, .declareLost g ∈ outstanding → ∃ earlier, 0 ≤ earlier ∧ earlier ≤ count ∧ g = int32 earlier

theorem Generations.mono {n n' generation : ℤ} {outstanding : List Timer}
    (h : Generations n generation outstanding) (hn : n ≤ n') :
    Generations n' generation outstanding := by
  obtain ⟨count, hnonneg, hcount, hrest⟩ := h
  exact ⟨count, hnonneg, hcount.trans hn, hrest⟩

/-- The next generation: no message has it, as the number has not wrapped around. -/
theorem Generations.next {n generation : ℤ} {outstanding : List Timer}
    (h : Generations n generation outstanding) (hn : n < 2 ^ 32 - 1) :
    Generations (n + 1) (int32 (generation + 1)) outstanding ∧
      outstanding.count (.declareLost (int32 (generation + 1))) = 0 := by
  obtain ⟨count, hnonneg, hcount, rfl, hearlier⟩ := h
  rw [int32_int32_add]
  constructor
  · refine ⟨count + 1, by omega, by omega, rfl, ?_⟩
    intro g hg
    obtain ⟨earlier, hnonneg', hle, rfl⟩ := hearlier g hg
    exact ⟨earlier, hnonneg', by omega, rfl⟩
  · rw [List.count_eq_zero]
    intro hmem
    obtain ⟨earlier, hnonneg', hle, heq⟩ := hearlier _ hmem
    have hmod := congrArg (· % 2 ^ 32) heq
    simp only [int32_emod] at hmod
    omega

/-- A message of the present generation is put in. -/
theorem Generations.post {n generation : ℤ} {outstanding : List Timer}
    (h : Generations n generation outstanding) :
    Generations n generation (outstanding ++ [.declareLost generation]) := by
  obtain ⟨count, hnonneg, hcount, rfl, hearlier⟩ := h
  refine ⟨count, hnonneg, hcount, rfl, ?_⟩
  intro g hg
  rcases List.mem_append.mp hg with hg | hg
  · exact hearlier g hg
  · cases List.mem_singleton.mp hg
    exact ⟨count, hnonneg, le_rfl, rfl⟩

theorem Generations.of_subset {n generation : ℤ} {outstanding outstanding' : List Timer}
    (h : Generations n generation outstanding) (hsubset : outstanding' ⊆ outstanding) :
    Generations n generation outstanding' := by
  obtain ⟨count, hnonneg, hcount, hgeneration, hearlier⟩ := h
  exact ⟨count, hnonneg, hcount, hgeneration, fun g hg => hearlier g (hsubset hg)⟩

/-- What holds at any time, also inside a handler. -/
structure Queue.Sound (q : Queue) : Prop where
  inOrder : InOrder q.mAwaitingExtSeqNo q.mPackets
  assigned : ∀ awaiting packets, .assigned awaiting packets ∈ q.effects → InOrder awaiting packets
  handed : (handed q.effects).Pairwise (· < ·)
  timer : q.outstanding.count (.declareLost q.mDeclareLostGeneration) =
    if q.mDeclareLostTimerPending then 1 else 0

/-- What holds wherever a handler is not in the middle of a packet. -/
structure Queue.Inside (q : Queue) : Prop extends q.Sound where
  lower : -1 ≤ q.mAwaitingExtSeqNo
  upper : q.mAwaitingExtSeqNo < 2 ^ 31
  numbered : ∀ p ∈ q.mPackets, Numbered p
  behind : ∀ e ∈ Source.handed q.effects, e < q.mAwaitingExtSeqNo
  generations : Generations (q.mAwaitingExtSeqNo + 1) q.mDeclareLostGeneration q.outstanding

/-- What holds between handlers. -/
structure Queue.Settled (q : Queue) : Prop extends q.Inside where
  strict : ∀ p ∈ q.mPackets, q.mAwaitingExtSeqNo < p.mInt32Data
  awaiting : q.mPackets ≠ [] → 0 ≤ q.mAwaitingExtSeqNo
  pending : q.mDeclareLostTimerPending = true → q.mPackets ≠ []

/-! ## Effects -/

def Queue.log (q : Queue) (effect : Effect) : Queue := { q with effects := q.effects ++ [effect] }

section

variable {q : Queue} {effect : Effect}

/-- An effect other than a packet for the assembler. -/
theorem Queue.Sound.log (h : q.Sound) (hother : ∀ p, effect ≠ .processPacket p)
    (hassigned : ∀ awaiting packets, effect = .assigned awaiting packets →
      InOrder awaiting packets) : (q.log effect).Sound where
  inOrder := h.inOrder
  assigned := by
    intro awaiting packets hmem
    rcases List.mem_append.mp hmem with hmem | hmem
    · exact h.assigned awaiting packets hmem
    · exact hassigned awaiting packets (List.mem_singleton.mp hmem).symm
  handed := (handed_log hother).symm ▸ h.handed
  timer := h.timer

theorem Queue.Inside.log (h : q.Inside) (hother : ∀ p, effect ≠ .processPacket p)
    (hassigned : ∀ awaiting packets, effect = .assigned awaiting packets →
      InOrder awaiting packets) : (q.log effect).Inside where
  toSound := h.toSound.log hother hassigned
  lower := h.lower
  upper := h.upper
  numbered := h.numbered
  behind := (handed_log hother).symm ▸ h.behind
  generations := h.generations

theorem Queue.Settled.log (h : q.Settled) (hother : ∀ p, effect ≠ .processPacket p)
    (hassigned : ∀ awaiting packets, effect ≠ .assigned awaiting packets) :
    (q.log effect).Settled where
  toInside := h.toInside.log hother fun _ _ heq => absurd heq (hassigned _ _)
  strict := h.strict
  awaiting := h.awaiting
  pending := h.pending

/-- An assignment is put on record as it is. -/
theorem Queue.Inside.log_assigned (h : q.Inside) :
    (q.log (.assigned q.mAwaitingExtSeqNo q.mPackets)).Inside := by
  refine h.log (fun _ => nofun) ?_
  intro awaiting packets heq
  cases heq
  exact h.inOrder

theorem Queue.Inside.set_packets {packets : List Packet} (h : q.Inside)
    (hinOrder : InOrder q.mAwaitingExtSeqNo packets) (hnumbered : ∀ p ∈ packets, Numbered p) :
    Queue.Inside { q with mPackets := packets } where
  inOrder := hinOrder
  assigned := h.assigned
  handed := h.handed
  timer := h.timer
  lower := h.lower
  upper := h.upper
  numbered := hnumbered
  behind := h.behind
  generations := h.generations

/-- The packet that is awaited goes to the assembler. -/
theorem Queue.Sound.log_processPacket {packet : Packet} (h : q.Sound)
    (hbehind : ∀ e ∈ Source.handed q.effects, e < packet.mInt32Data) :
    (q.log (.processPacket packet)).Sound where
  inOrder := h.inOrder
  assigned := by
    intro awaiting packets hmem
    rcases List.mem_append.mp hmem with hmem | hmem
    · exact h.assigned awaiting packets hmem
    · cases List.mem_singleton.mp hmem
  handed := by
    rw [Queue.log, handed_append]
    refine List.pairwise_append.mpr ⟨h.handed, List.pairwise_singleton _ _, ?_⟩
    intro e he e' he'
    cases List.mem_singleton.mp he'
    exact hbehind e he
  timer := h.timer

end

end MirrorCast.RTPReceiver.Source
