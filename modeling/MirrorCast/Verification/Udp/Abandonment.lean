import MirrorCast.Verification.Udp.Splicing

/-! # Abandonment: what is handed over after a frame was damaged -/

namespace MirrorCast.Udp

open Java Pieces MediaClient MediaServer

/-! ## The order of sending -/

/-- Fragment `g` is sent before `g'`. -/
def Before (g g' : Fragment) : Prop :=
  g.position < g'.position ∨ (g.position = g'.position ∧ g.number < g'.number)

theorem getElem?_of_mem_fragmentsFrom {position : ℕ} {fs : List Frame} {g : Fragment}
    (hg : g ∈ fragmentsFrom position fs) :
    position ≤ g.position ∧ fs[g.position - position]? = some g.frame := by
  induction fs generalizing position with
  | nil => simp [fragmentsFrom] at hg
  | cons f fs ih =>
      rw [fragmentsFrom, List.mem_append] at hg
      rcases hg with hg | hg
      · obtain ⟨i, hi, rfl⟩ := List.mem_map.mp hg
        simp
      · obtain ⟨hle, hget⟩ := ih hg
        refine ⟨by omega, ?_⟩
        rw [show g.position - position = (g.position - (position + 1)) + 1 by omega,
          List.getElem?_cons_succ]
        exact hget

theorem pairwise_fragmentsFrom (position : ℕ) (fs : List Frame) :
    (fragmentsFrom position fs).Pairwise Before := by
  induction fs generalizing position with
  | nil => exact List.Pairwise.nil
  | cons f fs ih =>
      rw [fragmentsFrom, List.pairwise_append]
      refine ⟨?_, ih (position + 1), ?_⟩
      · rw [fragmentsOf, List.pairwise_map]
        refine List.pairwise_lt_range.imp ?_
        intro i j hij
        exact Or.inr ⟨rfl, Nat.succ_lt_succ hij⟩
      · intro g hg g' hg'
        obtain ⟨i, -, rfl⟩ := List.mem_map.mp hg
        have hle := (getElem?_of_mem_fragmentsFrom hg').1
        exact Or.inl hle

/-- The fragments that arrive: sent ones, in the order of sending. -/
structure Delivery (gs : List Fragment) : Prop where
  inOrder : gs.Pairwise Before
  oneFrame : ∀ g ∈ gs, ∀ g' ∈ gs, g.position = g'.position → g.frame = g'.frame
  sent : ∀ g ∈ gs, g.Sent

theorem delivery_of_sublist {fs : List Frame} {gs : List Fragment}
    (h : gs.Sublist (fragments fs)) : Delivery gs := by
  refine ⟨(pairwise_fragmentsFrom 0 fs).sublist h, ?_, ?_⟩
  · intro g hg g' hg' hposition
    have hframe := (getElem?_of_mem_fragmentsFrom (h.subset hg)).2
    have hframe' := (getElem?_of_mem_fragmentsFrom (h.subset hg')).2
    rw [hposition, hframe'] at hframe
    exact (Option.some.inj hframe).symm
  · intro g hg
    exact (sent_of_mem_fragmentsFrom (h.subset hg)).1

section Split

variable {gs past rest : List Fragment} {g : Fragment}

theorem before_of_mem_past (hd : Delivery gs) (hgs : gs = past.reverse ++ g :: rest)
    {p : Fragment} (hp : p ∈ past) : Before p g := by
  have horder := hd.inOrder
  rw [hgs, List.pairwise_append] at horder
  exact horder.2.2 p (List.mem_reverse.mpr hp) g List.mem_cons_self

theorem before_of_mem_rest (hd : Delivery gs) (hgs : gs = past.reverse ++ g :: rest)
    {p : Fragment} (hp : p ∈ rest) : Before g p := by
  have horder := hd.inOrder
  rw [hgs, List.pairwise_append, List.pairwise_cons] at horder
  exact horder.2.1.1 p hp

theorem before_head (hd : Delivery gs) (hgs : gs = past.reverse ++ g :: rest)
    {p q : Fragment} (hp : past.head? = some p) (hq : q ∈ past) : q = p ∨ Before q p := by
  have horder := hd.inOrder
  rw [hgs, List.pairwise_append, List.pairwise_reverse] at horder
  cases past with
  | nil => cases hp
  | cons a past =>
      cases hp
      rcases List.mem_cons.mp hq with rfl | hq
      · exact Or.inl rfl
      · exact Or.inr ((List.pairwise_cons.mp horder.1).1 q hq)

/-- A predecessor that arrived arrived last. -/
theorem head_of_follows (hd : Delivery gs) (hgs : gs = past.reverse ++ g :: rest) {p : Fragment}
    (hp : p ∈ gs) (hfollows : g.Follows p) : past.head? = some p := by
  obtain ⟨hposition, -, hnumber⟩ := hfollows
  rw [hgs, List.mem_append, List.mem_reverse, List.mem_cons] at hp
  rcases hp with hp | rfl | hp
  · cases hhead : past.head? with
    | none => simp [List.head?_eq_none_iff.mp hhead] at hp
    | some q =>
        have hq := before_of_mem_past hd hgs (List.mem_of_mem_head? hhead)
        rcases before_head hd hgs hhead hp with rfl | hbefore
        · rfl
        · unfold Before at hq hbefore
          omega
  · omega
  · have hbefore := before_of_mem_rest hd hgs hp
    unfold Before at hbefore
    omega

/-- A successor that arrives arrives next. -/
theorem eq_of_follows (hd : Delivery gs) (hgs : gs = past.reverse ++ g :: rest) {p q : Fragment}
    (hp : past.head? = some p) (hq : q ∈ gs) (hfollows : q.Follows p) : g = q := by
  obtain ⟨hposition, -, hnumber⟩ := hfollows
  have hg := before_of_mem_past hd hgs (List.mem_of_mem_head? hp)
  rw [hgs, List.mem_append, List.mem_reverse, List.mem_cons] at hq
  rcases hq with hq | rfl | hq
  · rcases before_head hd hgs hp hq with rfl | hbefore
    · omega
    · unfold Before at hbefore
      omega
  · rfl
  · have hbefore := before_of_mem_rest hd hgs hq
    unfold Before at hg hbefore
    omega

end Split

/-! ## Damage -/

/-- Some but not all fragments of the non-key frame at position `p` are among `gs`. -/
def Damaged (gs : List Fragment) (p : ℕ) : Prop :=
  ∃ g ∈ gs, g.position = p ∧ g.frame.isKey = false ∧
    ∃ k, 1 ≤ k ∧ k ≤ fragmentCount g.frame ∧ Fragment.mk p g.frame k ∉ gs

/-- The arrival of `g` shows that the non-key frame at position `p` lost a fragment: the
fragment before it was not the last of its frame and `g` is not its successor, or `g`
itself is not preceded by its predecessor. -/
def RevealsAt (past : List Fragment) (g : Fragment) (p : ℕ) : Prop :=
  (∃ q, past.head? = some q ∧ q.position = p ∧ q.frame.isKey = false ∧
      q.number < fragmentCount q.frame ∧ ¬ g.Follows q) ∨
    (g.position = p ∧ g.frame.isKey = false ∧ g.number ≠ 1 ∧
      ¬ ∃ q, past.head? = some q ∧ g.Follows q)

/-- The loss of a fragment of the frame at position `p` has shown. -/
def Revealed : List Fragment → ℕ → Prop
  | [], _ => False
  | g :: past, p => Revealed past p ∨ RevealsAt past g p

/-- As long as no loss has shown, all fragments before one that arrived have arrived. -/
theorem mem_of_not_revealed {past : List Fragment} {q : Fragment} (h : ¬ Revealed past q.position)
    (hq : q ∈ past) (hkey : q.frame.isKey = false) {k : ℕ} (hk : 1 ≤ k) (hle : k ≤ q.number) :
    Fragment.mk q.position q.frame k ∈ past := by
  induction past generalizing q with
  | nil => cases hq
  | cons g past ih =>
      unfold Revealed at h
      push Not at h
      rcases List.mem_cons.mp hq with rfl | hq
      · by_cases hlast : k = q.number
        · subst hlast
          exact List.mem_cons_self
        · have hreveals := h.2
          unfold RevealsAt at hreveals
          push Not at hreveals
          obtain ⟨p, hp, hposition, hframe, hnumber⟩ := hreveals.2 rfl hkey (by omega)
          have hmem := ih (q := p) (hposition ▸ h.1) (List.mem_of_mem_head? hp) (hframe ▸ hkey)
            (by omega)
          rw [hposition, hframe]
          exact List.mem_cons_of_mem _ hmem
      · exact List.mem_cons_of_mem _ (ih h.1 hq hkey hle)

/-- As long as no loss has shown, a frame that is over has arrived to its end. -/
theorem last_of_not_revealed {past : List Fragment} {g q : Fragment}
    (h : ¬ Revealed (g :: past) q.position) (hq : q ∈ past) (hkey : q.frame.isKey = false)
    (hone : ∀ p ∈ past, p.position = q.position → p.frame = q.frame)
    (hg : g.position ≠ q.position) :
    ∃ p ∈ past, p.position = q.position ∧ fragmentCount p.frame ≤ p.number := by
  induction past generalizing g with
  | nil => cases hq
  | cons a past ih =>
      by_cases ha : a.position = q.position
      · refine ⟨a, List.mem_cons_self, ha, ?_⟩
        by_contra hmore
        have hnot : ¬ RevealsAt (a :: past) g q.position := fun hr => h (Or.inr hr)
        unfold RevealsAt at hnot
        push Not at hnot
        have hframe := hone a List.mem_cons_self ha
        have hfollows := hnot.1 a rfl ha (by rw [hframe]; exact hkey) (by omega)
        exact hg (hfollows.1.trans ha)
      · have hmem : q ∈ past := by
          rcases List.mem_cons.mp hq with rfl | hmem
          · exact absurd rfl ha
          · exact hmem
        obtain ⟨p, hp, hresult⟩ := ih (g := a) (fun hr => h (Or.inl hr)) hmem
          (fun p hp => hone p (List.mem_cons_of_mem a hp)) ha
        exact ⟨p, List.mem_cons_of_mem a hp, hresult⟩

/-- Damage of an earlier frame has shown when a fragment of a later frame arrives. -/
theorem revealed_of_damaged {gs past rest : List Fragment} {g : Fragment} {p : ℕ}
    (hd : Delivery gs) (hgs : gs = past.reverse ++ g :: rest) (hp : p < g.position)
    (hdamaged : Damaged gs p) : Revealed (g :: past) p := by
  obtain ⟨q, hq, rfl, hkey, k, hk, hle, hmissing⟩ := hdamaged
  by_contra hnot
  have hsubset : ∀ a ∈ past, a ∈ gs := by
    intro a ha
    rw [hgs]
    exact List.mem_append_left _ (List.mem_reverse.mpr ha)
  have hpast : q ∈ past := by
    rw [hgs, List.mem_append, List.mem_reverse, List.mem_cons] at hq
    rcases hq with hq | rfl | hq
    · exact hq
    · omega
    · have hbefore := before_of_mem_rest hd hgs hq
      unfold Before at hbefore
      omega
  have hone : ∀ a ∈ past, a.position = q.position → a.frame = q.frame :=
    fun a ha => hd.oneFrame a (hsubset a ha) q (hsubset q hpast)
  obtain ⟨last, hlast, hposition, hnumber⟩ :=
    last_of_not_revealed hnot hpast hkey hone (by omega)
  have hframe := hone last hlast hposition
  have hquiet : ¬ Revealed past last.position := by
    rw [hposition]
    exact fun hr => hnot (Or.inl hr)
  have hmem := mem_of_not_revealed hquiet hlast (by rw [hframe]; exact hkey) hk
    (by rw [hframe] at hnumber; omega)
  rw [hposition, hframe] at hmem
  exact hmissing (hsubset _ hmem)

theorem Revealed.exists_mem {past : List Fragment} {p : ℕ} (h : Revealed past p) :
    ∃ q ∈ past, q.position = p ∧ q.frame.isKey = false := by
  induction past with
  | nil => cases h
  | cons g past ih =>
      rcases h with h | ⟨q, hq, hposition, hkey, -⟩ | ⟨hposition, hkey, -⟩
      · obtain ⟨q, hq, hresult⟩ := ih h
        exact ⟨q, List.mem_cons_of_mem g hq, hresult⟩
      · exact ⟨q, List.mem_cons_of_mem g (List.mem_of_mem_head? hq), hposition, hkey⟩
      · exact ⟨g, List.mem_cons_self, hposition, hkey⟩

/-! ## Recovery -/

/-- Every fragment of the frame of `g` is among `gs`. -/
def AllArrive (gs : List Fragment) (g : Fragment) : Prop :=
  ∀ k, 1 ≤ k → k ≤ fragmentCount g.frame → Fragment.mk g.position g.frame k ∈ gs

/-- A key frame sent after position `p` was handed over complete. -/
def Healed (done : List (Fragment × LoopEvent)) (p : ℕ) : Prop :=
  ∃ e ∈ done, e.1.frame.isKey = true ∧ p < e.1.position ∧ e.2 = .putData e.1.frame.delivered

/-- No array that ends with a fragment of a non-key frame is handed over after an earlier
frame was damaged, unless a complete key frame came in between. -/
def Recovers (gs : List Fragment) (events : List (Fragment × LoopEvent)) : Prop :=
  ∀ before e after, events = before ++ e :: after → e.1.frame.isKey = false →
    (∃ d, e.2 = .putData d) → ∀ p < e.1.position, Damaged gs p → Healed before p

/-- Losses that the loop copes with: a loss shows when the flag is up, or on a fragment that
raises it, or on a key frame; and a key frame of which anything arrives while the flag is up
or when a loss shows arrives completely, with a counter that does not wrap. -/
structure Noticed (gs past : List Fragment) (s : LoopState) (g : Fragment) : Prop where
  raises : ∀ p, RevealsAt past g p →
    s.needToAbandon = true ∨ g.frame.isKey = true ∨ Mismatches s g
  recovers : g.frame.isKey = true → (s.needToAbandon = true ∨ ∃ p, RevealsAt past g p) →
    Numbered g.frame ∧ AllArrive gs g

theorem Healed.append {done : List (Fragment × LoopEvent)} {p : ℕ} (h : Healed done p)
    (new : List (Fragment × LoopEvent)) : Healed (done ++ new) p := by
  obtain ⟨e, he, hresult⟩ := h
  exact ⟨e, List.mem_append_left _ he, hresult⟩

theorem recovers_append {gs : List Fragment} {done new : List (Fragment × LoopEvent)}
    (h : Recovers gs done)
    (hnew : ∀ e ∈ new, e.1.frame.isKey = false → (∃ d, e.2 = .putData d) →
      ∀ p < e.1.position, Damaged gs p → Healed done p) : Recovers gs (done ++ new) := by
  intro before e after hsplit hkey hput p hp hdamaged
  rcases List.append_eq_append_iff.mp hsplit with ⟨front, rfl, hrest⟩ | ⟨tail, hdone, htail⟩
  · refine (hnew e ?_ hkey hput p hp hdamaged).append front
    rw [hrest]
    exact List.mem_append_right _ List.mem_cons_self
  · cases tail with
    | nil =>
        rw [List.append_nil] at hdone
        subst hdone
        rw [List.nil_append] at htail
        exact hnew e (by rw [← htail]; exact List.mem_cons_self) hkey hput p hp hdamaged
    | cons e' tail =>
        obtain ⟨rfl, -⟩ := List.cons.inj htail
        exact h before e tail hdone hkey hput p hp hdamaged

/-- A key frame sent after position `p` is arriving completely. -/
structure Healing (gs past : List Fragment) (s : LoopState) (p : ℕ) (q : Fragment) : Prop where
  head : past.head? = some q
  isKey : q.frame.isKey = true
  later : p < q.position
  more : q.number < fragmentCount q.frame
  size : LIMIT_DATA < q.frame.data.length
  state : s = assembling q.frame q.number
  numbered : Numbered q.frame
  whole : AllArrive gs q

/-- The invariant: damage that has shown is healed, being healed, or flagged. -/
structure Guarded (gs past : List Fragment) (done : List (Fragment × LoopEvent))
    (s : LoopState) : Prop where
  outstanding : ∀ p, Revealed past p →
    Healed done p ∨ s.needToAbandon = true ∨ ∃ q, Healing gs past s p q
  lowered : ∀ q, past.head? = some q → q.frame.isKey = true → s.needToAbandon = false
  recovered : Recovers gs done

section Step

variable {gs past rest : List Fragment} {done : List (Fragment × LoopEvent)}
  {s s' : LoopState} {g : Fragment} {out : List LoopEvent} {p : ℕ}

/-- A key frame that the loop sees while damage is outstanding starts with its first fragment. -/
theorem number_eq_one (hd : Delivery gs) (hgs : gs = past.reverse ++ g :: rest)
    (hguarded : Guarded gs past done s) (hkey : g.frame.isKey = true)
    (hout : s.needToAbandon = true ∨ ∃ p, RevealsAt past g p) (hwhole : AllArrive gs g) :
    g.number = 1 := by
  by_contra hne
  have hsent := hd.sent g (by rw [hgs]; simp)
  obtain ⟨hlo, hhi⟩ := hsent
  have hpred := hwhole (g.number - 1) (by omega) (by omega)
  have hfollows : g.Follows ⟨g.position, g.frame, g.number - 1⟩ :=
    ⟨rfl, rfl, (Nat.sub_add_cancel hlo).symm⟩
  have hhead := head_of_follows hd hgs hpred hfollows
  have hflag := hguarded.lowered _ hhead hkey
  rcases hout with hflag' | ⟨p, ⟨q, hq, -, hnot, -⟩ | ⟨-, hnot, -⟩⟩
  · rw [hflag] at hflag'
    cases hflag'
  · rw [hhead] at hq
    cases hq
    rw [hkey] at hnot
    cases hnot
  · rw [hkey] at hnot
    cases hnot

theorem healed_arrived (done : List (Fragment × LoopEvent)) (hkey : g.frame.isKey = true)
    (hp : p < g.position) : Healed (done ++ (arrived g.frame).map (Prod.mk g)) p := by
  refine ⟨(g, .putData g.frame.delivered), ?_, hkey, hp, rfl⟩
  simp [arrived]

/-- The first fragment of a complete key frame starts the recovery. -/
theorem heal_start (hnumber : g.number = 1) (hkey : g.frame.isKey = true) (hp : p < g.position)
    (hnum : Numbered g.frame) (hwhole : AllArrive gs g) (h : receive s g = .ok (s', out)) :
    Healed (done ++ out.map (Prod.mk g)) p ∨ ∃ q, Healing gs (g :: past) s' p q := by
  by_cases hw : g.Whole
  · rw [receive_whole (Or.inr hkey) hw] at h
    obtain ⟨-, rfl⟩ := Prod.mk.inj (Except.ok.inj h)
    exact Or.inl (healed_arrived done hkey hp)
  · have hlen : LIMIT_DATA < g.frame.data.length := Nat.lt_of_not_le hw
    have htwo : 2 ≤ fragmentCount g.frame := by
      rw [fragmentCount_of_not_whole hlen]
      exact count_pos hlen (by decide)
    rw [receive_first (Or.inr hkey) hw (by rw [counter_of_not_whole hw, hnumber]; rfl),
      if_pos hnum.2,
      opened_eq hw hnumber] at h
    obtain ⟨rfl, -⟩ := Prod.mk.inj (Except.ok.inj h)
    exact Or.inr ⟨g, rfl, hkey, hp, by omega, hlen, by rw [hnumber], hnum, hwhole⟩

/-- While a complete key frame is arriving, its next fragment comes next. -/
theorem follows_of_healing (hd : Delivery gs) (hgs : gs = past.reverse ++ g :: rest) {q : Fragment}
    (hheal : Healing gs past s p q) : g.Follows q := by
  have hmore := hheal.more
  have hnext := hheal.whole (q.number + 1) (by omega) (by omega)
  rw [eq_of_follows hd hgs hheal.head hnext ⟨rfl, rfl, rfl⟩]
  exact ⟨rfl, rfl, rfl⟩

/-- The next fragment of a complete key frame continues the recovery. -/
theorem heal_continue (hd : Delivery gs) (hgs : gs = past.reverse ++ g :: rest) {q : Fragment}
    (hheal : Healing gs past s p q) (h : receive s g = .ok (s', out)) :
    Healed (done ++ out.map (Prod.mk g)) p ∨ ∃ q, Healing gs (g :: past) s' p q := by
  have hmore := hheal.more
  obtain ⟨hposition, hframe, hnumber⟩ := follows_of_healing hd hgs hheal
  have hw : ¬ g.Whole := by
    rw [Fragment.Whole, hframe]
    exact Nat.not_le_of_lt hheal.size
  have hcounter : g.counter % 2 ^ 16 = q.number + 1 := by
    have hwrap := hheal.numbered.1
    rw [counter_of_not_whole hw, hnumber]
    exact Nat.mod_eq_of_lt (by omega)
  have hpos : 1 ≤ q.number := by
    have hmem : q ∈ gs := by
      rw [hgs]
      exact List.mem_append_left _ (List.mem_reverse.mpr (List.mem_of_mem_head? hheal.head))
    exact (hd.sent q hmem).1
  have hpasses : Passes g q.number := ⟨hw, by omega, fun _ => hcounter⟩
  have hkey : g.frame.isKey = true := by rw [hframe]; exact hheal.isKey
  have hlater : p < g.position := by rw [hposition]; exact hheal.later
  rw [hheal.state, ← hframe] at h
  rw [← hframe] at hmore
  by_cases hlast : q.number + 1 < fragmentCount g.frame
  · rw [receive_middle_assembling hpasses hnumber hlast] at h
    obtain ⟨rfl, -⟩ := Prod.mk.inj (Except.ok.inj h)
    refine Or.inr ⟨g, rfl, hkey, hlater, by omega, Nat.lt_of_not_le hw, by rw [hnumber], ?_, ?_⟩
    · rw [hframe]
      exact hheal.numbered
    · unfold AllArrive
      rw [hframe, hposition]
      exact hheal.whole
  · rw [receive_last_assembling hpasses hnumber (by omega)] at h
    obtain ⟨-, rfl⟩ := Prod.mk.inj (Except.ok.inj h)
    exact Or.inl (healed_arrived done hkey hlater)

/-- Damage that has shown lies at the position of an earlier frame, or at `g`'s own. -/
theorem position_lt_of_revealed (hd : Delivery gs) (hgs : gs = past.reverse ++ g :: rest)
    (hkey : g.frame.isKey = true) (h : Revealed (g :: past) p) : p < g.position := by
  obtain ⟨q, hq, rfl, hnot⟩ := h.exists_mem
  have hmem : ∀ a ∈ g :: past, a ∈ gs := by
    intro a ha
    rw [hgs, List.mem_append, List.mem_reverse, List.mem_cons]
    rcases List.mem_cons.mp ha with rfl | ha
    · exact Or.inr (Or.inl rfl)
    · exact Or.inl ha
  have hne : q.position ≠ g.position := by
    intro heq
    have hframe := hd.oneFrame q (hmem q hq) g (hmem g List.mem_cons_self) heq
    rw [hframe, hkey] at hnot
    cases hnot
  rcases List.mem_cons.mp hq with rfl | hq
  · exact absurd rfl hne
  · have hbefore := before_of_mem_past hd hgs hq
    unfold Before at hbefore
    omega

/-- What an outstanding damage needs of one datagram: the flag stays up or goes up, or a
recovery starts. -/
theorem outstanding_step (hd : Delivery gs) (hgs : gs = past.reverse ++ g :: rest)
    (hguarded : Guarded gs past done s) (hnoticed : Noticed gs past s g)
    (h : receive s g = .ok (s', out)) (hrevealed : Revealed (g :: past) p)
    (hopen : s.needToAbandon = true ∨ RevealsAt past g p) :
    s'.needToAbandon = true ∨ Healed (done ++ out.map (Prod.mk g)) p ∨
      ∃ q, Healing gs (g :: past) s' p q := by
  cases hkey : g.frame.isKey with
  | true =>
      have hout : s.needToAbandon = true ∨ ∃ p, RevealsAt past g p := hopen.imp_right (⟨p, ·⟩)
      obtain ⟨hnum, hwhole⟩ := hnoticed.recovers hkey hout
      have hnumber := number_eq_one hd hgs hguarded hkey hout hwhole
      have hp := position_lt_of_revealed hd hgs hkey hrevealed
      exact Or.inr (heal_start hnumber hkey hp hnum hwhole h)
  | false =>
      left
      have houtcome := receive_outcome h
      have hflag : s.needToAbandon = true ∨ Mismatches s g := by
        rcases hopen with hflag | hreveals
        · exact Or.inl hflag
        · rcases hnoticed.raises p hreveals with hflag | hyes | hmismatch
          · exact Or.inl hflag
          · rw [hkey] at hyes
            cases hyes
          · exact Or.inr hmismatch
      by_cases hup : s.needToAbandon = true
      · exact needToAbandon_of_not_key houtcome hkey hup
      · have hmismatch := hflag.resolve_left hup
        have haccepts : Accepts s g.frame := Or.inl (by simpa using hup)
        have hdamaged := receive_of_accepts haccepts
        rw [if_neg hmismatch.not_whole, if_neg hmismatch.not_first,
          if_neg (fun hboth => hmismatch.other_length hboth.2), if_neg (by simp [hkey]), h]
          at hdamaged
        obtain ⟨rfl, -⟩ := Prod.mk.inj (Except.ok.inj hdamaged)
        rfl

/-- One datagram keeps the invariant. -/
theorem guarded_step (hd : Delivery gs) (hgs : gs = past.reverse ++ g :: rest)
    (hguarded : Guarded gs past done s) (hnoticed : Noticed gs past s g)
    (h : receive s g = .ok (s', out)) :
    Guarded gs (g :: past) (done ++ out.map (Prod.mk g)) s' := by
  have houtcome := receive_outcome h
  constructor
  · intro p hrevealed
    have hnext : s.needToAbandon = true ∨ RevealsAt past g p →
        Healed (done ++ out.map (Prod.mk g)) p ∨ s'.needToAbandon = true ∨
          ∃ q, Healing gs (g :: past) s' p q := by
      intro hopen
      rcases outstanding_step hd hgs hguarded hnoticed h hrevealed hopen with hup | hheal | hheal
      · exact Or.inr (Or.inl hup)
      · exact Or.inl hheal
      · exact Or.inr (Or.inr hheal)
    rcases hrevealed with hrevealed | hreveals
    · rcases hguarded.outstanding p hrevealed with hhealed | hflag | ⟨q, hheal⟩
      · exact Or.inl (hhealed.append _)
      · exact hnext (Or.inl hflag)
      · rcases heal_continue hd hgs hheal h with hhealed | hheal'
        · exact Or.inl hhealed
        · exact Or.inr (Or.inr hheal')
    · exact hnext (Or.inr hreveals)
  · intro q hq hkey
    cases hq
    exact needToAbandon_of_key houtcome hkey
  · refine recovers_append hguarded.recovered ?_
    intro e he hkey hput p hp hdamaged
    obtain ⟨o, ho, rfl⟩ := List.mem_map.mp he
    obtain ⟨d, hd'⟩ := hput
    have hmem : LoopEvent.putData d ∈ out := by
      rw [← hd']
      exact ho
    obtain ⟨hflag, hmatch⟩ := open_of_putData houtcome hkey hmem
    have hflag' : ¬ s.needToAbandon = true := by simp [hflag]
    rcases revealed_of_damaged hd hgs hp hdamaged with hrevealed | hreveals
    · rcases hguarded.outstanding p hrevealed with hhealed | hup | ⟨q, hheal⟩
      · exact hhealed
      · exact absurd hup hflag'
      · have hframe := (follows_of_healing hd hgs hheal).2.1
        have hyes := hheal.isKey
        rw [← hframe] at hyes
        simp only at hkey
        rw [hkey] at hyes
        cases hyes
    · rcases hnoticed.raises p hreveals with hup | hyes | hmismatch
      · exact absurd hup hflag'
      · simp only at hkey
        rw [hkey] at hyes
        cases hyes
      · exact absurd hmismatch hmatch

end Step

/-- When every loss that shows raises the flag and every key frame needed for the recovery
arrives completely, the rest of a damaged group of pictures is abandoned. -/
theorem abandons_damaged_group (fs : List Frame) (gs : List Fragment)
    (hgs : gs.Sublist (fragments fs))
    (hnoticed : Machine.Meets receive (Noticed gs) [] .initial gs) :
    Recovers gs (Machine.outputs (Machine.tagged receive) .initial gs) := by
  have hd := delivery_of_sublist hgs
  have hstart : Guarded gs [] [] LoopState.initial := by
    constructor
    · intro p hp
      cases hp
    · intro q hq
      cases hq
    · intro before e after hsplit
      cases before with
      | nil => cases hsplit
      | cons e' before => cases hsplit
  have hmeets := Machine.meets_and hnoticed (Machine.meets_split receive [] .initial gs)
  obtain ⟨past, s, hguarded⟩ := Machine.tagged_invariant (Guarded gs)
    (fun past done s g s' out hguarded hc h => by
      obtain ⟨hnoticed, rest, hsplit⟩ := hc
      exact guarded_step hd hsplit hguarded hnoticed h) hstart hmeets
  exact hguarded.recovered

/-! ## A damaged frame that nothing notices -/

/-- A frame of one byte. -/
def tiny (flags : ℤ) : Frame := ⟨[7], true, flags, length_one_byte_lt⟩

theorem whole_tiny (position : ℕ) (flags : ℤ) : (Fragment.mk position (tiny flags) 1).Whole :=
  show 1 ≤ LIMIT_DATA by decide

theorem fragmentCount_tiny (flags : ℤ) : fragmentCount (tiny flags) = 1 :=
  if_pos (whole_tiny 0 flags)

theorem fragmentsOf_tiny (position : ℕ) (flags : ℤ) :
    fragmentsOf position (tiny flags) = [⟨position, tiny flags, 1⟩] := by
  rw [fragmentsOf, fragmentCount_tiny]
  rfl

theorem fragmentsOf_plain (position : ℕ) (c : UInt8) :
    fragmentsOf position (plain c) = [⟨position, plain c, 1⟩, ⟨position, plain c, 2⟩] := by
  rw [fragmentsOf, fragmentCount_plain]
  rfl

theorem delivers_after_damage : ¬ ∀ (fs : List Frame) (gs : List Fragment),
    gs.Sublist (fragments fs) →
      Recovers gs (Machine.outputs (Machine.tagged receive) .initial gs) := by
  intro h
  have hsub : [Fragment.mk 0 (plain 0) 1, ⟨1, tiny 0, 1⟩].Sublist
      (fragments [plain 0, tiny 0]) := by
    simp only [fragments, fragmentsFrom, fragmentsOf_plain, fragmentsOf_tiny]
    exact .cons_cons _ (.cons _ (.cons_cons _ .slnil))
  have hfirst := Machine.tagged_of_ok (receive_plain_first .initial 0 0 rfl)
  have hsecond := Machine.tagged_of_ok
    (receive_whole (s := assembling (plain 0) 1) (Or.inl rfl) (whole_tiny 1 0))
  have hevents : Machine.outputs (Machine.tagged receive) .initial
      [Fragment.mk 0 (plain 0) 1, ⟨1, tiny 0, 1⟩] =
      [(⟨1, tiny 0, 1⟩, .putData (tiny 0).delivered)] := by
    rw [Machine.outputs_cons_of_ok hfirst, Machine.outputs_cons_of_ok hsecond]
    rfl
  have hdamaged : Damaged [Fragment.mk 0 (plain 0) 1, ⟨1, tiny 0, 1⟩] 0 := by
    refine ⟨_, List.mem_cons_self, rfl, rfl, 2, by omega, ?_, ?_⟩
    · rw [fragmentCount_plain]
    · simp
  have hrecovers := h _ _ hsub
  rw [hevents] at hrecovers
  obtain ⟨e, he, -⟩ := hrecovers [] _ [] rfl rfl ⟨_, rfl⟩ 0 Nat.one_pos hdamaged
  cases he

theorem abandons_damaged_group_after_loss :
    Recovers [⟨0, plain 0, 2⟩, ⟨1, tiny 0, 1⟩, ⟨2, tiny 1, 1⟩, ⟨3, tiny 0, 1⟩]
      (Machine.outputs (Machine.tagged receive) .initial
        [⟨0, plain 0, 2⟩, ⟨1, tiny 0, 1⟩, ⟨2, tiny 1, 1⟩, ⟨3, tiny 0, 1⟩]) := by
  have hw := not_whole_plain 0 2 0
  have hcounter : (Fragment.mk 0 (plain 0) 2).counter % 2 ^ 16 ≠ 1 := by
    rw [counter_of_not_whole hw]
    show 2 % 2 ^ 16 ≠ 1
    decide
  have hlength : LoopState.initial.tempLength ≠ (plain 0).data.length := by
    rw [length_plain]
    decide
  have hraised : receive .initial ⟨0, plain 0, 2⟩ =
      .ok ({ LoopState.initial with needToAbandon := true }, [.drainFrame]) := by
    rw [receive_of_accepts (Or.inl rfl), if_neg hw, if_neg hcounter,
      if_neg (fun hboth => hlength hboth.2)]
    rfl
  have hskipped : receive { LoopState.initial with needToAbandon := true } ⟨1, tiny 0, 1⟩ =
      .ok ({ LoopState.initial with needToAbandon := true }, []) :=
    receive_abandoned (by unfold Accepts; decide)
  have hkey : receive { LoopState.initial with needToAbandon := true } ⟨2, tiny 1, 1⟩ =
      .ok (complete (tiny 1), arrived (tiny 1)) :=
    receive_whole (g := ⟨2, tiny 1, 1⟩) (Or.inr rfl) (whole_tiny 2 1)
  refine abandons_damaged_group [plain 0, tiny 0, tiny 1, tiny 0] _ ?_ ?_
  · simp only [fragments, fragmentsFrom, fragmentsOf_plain, fragmentsOf_tiny]
    exact .cons _ (.cons_cons _ (.cons_cons _ (.cons_cons _ (.cons_cons _ .slnil))))
  · rw [Machine.meets_cons_of_ok hraised, Machine.meets_cons_of_ok hskipped,
      Machine.meets_cons_of_ok hkey]
    refine ⟨⟨fun p _ => Or.inr (Or.inr ⟨hw, hcounter, hlength⟩), fun hyes => by cases hyes⟩,
      ⟨fun p _ => Or.inl rfl, fun hyes => by cases hyes⟩,
      ⟨fun p _ => Or.inl rfl, fun _ _ => ⟨?_, ?_⟩⟩,
      ⟨fun p hreveals => ?_, fun hyes => by cases hyes⟩, fun _ _ _ => trivial⟩
    · exact numbered_of_length_le (by decide)
    · intro k hk hle
      have hk : k = 1 := by
        rw [fragmentCount_tiny] at hle
        omega
      subst hk
      simp
    · rcases hreveals with ⟨q, hq, -, hno, -⟩ | ⟨-, -, hne, -⟩
      · cases hq
        cases hno
      · exact absurd rfl hne

end MirrorCast.Udp
