import MirrorCast.Verification.Udp.Outcomes

/-! # Splicing: which arrays are handed over when datagrams are lost -/

namespace MirrorCast.Udp

open Java Pieces MediaClient MediaServer

/-- One byte is few enough for a frame. -/
theorem length_one_byte_lt : [(7 : UInt8)].length < 2 ^ 31 := by decide

/-- Fragment `g` is sent right after `p`, of the same frame. -/
def Fragment.Follows (g p : Fragment) : Prop :=
  g.position = p.position ∧ g.frame = p.frame ∧ g.number = p.number + 1

/-- A fragment is appended only if the datagram received before it is its predecessor. -/
def InOrder (past : List Fragment) (s : LoopState) (g : Fragment) : Prop :=
  Appends s g → ∃ p, past.head? = some p ∧ g.Follows p

/-! ## The invariant -/

/-- The buffer was opened by fragment `k` of the frame of `p` and filled in order up to `p`.
Only a buffer opened by the first fragment can be completed. -/
def Filling (s : LoopState) (p : Fragment) : Prop :=
  ∃ i k, Open s p.frame i ∧ p.number + 1 = k + i ∧ 1 ≤ k ∧ (k = 1 → s = assembling p.frame i)

/-- Whatever the loop would append behind the last fragment belongs there; a count of zero
makes the append itself fail. -/
def Ready (past : List Fragment) (s : LoopState) : Prop :=
  ∀ p g, past.head? = some p → g.Follows p → Appends s g →
    Filling s p ∨ int32 (s.count + 1) = 0

theorem ready_of_not_appends {s : LoopState} {p : Fragment} {past : List Fragment}
    (h : ∀ g, g.Follows p → ¬ Appends s g) : Ready (p :: past) s := by
  intro p' g hp hg happends
  cases hp
  exact absurd happends (h g hg)

theorem ready_of_filling {s : LoopState} {p : Fragment} {past : List Fragment}
    (h : Filling s p) : Ready (p :: past) s := by
  intro p' g hp _ _
  cases hp
  exact Or.inl h

theorem Fragment.Follows.whole_iff {g p : Fragment} (h : g.Follows p) : g.Whole ↔ p.Whole := by
  rw [Whole, Whole, h.2.1]

theorem filling_opened {g : Fragment} (hw : ¬ g.Whole) (hpos : 1 ≤ g.number) :
    Filling (opened g) g := by
  have hlen : LIMIT_DATA < g.frame.data.length := Nat.lt_of_not_le hw
  refine ⟨1, g.number, ⟨rfl, rfl, rfl, ?_, rfl⟩, rfl, hpos, ?_⟩
  · rw [opened, length_blit, List.length_replicate]
    rw [List.length_take, List.length_replicate]
    omega
  · intro hone
    exact opened_eq hw hone

/-- A refused continuation stays refused: its successor is numbered one higher, too. -/
theorem ready_refused {s : LoopState} {p : Fragment} {past : List Fragment} (h : Refuses s p) :
    Ready (p :: past) { cleared s with count := int32 (s.count + 1) } := by
  intro p' g hp hg happends
  cases hp
  right
  have hnumbered := happends.numbered (by rw [hg.2.1]; exact h.isKey)
  have hmisnumbered := h.misnumbered
  rw [counter_of_not_whole happends.not_whole, hg.2.2] at hnumbered
  rw [counter_of_not_whole h.not_whole] at hmisnumbered
  have hbounds := int32_bounds (s.count + 1)
  simp only at hnumbered ⊢
  rw [hnumbered]
  by_contra hne
  by_cases hmax : int32 (s.count + 1) + 1 < 2 ^ 31
  · rw [int32_eq (by omega) hmax] at hnumbered
    omega
  · rw [int32_wraps (by omega) (by omega)] at hnumbered
    omega

/-! ## Appending -/

theorem arraycopy_negative (g : Fragment) (dst : List UInt8) (len : ℤ) :
    arraycopy g.datagram OFFSET dst (int32 ((0 - 1) * LIMIT_DATA)) len =
      .error .arrayIndexOutOfBounds :=
  arraycopy_error_of_neg (Or.inl (by decide))

/-- Appending as fragment number zero throws. -/
theorem nextFragment_zero {s s' : LoopState} {g : Fragment} {out : List LoopEvent}
    (h : Appends s g) (hzero : int32 (s.count + 1) = 0) :
    nextFragment (cleared s) g.datagram ≠ .ok (s', out) := by
  have hcheck : ¬ (int32 ((cleared s).count + 1) ≠ bytesToInt2 g.datagram ∧
      isKeyFrame g.datagram = true) := by
    rintro ⟨hne, hkey⟩
    rw [bytesToInt2_datagram] at hne
    exact hne (h.numbered hkey)
  have hcount : int32 ((cleared s).count + 1) = 0 := hzero
  rw [nextFragment, if_neg hcheck, hcount]
  simp only [arraycopy_negative, error_bind]
  split <;> simp

theorem passes_of_appends {s : LoopState} {g : Fragment} {i k : ℕ} (h : Appends s g)
    (ho : Open s g.frame i) (hsent : g.Sent) (hk : 1 ≤ k) (hnumber : g.number = k + i) :
    Passes g i := by
  have hlen : LIMIT_DATA < g.frame.data.length := Nat.lt_of_not_le h.not_whole
  have hlast := hsent.2
  refine ⟨h.not_whole, h.not_first, ?_⟩
  intro hkey
  have hnumbered := h.numbered hkey
  rw [ho.count_eq, (int32_next hlen (by omega)).1] at hnumbered
  exact_mod_cast hnumbered.symm

/-- Appending in order either fills the buffer further or completes the frame. -/
theorem appended_in_order {s s' : LoopState} {g p : Fragment} {out : List LoopEvent}
    (h : Appends s g) (hfollows : g.Follows p) (hsent : g.Sent) (hfilling : Filling s p)
    (hreceive : receive s g = .ok (s', out)) :
    (Filling s' g ∧ out = []) ∨ (s' = complete g.frame ∧ out = arrived g.frame) := by
  obtain ⟨i, k, ho, hnumber, hk, hfirst⟩ := hfilling
  rw [← hfollows.2.1] at ho hfirst
  rw [← hfollows.2.2] at hnumber
  have hp : Passes g i := passes_of_appends h ho hsent hk hnumber
  have hlast := hsent.2
  by_cases hmore : i + 1 < fragmentCount g.frame
  · left
    have hstep := receive_middle ho hp hmore
    rw [hreceive] at hstep
    obtain ⟨rfl, rfl⟩ := Prod.mk.inj (Except.ok.inj hstep)
    refine ⟨⟨i + 1, k, ⟨rfl, ho.tempLength_eq, ho.temp1_eq, ?_, ho.not_abandoned⟩, by omega, hk, ?_⟩,
      rfl⟩
    · have hlen : LIMIT_DATA < g.frame.data.length := Nat.lt_of_not_le hp.not_whole
      have hoffset := offset_lt hlen hmore
      rw [Nat.add_mul] at hoffset
      rw [length_blit, ho.length_tempData]
      rw [List.length_take, ho.length_tempData]
      omega
    · rintro rfl
      have hassembling := receive_middle_assembling hp (by omega) hmore
      rw [← hfirst rfl, hreceive] at hassembling
      exact (Prod.mk.inj (Except.ok.inj hassembling)).1
  · right
    have hone : k = 1 := by omega
    have hlastOne : i + 1 = fragmentCount g.frame := by omega
    have hassembling := receive_last_assembling hp (by omega) hlastOne
    rw [← hfirst hone, hreceive] at hassembling
    exact Prod.mk.inj (Except.ok.inj hassembling)

/-! ## Runs -/

/-- An output that hands over nothing but a sent frame. -/
def Genuine (fs : List Frame) (event : LoopEvent) : Prop :=
  ∀ d, event = .putData d → ∃ f ∈ fs, d = f.delivered

theorem genuine_notice (fs : List Frame) (f : Frame) : ∀ o ∈ notice f, Genuine fs o := by
  intro o ho d hd
  unfold notice at ho
  split at ho
  · simp [List.mem_singleton.mp ho] at hd
  · simp at ho

theorem genuine_arrived {fs : List Frame} {f : Frame} (hf : f ∈ fs) :
    ∀ o ∈ arrived f, Genuine fs o := by
  intro o ho
  rcases List.mem_cons.mp ho with rfl | ho
  · rintro d ⟨rfl⟩
    exact ⟨f, hf, rfl⟩
  · exact genuine_notice fs f o ho

/-- One datagram keeps the buffer in order and hands over nothing but sent frames. -/
theorem ready_step {fs : List Frame} {past : List Fragment} {s s' : LoopState} {g : Fragment}
    {out : List LoopEvent} (hready : Ready past s) (horder : InOrder past s g)
    (hg : g.Sent ∧ g.frame ∈ fs) (h : receive s g = .ok (s', out)) :
    Ready (g :: past) s' ∧ ∀ o ∈ out, Genuine fs o := by
  cases receive_outcome h with
  | skipped haccepts =>
      refine ⟨ready_of_not_appends ?_, by simp⟩
      intro g' hfollows happends
      exact haccepts (hfollows.2.1 ▸ happends.accepts)
  | whole haccepts hw =>
      refine ⟨ready_of_not_appends ?_, genuine_arrived hg.2⟩
      intro g' hfollows happends
      exact happends.not_whole (hfollows.whole_iff.mpr hw)
  | opened haccepts hw hfirst =>
      exact ⟨ready_of_filling (filling_opened hw hg.1.1), by simp⟩
  | appended happends hnext =>
      obtain ⟨p, hp, hfollows⟩ := horder happends
      rcases hready p g hp hfollows happends with hfilling | hzero
      · rcases appended_in_order happends hfollows hg.1 hfilling h with ⟨hfilling', rfl⟩ | ⟨rfl, rfl⟩
        · exact ⟨ready_of_filling hfilling', by simp⟩
        · refine ⟨ready_of_not_appends ?_, genuine_arrived hg.2⟩
          intro g' hfollows' happends'
          have hlength : (0 : ℤ) = g'.frame.data.length := happends'.same_length
          have hlen := Nat.lt_of_not_le happends'.not_whole
          omega
      · exact absurd hnext (nextFragment_zero happends hzero)
  | refused hrefuses =>
      refine ⟨ready_refused hrefuses, ?_⟩
      intro o ho d hd
      simp [List.mem_singleton.mp ho] at hd
  | reported hmismatch hkey =>
      refine ⟨ready_of_not_appends ?_, ?_⟩
      · intro g' hfollows happends
        exact hmismatch.other_length (hfollows.2.1 ▸ happends.same_length)
      · intro o ho d hd
        simp [List.mem_singleton.mp ho] at hd
  | damaged hmismatch hopen hkey =>
      refine ⟨ready_of_not_appends ?_, ?_⟩
      · intro g' hfollows happends
        rcases happends.accepts with hopen' | hkey'
        · cases hopen'
        · rw [hfollows.2.1, hkey] at hkey'
          cases hkey'
      · intro o ho d hd
        simp [List.mem_singleton.mp ho] at hd

theorem sent_of_mem_fragmentsFrom {position : ℕ} {fs : List Frame} {g : Fragment}
    (hg : g ∈ fragmentsFrom position fs) : g.Sent ∧ g.frame ∈ fs := by
  induction fs generalizing position with
  | nil => simp [fragmentsFrom] at hg
  | cons f fs ih =>
      rw [fragmentsFrom, List.mem_append] at hg
      rcases hg with hg | hg
      · obtain ⟨i, hi, rfl⟩ := List.mem_map.mp hg
        rw [List.mem_range] at hi
        exact ⟨⟨Nat.succ_pos i, hi⟩, by simp⟩
      · obtain ⟨hsent, hmem⟩ := ih hg
        exact ⟨hsent, List.mem_cons_of_mem f hmem⟩

theorem mem_puts {events : List LoopEvent} {d : List UInt8} :
    d ∈ puts events ↔ LoopEvent.putData d ∈ events := by
  unfold puts
  rw [List.mem_filterMap]
  constructor
  · rintro ⟨event, hmem, hevent⟩
    cases event with
    | putData frame =>
        cases hevent
        exact hmem
    | sendData dataLength isSuccessful isPortrait => cases hevent
    | drainFrame => cases hevent
  · intro hmem
    exact ⟨_, hmem, rfl⟩

/-- When every fragment the loop appends follows its predecessor directly, the loop hands
over only frames that were sent, whatever else is lost. -/
theorem puts_are_sent_frames (fs : List Frame) (gs : List Fragment)
    (hgs : gs.Sublist (fragments fs)) (horder : Machine.Meets receive InOrder [] .initial gs) :
    ∀ d ∈ puts (receiveLoop .initial (gs.map Fragment.datagram)), ∃ f ∈ fs, d = f.delivered := by
  have hsent : ∀ g ∈ gs, g.Sent ∧ g.frame ∈ fs :=
    fun g hg => sent_of_mem_fragmentsFrom (hgs.subset hg)
  have hstart : Ready [] LoopState.initial := fun p g hp => by cases hp
  have hgenuine := Machine.forall_mem_outputs Ready (Genuine fs)
    (fun past s g s' out hready hc h => ready_step hready hc.1 hc.2 h) hstart
    (Machine.meets_and horder (Machine.meets_of_mem hsent))
  intro d hd
  rw [← outputs_receive, mem_puts] at hd
  exact hgenuine _ hd d rfl

/-! ## A spliced frame -/

/-- A frame of two fragments, the second of which holds one byte. -/
def plain (c : UInt8) : Frame where
  data := List.replicate (LIMIT_DATA + 1) c
  isPortrait := true
  flags := 0
  length_lt := by rw [List.length_replicate]; decide

theorem length_plain (c : UInt8) : (plain c).data.length = LIMIT_DATA + 1 :=
  List.length_replicate

theorem data_plain (c : UInt8) : (plain c).data = List.replicate LIMIT_DATA c ++ [c] :=
  List.replicate_succ'

theorem delivered_plain (c : UInt8) :
    (plain c).delivered = List.replicate LIMIT_DATA c ++ [c, 1, 0] := by
  rw [Frame.delivered, data_plain, List.append_assoc]
  rfl

theorem not_whole_plain (position number : ℕ) (c : UInt8) :
    ¬ (Fragment.mk position (plain c) number).Whole := by
  rw [Fragment.Whole, length_plain]
  exact Nat.not_succ_le_self _

theorem fragmentCount_plain (c : UInt8) : fragmentCount (plain c) = 2 := by
  have hlen := length_plain c
  rw [fragmentCount_of_not_whole (by omega), hlen]
  rfl

theorem fragments_plain (c d : UInt8) :
    fragments [plain c, plain d] =
      [⟨0, plain c, 1⟩, ⟨0, plain c, 2⟩, ⟨1, plain d, 1⟩, ⟨1, plain d, 2⟩] := by
  simp [fragments, fragmentsFrom, fragmentsOf, fragmentCount_plain, List.range_succ]

theorem receive_plain_first (s : LoopState) (position : ℕ) (c : UInt8)
    (h : s.needToAbandon = false) :
    receive s ⟨position, plain c, 1⟩ = .ok (assembling (plain c) 1, []) := by
  have hw := not_whole_plain position 1 c
  have hsize : (plain c).data.length + 2 < 2 ^ 31 := by
    rw [length_plain]
    decide
  rw [receive_first (Or.inl h) hw (by rw [counter_of_not_whole hw]; rfl), if_pos hsize,
    opened_eq hw rfl]

/-- The second fragment of one plain frame completes the buffer another one opened. -/
theorem receive_plain_second (position : ℕ) (c d : UInt8) :
    receive (assembling (plain c) 1) ⟨position, plain d, 2⟩ =
      .ok (closed (List.replicate LIMIT_DATA c ++ [d, 1, 0]),
        [.putData (List.replicate LIMIT_DATA c ++ [d, 1, 0])]) := by
  have hw := not_whole_plain position 2 d
  have ho : Open (assembling (plain c) 1) (plain d) 1 := by
    refine ⟨rfl, ?_, ?_, ?_, rfl⟩
    · rw [assembling, length_plain, length_plain]
    · rw [assembling, fragmentCount_plain, fragmentCount_plain]
    · rw [assembling, length_filled (Nat.le_add_right _ 2), length_plain, length_plain]
  have hp : Passes ⟨position, plain d, 2⟩ 1 := by
    refine ⟨hw, ?_, fun hkey => by cases hkey⟩
    rw [counter_of_not_whole hw]
    show 2 % 2 ^ 16 ≠ 1
    decide
  have hpayload : (Fragment.mk position (plain d) 2).payload = [d] := by
    rw [payload_of_not_whole hw, piece, data_plain, show 2 - 1 = 1 from rfl, Nat.one_mul,
      List.drop_left' List.length_replicate]
    rfl
  have hrest : remaining (plain d) 1 = 1 := by
    rw [remaining, length_plain]
    rfl
  have hbuffer : (assembling (plain c) 1).tempData = List.replicate LIMIT_DATA c ++ [0, 0, 0] := by
    rw [assembling, filled, data_plain, Nat.one_mul, List.take_left' List.length_replicate,
      List.length_append, List.length_replicate, Nat.add_assoc, Nat.add_sub_cancel_left]
    rfl
  have hfinished : finished (assembling (plain c) 1).tempData ⟨position, plain d, 2⟩ 1 =
      List.replicate LIMIT_DATA c ++ [d, 1, 0] := by
    have hsize : (Fragment.mk position (plain d) 2).payload.length = remaining (plain d) 1 := by
      rw [hpayload, hrest]
      rfl
    rw [finished, take_drop_datagram hsize, hpayload, hbuffer,
      blit_append (by rw [List.length_replicate, Nat.one_mul]), length_plain]
    rw [List.append_assoc, List.set_append_right _ _ (by rw [List.length_replicate]; omega),
      List.set_append_right _ _ (by rw [List.length_replicate]; omega), List.length_replicate,
      Nat.add_sub_cancel_left, Nat.add_assoc, Nat.add_sub_cancel_left]
    rfl
  rw [receive_last ho hp (by rw [fragmentCount_plain]), hfinished]
  rfl

theorem splices_frames : ¬ ∀ (fs : List Frame) (sent : List (List (List UInt8)))
    (received : List (List UInt8)), fs.mapM Frame.send = .ok sent →
      received.Sublist sent.flatten →
        ∀ d ∈ puts (receiveLoop .initial received), ∃ f ∈ fs, d = f.delivered := by
  intro h
  obtain ⟨sent, hsent, hflatten⟩ := flatten_datagrams 0 [plain 0, plain 5]
  have hsub : [Fragment.mk 0 (plain 0) 1, ⟨1, plain 5, 2⟩].Sublist
      (fragments [plain 0, plain 5]) := by
    rw [fragments_plain]
    exact .cons_cons _ (.cons _ (.cons _ (.cons_cons _ .slnil)))
  have hput : puts (receiveLoop .initial
      ([Fragment.mk 0 (plain 0) 1, ⟨1, plain 5, 2⟩].map Fragment.datagram)) =
      [List.replicate LIMIT_DATA 0 ++ [5, 1, 0]] := by
    rw [← outputs_receive, Machine.outputs_cons_of_ok (receive_plain_first _ 0 0 rfl),
      Machine.outputs_cons_of_ok (receive_plain_second 1 0 5)]
    rfl
  have hsublist := hsub.map Fragment.datagram
  rw [fragments, ← hflatten] at hsublist
  obtain ⟨f, hf, hd⟩ := h _ sent _ hsent hsublist _ (by rw [hput]; exact List.mem_singleton_self _)
  have hcolour : ∀ c : UInt8, List.replicate LIMIT_DATA 0 ++ [5, 1, 0] = (plain c).delivered →
      (0 : UInt8) = c ∧ 5 = c := by
    intro c hc
    rw [delivered_plain] at hc
    obtain ⟨hbody, htail⟩ := List.append_inj hc (by simp)
    exact ⟨(List.replicate_right_inj (by decide)).mp hbody, by simpa using htail⟩
  rcases List.mem_pair.mp hf with rfl | rfl
  · exact absurd (hcolour 0 hd).2 (by decide)
  · exact absurd (hcolour 5 hd).1 (by decide)

theorem puts_are_sent_frames_after_loss :
    (plain 5).delivered ∈ puts (receiveLoop .initial ([Fragment.mk 0 (plain 0) 1,
      ⟨1, plain 5, 1⟩, ⟨1, plain 5, 2⟩].map Fragment.datagram)) ∧
    ∃ f ∈ [plain 0, plain 5], (plain 5).delivered = f.delivered := by
  have hput : (plain 5).delivered ∈ puts (receiveLoop .initial ([Fragment.mk 0 (plain 0) 1,
      ⟨1, plain 5, 1⟩, ⟨1, plain 5, 2⟩].map Fragment.datagram)) := by
    rw [← outputs_receive, Machine.outputs_cons_of_ok (receive_plain_first _ 0 0 rfl),
      Machine.outputs_cons_of_ok (receive_plain_first _ 1 5 rfl),
      Machine.outputs_cons_of_ok (receive_plain_second 1 5 5), delivered_plain]
    exact List.mem_singleton_self _
  refine ⟨hput, puts_are_sent_frames _ _ ?_ ?_ _ hput⟩
  · rw [fragments_plain]
    exact .cons_cons _ (.cons _ (.cons_cons _ (.cons_cons _ .slnil)))
  · have hfirst : ∀ position c, (Fragment.mk position (plain c) 1).counter % 2 ^ 16 = 1 := by
      intro position c
      rw [counter_of_not_whole (not_whole_plain position 1 c)]
      rfl
    refine ⟨fun h => absurd (hfirst 0 0) h.not_first, fun _ _ _ => ?_⟩
    refine ⟨fun h => absurd (hfirst 1 5) h.not_first, fun _ _ _ => ?_⟩
    exact ⟨fun _ => ⟨_, rfl, rfl, rfl, rfl⟩, fun _ _ _ => trivial⟩

end MirrorCast.Udp
