import Mathlib.Data.UInt
import MirrorCast.Verification.Udp.Datagrams

/-! # Reassembly of a frame whose datagrams all arrive -/

namespace MirrorCast.Udp

open Java Pieces MediaClient MediaServer

/-- The receive loop as a machine that reads fragments. -/
def receive : Machine.Step LoopState Fragment LoopEvent JavaException :=
  fun s g => handleDatagram s g.datagram

theorem outputs_receive (s : LoopState) (gs : List Fragment) :
    Machine.outputs receive s gs = receiveLoop s (gs.map Fragment.datagram) := by
  induction gs generalizing s with
  | nil => rfl
  | cons g gs ih =>
      rw [receiveLoop, List.map_cons]
      cases h : handleDatagram s g.datagram with
      | error e =>
          have hreceive : receive s g = .error e := h
          rw [Machine.outputs_cons_of_error h, Machine.outputs_cons_of_error hreceive]
      | ok next =>
          have hreceive : receive s g = .ok next := h
          rw [Machine.outputs_cons_of_ok h, Machine.outputs_cons_of_ok hreceive, ih]
          rfl

/-- A fragment that `sendDataForUDP` really sends. -/
def Fragment.Sent (g : Fragment) : Prop := 1 ≤ g.number ∧ g.number ≤ fragmentCount g.frame

/-! ## The fields the loop reads -/

theorem bytesToInt_datagram (g : Fragment) : bytesToInt g.datagram = g.frame.data.length :=
  bytesToInt_packet _ _ _ _ _ (by omega) (by exact_mod_cast g.frame.length_lt)

theorem bytesToInt2_datagram (g : Fragment) :
    bytesToInt2 g.datagram = ((g.counter % 2 ^ 16 : ℕ) : ℤ) := by
  rw [Fragment.datagram, bytesToInt2_packet]
  push_cast
  rfl

@[simp] theorem isKeyFrame_datagram (g : Fragment) : isKeyFrame g.datagram = g.frame.isKey := rfl

@[simp] theorem getD_four_datagram (g : Fragment) :
    g.datagram.getD 4 0 = orientation g.frame.isPortrait := rfl

@[simp] theorem getD_five_datagram (g : Fragment) : g.datagram.getD 5 0 = g.frame.flagByte := rfl

theorem fragmentCount_of_not_whole {f : Frame} (h : LIMIT_DATA < f.data.length) :
    fragmentCount f = Pieces.count LIMIT_DATA f.data.length := by
  rw [fragmentCount, if_neg (by omega)]

theorem datagramCount_eq {f : Frame} (h : LIMIT_DATA < f.data.length) :
    datagramCount f.data.length = (fragmentCount f : ℤ) := by
  rw [fragmentCount_of_not_whole h]
  exact tdiv_add_tmod LIMIT_DATA f.data.length

/-- Copying `len` payload bytes out of a datagram. -/
theorem take_drop_datagram {g : Fragment} {len : ℕ} (h : g.payload.length = len) :
    (g.datagram.drop OFFSET).take len = g.payload := by
  rw [Fragment.datagram, drop_packet, ← h, List.take_left]

theorem length_payload_le (g : Fragment) : g.payload.length ≤ LIMIT_DATA := by
  unfold Fragment.payload
  split
  · assumption
  · rw [length_piece]
    exact Nat.min_le_left _ _

theorem length_datagram (g : Fragment) : g.datagram.length = OFFSET + LIMIT_DATA :=
  length_packet _ _ _ _ _ (length_payload_le g)

/-! ## Completing a frame -/

/-- The loop state right after an array was delivered. -/
def closed (tempData : List UInt8) : LoopState := ⟨0, 0, 0, tempData, false⟩

/-- The notice to the sender that a key frame arrived. -/
def notice (f : Frame) : List LoopEvent :=
  if f.isKey then [.sendData f.data.length 0 (orientation f.isPortrait)] else []

def complete (f : Frame) : LoopState := closed f.delivered

/-- The outputs that deliver a frame. -/
def arrived (f : Frame) : List LoopEvent := .putData f.delivered :: notice f

theorem puts_putData_notice (data : List UInt8) (f : Frame) :
    puts (.putData data :: notice f) = [data] := by
  unfold notice
  split <;> rfl

@[simp] theorem puts_arrived (f : Frame) : puts (arrived f) = [f.delivered] :=
  puts_putData_notice _ f

theorem puts_append (xs ys : List LoopEvent) : puts (xs ++ ys) = puts xs ++ puts ys := by
  simp [puts, List.filterMap_append]

/-- Storing orientation and flags behind the payload completes the array. -/
theorem set_trailer (f : Frame) (x y : UInt8) :
    ((f.data ++ [x, y]).set f.data.length (orientation f.isPortrait)).set (f.data.length + 1)
      f.flagByte = f.delivered := by
  rw [List.set_append_right _ _ le_rfl, List.set_append_right _ _ (Nat.le_succ _)]
  simp [Frame.delivered]

/-- A datagram of a frame the loop is not abandoning. -/
def Accepts (s : LoopState) (f : Frame) : Prop := s.needToAbandon = false ∨ f.isKey = true

/-- The state with the flag down, which the rest of the loop body works on. -/
def cleared (s : LoopState) : LoopState := { s with needToAbandon := false }

theorem receive_of_accepts {s : LoopState} {g : Fragment} (h : Accepts s g.frame) :
    receive s g =
      if g.Whole then
        wholeFrame (cleared s) g.datagram
      else if g.counter % 2 ^ 16 = 1 then
        firstFragment (cleared s) g.datagram
      else if s.tempLength ≠ 0 ∧ s.tempLength = g.frame.data.length then
        nextFragment (cleared s) g.datagram
      else if g.frame.isKey then
        .ok (cleared s, [.sendData s.tempLength 1 (orientation g.frame.isPortrait)])
      else
        .ok ({ s with needToAbandon := true }, [.drainFrame]) := by
  have hguard : ¬ (s.needToAbandon = true ∧ ¬ g.frame.isKey = true) := by
    rintro ⟨habandon, hkey⟩
    rcases h with h | h
    · simp [h] at habandon
    · exact hkey h
  have hcounter : bytesToInt2 g.datagram = 1 ↔ g.counter % 2 ^ 16 = 1 := by
    rw [bytesToInt2_datagram]
    exact_mod_cast Iff.rfl
  have hwhole : (g.frame.data.length : ℤ) ≤ LIMIT_DATA ↔ g.Whole := by
    rw [Fragment.Whole]
    exact_mod_cast Iff.rfl
  simp only [receive, handleDatagram, isKeyFrame_datagram, if_neg hguard, bytesToInt_datagram,
    hcounter, hwhole, getD_four_datagram]
  rfl

theorem receive_abandoned {s : LoopState} {g : Fragment} (h : ¬ Accepts s g.frame) :
    receive s g = .ok (s, []) := by
  unfold Accepts at h
  push Not at h
  obtain ⟨habandon, hkey⟩ := h
  rw [receive, handleDatagram, if_pos]
  exact ⟨by simpa using habandon, hkey⟩

/-- Copying out of a datagram into the open buffer. -/
theorem arraycopy_datagram (g : Fragment) (dst : List UInt8) (pos : ℕ) {len : ℕ}
    (hlen : len ≤ LIMIT_DATA) (hdst : pos + len ≤ dst.length) :
    arraycopy g.datagram OFFSET dst pos len =
      .ok (blit dst pos ((g.datagram.drop OFFSET).take len)) :=
  arraycopy_ok (by rw [length_datagram]; omega) hdst

theorem size_of_whole {g : Fragment} (hw : g.Whole) : g.frame.data.length + 2 < 2 ^ 31 := by
  have hle : g.frame.data.length ≤ LIMIT_DATA := hw
  simp only [LIMIT_DATA, LIMIT, OFFSET] at hle
  omega

theorem receive_whole {s : LoopState} {g : Fragment} (h : Accepts s g.frame) (hw : g.Whole) :
    receive s g = .ok (complete g.frame, arrived g.frame) := by
  have hpayload : g.payload = g.frame.data := by simp [Fragment.payload, hw]
  have hcopy : arraycopy g.datagram OFFSET (List.replicate (g.frame.data.length + 2) 0)
      (0 : ℕ) g.frame.data.length = .ok (g.frame.data ++ [0, 0]) := by
    rw [arraycopy_datagram g _ 0 hw (by simp), take_drop_datagram (by rw [hpayload]), hpayload]
    simp [blit, List.drop_replicate]
  have hsize : int32 (g.frame.data.length + 2) = (g.frame.data.length + 2 : ℕ) :=
    int32_natCast (size_of_whole hw)
  rw [Nat.cast_zero] at hcopy
  rw [receive_of_accepts h]
  simp only [if_pos hw, wholeFrame, bytesToInt_datagram, hsize, newArray_natCast, ok_bind, hcopy,
    Int.toNat_natCast, Int.toNat_natCast_add_one, getD_four_datagram, getD_five_datagram,
    set_trailer, isKeyFrame_datagram]
  rfl

/-! ## Opening a buffer -/

/-- The loop right after a first fragment, which is copied together with its padding. -/
def opened (g : Fragment) : LoopState where
  count := 1
  tempLength := g.frame.data.length
  temp1 := fragmentCount g.frame
  tempData := blit (List.replicate (g.frame.data.length + 2) 0) 0
    ((g.datagram.drop OFFSET).take LIMIT_DATA)
  needToAbandon := false

theorem receive_first {s : LoopState} {g : Fragment} (h : Accepts s g.frame) (hw : ¬ g.Whole)
    (hfirst : g.counter % 2 ^ 16 = 1) :
    receive s g =
      if g.frame.data.length + 2 < 2 ^ 31 then .ok (opened g, [])
      else .error .negativeArraySize := by
  have hlen : LIMIT_DATA < g.frame.data.length := Nat.lt_of_not_le hw
  rw [receive_of_accepts h, if_neg hw, if_pos hfirst]
  by_cases hsize : g.frame.data.length + 2 < 2 ^ 31
  · have hint : int32 (g.frame.data.length + 2) = (g.frame.data.length + 2 : ℕ) :=
      int32_natCast hsize
    have hcopy := arraycopy_datagram g (List.replicate (g.frame.data.length + 2) 0) 0 le_rfl
      (by rw [List.length_replicate]; omega)
    rw [Nat.cast_zero] at hcopy
    rw [if_pos hsize]
    simp only [firstFragment, bytesToInt_datagram, hint, newArray_natCast, ok_bind, hcopy,
      datagramCount_eq hlen, cleared, opened, pure, Except.pure]
  · have hint : int32 (g.frame.data.length + 2) < 0 := by
      have hlt := g.frame.length_lt
      rw [int32_wraps (by omega) (by omega)]
      omega
    rw [if_neg hsize]
    simp only [firstFragment, bytesToInt_datagram, newArray, if_pos hint, error_bind]

/-- The loop in the middle of frame `f`, with its first `i` fragments in the buffer. -/
def assembling (f : Frame) (i : ℕ) : LoopState where
  count := i
  tempLength := f.data.length
  temp1 := fragmentCount f
  tempData := filled LIMIT_DATA f.data (f.data.length + 2) i
  needToAbandon := false

theorem counter_of_not_whole {g : Fragment} (hw : ¬ g.Whole) : g.counter = g.number := by
  rw [Fragment.counter, if_neg hw]

theorem payload_of_not_whole {g : Fragment} (hw : ¬ g.Whole) :
    g.payload = piece LIMIT_DATA g.frame.data (g.number - 1) := by
  rw [Fragment.payload, if_neg hw]

theorem opened_eq {g : Fragment} (hw : ¬ g.Whole) (hnumber : g.number = 1) :
    opened g = assembling g.frame 1 := by
  have hlen : LIMIT_DATA < g.frame.data.length := Nat.lt_of_not_le hw
  have hpiece : g.payload = piece LIMIT_DATA g.frame.data 0 := by
    rw [payload_of_not_whole hw, hnumber]
  have hfull : g.payload.length = LIMIT_DATA := by
    rw [hpiece, length_piece]
    omega
  have hblit := blit_filled LIMIT_DATA g.frame.data (g.frame.data.length + 2)
    (show 0 * LIMIT_DATA ≤ g.frame.data.length by omega)
  rw [filled_zero, Nat.zero_mul, ← hpiece] at hblit
  rw [opened, take_drop_datagram hfull, hblit]
  rfl

/-! ## Continuing a frame -/

/-- An open buffer of the size of frame `f`, into which `i` fragments were counted. -/
structure Open (s : LoopState) (f : Frame) (i : ℕ) : Prop where
  count_eq : s.count = i
  tempLength_eq : s.tempLength = f.data.length
  temp1_eq : s.temp1 = fragmentCount f
  length_tempData : s.tempData.length = f.data.length + 2
  not_abandoned : s.needToAbandon = false

/-- A fragment that the loop appends when `i` fragments were counted. -/
structure Passes (g : Fragment) (i : ℕ) : Prop where
  not_whole : ¬ g.Whole
  not_first : g.counter % 2 ^ 16 ≠ 1
  numbered : g.frame.isKey = true → g.counter % 2 ^ 16 = i + 1

theorem open_assembling (f : Frame) (i : ℕ) : Open (assembling f i) f i :=
  ⟨rfl, rfl, rfl, length_filled (Nat.le_add_right _ 2), rfl⟩

theorem cleared_of_not_abandoned {s : LoopState} (h : s.needToAbandon = false) :
    cleared s = s := by
  rw [cleared, ← h]

theorem receive_next {s : LoopState} {g : Fragment} (h : Accepts s g.frame) (hw : ¬ g.Whole)
    (hnext : g.counter % 2 ^ 16 ≠ 1) (htemp : s.tempLength = g.frame.data.length) :
    receive s g = nextFragment (cleared s) g.datagram := by
  have hlen : LIMIT_DATA < g.frame.data.length := Nat.lt_of_not_le hw
  have hne : s.tempLength ≠ 0 := by omega
  rw [receive_of_accepts h, if_neg hw, if_neg hnext, if_pos ⟨hne, htemp⟩]

/-- The position of a fragment lies inside its frame. -/
theorem offset_lt {f : Frame} {i : ℕ} (hlen : LIMIT_DATA < f.data.length)
    (hi : i < fragmentCount f) : i * LIMIT_DATA < f.data.length := by
  have hbounds := (count_bounds (show 0 < LIMIT_DATA by decide)
    (show 0 < f.data.length by omega)).1
  rw [fragmentCount_of_not_whole hlen] at hi
  exact Nat.lt_of_le_of_lt (Nat.mul_le_mul_right _ (by omega)) hbounds

theorem key_check_passes {g : Fragment} {i : ℕ} (hp : Passes g i) :
    ¬ (((i + 1 : ℕ) : ℤ) ≠ bytesToInt2 g.datagram ∧ g.frame.isKey = true) := by
  rintro ⟨hne, hkey⟩
  rw [bytesToInt2_datagram, hp.numbered hkey] at hne
  exact hne rfl

/-- The count and the position the loop computes for the next fragment do not overflow. -/
theorem int32_next {f : Frame} {i : ℕ} (hlen : LIMIT_DATA < f.data.length)
    (hi : i < fragmentCount f) :
    int32 ((i : ℤ) + 1) = (i + 1 : ℕ) ∧
      int32 ((((i + 1 : ℕ) : ℤ) - 1) * LIMIT_DATA) = (i * LIMIT_DATA : ℕ) := by
  have hoffset := offset_lt hlen hi
  have hlt := f.length_lt
  have hle : i ≤ i * LIMIT_DATA := Nat.le_mul_of_pos_right _ (by decide)
  refine ⟨int32_natCast (show i + 1 < 2 ^ 31 by omega), ?_⟩
  rw [← int32_natCast (show i * LIMIT_DATA < 2 ^ 31 by omega)]
  push_cast
  ring_nf

theorem receive_middle {s : LoopState} {g : Fragment} {i : ℕ} (ho : Open s g.frame i)
    (hp : Passes g i) (hmore : i + 1 < fragmentCount g.frame) :
    receive s g = .ok ({ s with
      count := (i + 1 : ℕ)
      tempData := blit s.tempData (i * LIMIT_DATA)
        ((g.datagram.drop OFFSET).take LIMIT_DATA) }, []) := by
  have hlen : LIMIT_DATA < g.frame.data.length := Nat.lt_of_not_le hp.not_whole
  have hoffset := offset_lt hlen hmore
  obtain ⟨hcount, hstart⟩ := int32_next hlen (Nat.lt_of_succ_lt hmore)
  have hpos : i * LIMIT_DATA + LIMIT_DATA ≤ g.frame.data.length := by
    rw [Nat.add_mul] at hoffset
    omega
  have hcopy := arraycopy_datagram g s.tempData (i * LIMIT_DATA) le_rfl
    (by rw [ho.length_tempData]; omega)
  have htemp : ((i + 1 : ℕ) : ℤ) < fragmentCount g.frame := by exact_mod_cast hmore
  rw [receive_next (Or.inl ho.not_abandoned) hp.not_whole hp.not_first ho.tempLength_eq,
    cleared_of_not_abandoned ho.not_abandoned]
  simp only [nextFragment, bytesToInt_datagram, ho.count_eq, ho.temp1_eq, hcount, hstart,
    isKeyFrame_datagram, if_neg (key_check_passes hp), if_pos htemp, hcopy, ok_bind, pure,
    Except.pure]

/-- The bytes of a frame from its fragment `i`, counted from zero, on. -/
def remaining (f : Frame) (i : ℕ) : ℕ := f.data.length - i * LIMIT_DATA

/-- The array handed over when fragment `g` fills the buffer. -/
def finished (buffer : List UInt8) (g : Fragment) (i : ℕ) : List UInt8 :=
  ((blit buffer (i * LIMIT_DATA) ((g.datagram.drop OFFSET).take (remaining g.frame i))).set
    g.frame.data.length (orientation g.frame.isPortrait)).set
      (g.frame.data.length + 1) g.frame.flagByte

theorem remaining_le {f : Frame} {i : ℕ} (hlen : LIMIT_DATA < f.data.length)
    (hlast : i + 1 = fragmentCount f) : remaining f i ≤ LIMIT_DATA := by
  have hbounds := (count_bounds (show 0 < LIMIT_DATA by decide)
    (show 0 < f.data.length by omega)).2
  rw [← fragmentCount_of_not_whole hlen, ← hlast, Nat.add_mul] at hbounds
  unfold remaining
  omega

theorem receive_last {s : LoopState} {g : Fragment} {i : ℕ} (ho : Open s g.frame i)
    (hp : Passes g i) (hlast : i + 1 = fragmentCount g.frame) :
    receive s g = .ok (closed (finished s.tempData g i),
      .putData (finished s.tempData g i) :: notice g.frame) := by
  have hlen : LIMIT_DATA < g.frame.data.length := Nat.lt_of_not_le hp.not_whole
  have hi : i < fragmentCount g.frame := by omega
  have hoffset := offset_lt hlen hi
  obtain ⟨hcount, hstart⟩ := int32_next hlen hi
  have hlt := g.frame.length_lt
  have hrest : int32 ((g.frame.data.length : ℤ) - (i * LIMIT_DATA : ℕ)) =
      remaining g.frame i := by
    rw [remaining, ← Nat.cast_sub (by omega), int32_natCast (by omega)]
  have hcopy := arraycopy_datagram g s.tempData (i * LIMIT_DATA)
    (remaining_le hlen hlast) (by rw [ho.length_tempData, remaining]; omega)
  have htemp : ¬ ((i + 1 : ℕ) : ℤ) < fragmentCount g.frame := by
    rw [← hlast]
    exact lt_irrefl _
  rw [receive_next (Or.inl ho.not_abandoned) hp.not_whole hp.not_first ho.tempLength_eq,
    cleared_of_not_abandoned ho.not_abandoned]
  simp only [nextFragment, bytesToInt_datagram, ho.count_eq, ho.temp1_eq, ho.tempLength_eq, hcount,
    hstart, hrest, isKeyFrame_datagram, if_neg (key_check_passes hp), if_neg htemp, hcopy, ok_bind,
    Int.toNat_natCast, Int.toNat_natCast_add_one, getD_four_datagram, getD_five_datagram, closed,
    ho.not_abandoned]
  rfl

/-! ## Fragments in order -/

/-- Fragment number `i + 1` of a frame, when the first `i` are in the buffer. -/
theorem receive_middle_assembling {g : Fragment} {i : ℕ} (hp : Passes g i)
    (hnumber : g.number = i + 1) (hmore : i + 1 < fragmentCount g.frame) :
    receive (assembling g.frame i) g = .ok (assembling g.frame (i + 1), []) := by
  have hlen : LIMIT_DATA < g.frame.data.length := Nat.lt_of_not_le hp.not_whole
  have hoffset := offset_lt hlen (Nat.lt_of_succ_lt hmore)
  have hpiece : g.payload = piece LIMIT_DATA g.frame.data i := by
    rw [payload_of_not_whole hp.not_whole, hnumber, Nat.add_sub_cancel]
  have hfull : g.payload.length = LIMIT_DATA := by
    rw [hpiece]
    exact length_piece_of_lt (by decide) (by rwa [← fragmentCount_of_not_whole hlen])
  rw [receive_middle (open_assembling g.frame i) hp hmore, take_drop_datagram hfull, hpiece]
  simp only [assembling, blit_filled _ _ _ (Nat.le_of_lt hoffset)]

theorem receive_last_assembling {g : Fragment} {i : ℕ} (hp : Passes g i)
    (hnumber : g.number = i + 1) (hlast : i + 1 = fragmentCount g.frame) :
    receive (assembling g.frame i) g = .ok (complete g.frame, arrived g.frame) := by
  have hlen : LIMIT_DATA < g.frame.data.length := Nat.lt_of_not_le hp.not_whole
  have hoffset := offset_lt hlen (show i < fragmentCount g.frame by omega)
  have hcount := fragmentCount_of_not_whole hlen
  have hpiece : g.payload = piece LIMIT_DATA g.frame.data i := by
    rw [payload_of_not_whole hp.not_whole, hnumber, Nat.add_sub_cancel]
  have hsize : g.payload.length = remaining g.frame i := by
    rw [hpiece]
    exact length_piece_last (by decide) (by omega) (by rw [hlast, hcount])
  have hall : filled LIMIT_DATA g.frame.data (g.frame.data.length + 2) (i + 1) =
      g.frame.data ++ [0, 0] := by
    have hbounds := (count_bounds (show 0 < LIMIT_DATA by decide)
      (show 0 < g.frame.data.length by omega)).2
    rw [← hcount, ← hlast] at hbounds
    simp [filled, List.take_of_length_le hbounds]
  have hfinished : finished (assembling g.frame i).tempData g i = g.frame.delivered := by
    rw [finished, take_drop_datagram hsize, hpiece, assembling,
      blit_filled _ _ _ (Nat.le_of_lt hoffset), hall, set_trailer]
  rw [receive_last (open_assembling g.frame i) hp hlast, hfinished]
  rfl

/-! ## The arrival of a whole frame -/

/-- A frame whose fragment counter does not wrap. -/
def Numbered (f : Frame) : Prop := fragmentCount f < 2 ^ 16 ∧ f.data.length + 2 < 2 ^ 31

/-- The fragments `i + 1, …` up to the last one complete a frame whose first `i` are in. -/
theorem run_from (position : ℕ) (f : Frame) (hw : LIMIT_DATA < f.data.length)
    (hnum : Numbered f) (k i : ℕ) (hi : 0 < i) (hk : i + k = fragmentCount f) (hpos : 0 < k) :
    Machine.final receive (assembling f i)
        ((List.range' i k).map fun j => ⟨position, f, j + 1⟩) = .ok (complete f) ∧
      Machine.outputs receive (assembling f i)
        ((List.range' i k).map fun j => ⟨position, f, j + 1⟩) = arrived f := by
  induction k generalizing i with
  | zero => omega
  | succ k ih =>
      have hnot : ¬ (Fragment.mk position f (i + 1)).Whole := Nat.not_le_of_lt hw
      have hcounter : (Fragment.mk position f (i + 1)).counter % 2 ^ 16 = i + 1 := by
        have hwrap := hnum.1
        rw [counter_of_not_whole hnot]
        exact Nat.mod_eq_of_lt (show i + 1 < 2 ^ 16 by omega)
      have hp : Passes ⟨position, f, i + 1⟩ i := ⟨hnot, by omega, fun _ => hcounter⟩
      rw [List.range'_succ, List.map_cons]
      rcases Nat.eq_zero_or_pos k with rfl | hmore
      · have hstep := receive_last_assembling hp rfl (show i + 1 = fragmentCount f by omega)
        rw [Machine.final_cons_of_ok hstep, Machine.outputs_cons_of_ok hstep]
        simp
      · have hstep := receive_middle_assembling hp rfl (show i + 1 < fragmentCount f by omega)
        rw [Machine.final_cons_of_ok hstep, Machine.outputs_cons_of_ok hstep]
        simpa using ih (i + 1) (by omega) (by omega) hmore

/-- A frame all of whose fragments arrive one after the other is delivered. -/
theorem run_fragmentsOf {s : LoopState} (position : ℕ) (f : Frame) (h : Accepts s f)
    (hnum : Numbered f) :
    Machine.final receive s (fragmentsOf position f) = .ok (complete f) ∧
      Machine.outputs receive s (fragmentsOf position f) = arrived f := by
  by_cases hw : f.data.length ≤ LIMIT_DATA
  · have hone : fragmentCount f = 1 := by rw [fragmentCount, if_pos hw]
    have hstep := receive_whole (g := ⟨position, f, 1⟩) h hw
    rw [fragmentsOf, hone]
    simp only [List.range_one, List.map_cons, List.map_nil, Nat.zero_add]
    rw [Machine.final_cons_of_ok hstep, Machine.outputs_cons_of_ok hstep]
    simp
  · have hlen : LIMIT_DATA < f.data.length := Nat.lt_of_not_le hw
    have htwo : 2 ≤ fragmentCount f := by
      rw [fragmentCount_of_not_whole hlen]
      exact count_pos hlen (by decide)
    obtain ⟨k, hk⟩ : ∃ k, fragmentCount f = k + 1 := ⟨fragmentCount f - 1, by omega⟩
    have hnot : ¬ (Fragment.mk position f 1).Whole := hw
    have hstep := receive_first (g := ⟨position, f, 1⟩) h hnot
      (by rw [counter_of_not_whole hnot]; rfl)
    rw [if_pos hnum.2, opened_eq hnot rfl] at hstep
    have hrun := run_from position f hlen hnum k 1 Nat.one_pos (by omega) (by omega)
    rw [fragmentsOf, hk, List.range_eq_range', List.range'_succ, List.map_cons,
      Machine.final_cons_of_ok hstep, Machine.outputs_cons_of_ok hstep]
    simpa using hrun

/-- The same for a stream of frames, from any state that accepts them all. -/
theorem run_fragmentsFrom {s : LoopState} (position : ℕ) (fs : List Frame)
    (hopen : s.needToAbandon = false) (hnum : ∀ f ∈ fs, Numbered f) :
    Machine.outputs receive s (fragmentsFrom position fs) = fs.flatMap arrived := by
  induction fs generalizing s position with
  | nil => rfl
  | cons f fs ih =>
      obtain ⟨hfinal, hout⟩ := run_fragmentsOf position f (Or.inl hopen) (hnum f (by simp))
      rw [fragmentsFrom, Machine.outputs_append_of_ok hfinal, hout, List.flatMap_cons]
      rw [ih (position + 1) rfl (fun f' hf' => hnum f' (by simp [hf']))]

theorem puts_flatMap_arrived (fs : List Frame) :
    puts (fs.flatMap arrived) = fs.map Frame.delivered := by
  induction fs with
  | nil => rfl
  | cons f fs ih =>
      rw [List.flatMap_cons, puts_append, puts_arrived, ih]
      rfl

/-- `fragmentCount` datagrams carry at most that many times `LIMIT_DATA` bytes. -/
theorem numbered_of_length_le {f : Frame} (h : f.data.length ≤ 65535 * LIMIT_DATA) :
    Numbered f := by
  have hlimit : LIMIT_DATA = 12792 := rfl
  refine ⟨?_, by omega⟩
  by_cases hw : f.data.length ≤ LIMIT_DATA
  · rw [fragmentCount, if_pos hw]
    norm_num
  · have hlen : LIMIT_DATA < f.data.length := Nat.lt_of_not_le hw
    have hbounds := (count_bounds (show 0 < LIMIT_DATA by decide)
      (show 0 < f.data.length by omega)).1
    rw [fragmentCount_of_not_whole hlen]
    by_contra hge
    have hle : 65535 * LIMIT_DATA ≤ (count LIMIT_DATA f.data.length - 1) * LIMIT_DATA :=
      Nat.mul_le_mul_right _ (by omega)
    omega

theorem flatten_datagrams (position : ℕ) (fs : List Frame) :
    ∃ sent, fs.mapM Frame.send = .ok sent ∧
      sent.flatten = (fragmentsFrom position fs).map Fragment.datagram := by
  induction fs generalizing position with
  | nil => exact ⟨[], rfl, rfl⟩
  | cons f fs ih =>
      obtain ⟨sent, hsent, hflatten⟩ := ih (position + 1)
      refine ⟨(fragmentsOf position f).map Fragment.datagram :: sent, ?_, ?_⟩
      · rw [List.mapM_cons, send_eq position, hsent]
        rfl
      · rw [List.flatten_cons, hflatten, fragmentsFrom, List.map_append]

/-- Reassembly undoes fragmentation when nothing is lost. -/
theorem puts_receiveLoop_sent (fs : List Frame)
    (hsize : ∀ f ∈ fs, f.data.length ≤ 65535 * LIMIT_DATA) :
    ∃ sent, fs.mapM Frame.send = .ok sent ∧
      puts (receiveLoop .initial sent.flatten) = fs.map Frame.delivered := by
  obtain ⟨sent, hsent, hflatten⟩ := flatten_datagrams 0 fs
  refine ⟨sent, hsent, ?_⟩
  have hnum : ∀ f ∈ fs, Numbered f := fun f hf => numbered_of_length_le (hsize f hf)
  rw [hflatten, ← outputs_receive, run_fragmentsFrom 0 fs rfl hnum, puts_flatMap_arrived]

/-- A frame of two datagrams between two that fit into one each. -/
theorem puts_receiveLoop_sent_fragmented :
    ∃ sent, [Frame.mk [1, 2, 3] true 1 (by decide),
        Frame.mk (List.replicate (LIMIT_DATA + 1) 5) false 0 (by rw [List.length_replicate]; decide),
        Frame.mk [4] false 0 (by decide)].mapM Frame.send = .ok sent ∧
      puts (receiveLoop .initial sent.flatten) =
        [[1, 2, 3, 1, 1], List.replicate (LIMIT_DATA + 1) 5 ++ [2, 0], [4, 2, 0]] := by
  refine puts_receiveLoop_sent _ ?_
  simp only [List.mem_cons, List.not_mem_nil, or_false, forall_eq_or_imp, forall_eq,
    List.length_replicate]
  decide

end MirrorCast.Udp
