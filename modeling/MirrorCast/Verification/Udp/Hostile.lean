import MirrorCast.Verification.Udp.Trailers

/-! # Which datagrams the server survives -/

namespace MirrorCast.Udp

open Java MediaClient MediaServer

/-- What the receive buffer holds once the datagram has arrived: it was zeroed before, and takes
no more than `LIMIT` bytes. -/
def received (datagram : List UInt8) : List UInt8 :=
  (datagram ++ List.replicate LIMIT 0).take LIMIT

theorem length_received (datagram : List UInt8) : (received datagram).length = OFFSET + LIMIT_DATA := by
  rw [received, List.length_take, List.length_append, List.length_replicate]
  exact Nat.min_eq_left (Nat.le_add_left _ _)

/-- The length lies between zero and the bytes behind the header. -/
def Covered (data : List UInt8) : Prop := 0 ≤ bytesToInt data ∧ bytesToInt data ≤ LIMIT_DATA

/-- The place behind `count` fragments, as an `int`, is inside the open frame, and what is copied
there ends inside the buffer: all a datagram holds, or what the frame still lacks. -/
def Fits (s : LoopState) : Prop :=
  let position := int32 (s.count * LIMIT_DATA)
  0 ≤ position ∧
    if int32 (s.count + 1) < s.temp1 then position + LIMIT_DATA ≤ s.tempLength + 2
    else position ≤ s.tempLength ∧ s.tempLength ≤ position + LIMIT_DATA

instance (s : LoopState) : Decidable (Fits s) := inferInstanceAs (Decidable (_ ∧ _))

/-- The datagram is skipped, or has the length of a whole frame, or opens a frame whose array
can be allocated, or belongs to no open frame, or is a key frame's and out of turn, or fits. -/
def Harmless (s : LoopState) (data : List UInt8) : Prop :=
  s.needToAbandon = true ∧ isKeyFrame data = false ∨
    if bytesToInt data ≤ LIMIT_DATA then 0 ≤ bytesToInt data
    else if bytesToInt2 data = 1 then bytesToInt data + 2 < 2 ^ 31
    else s.tempLength = bytesToInt data →
      int32 (s.count + 1) ≠ bytesToInt2 data ∧ isKeyFrame data = true ∨ Fits s

instance (s : LoopState) (data : List UInt8) : Decidable (Harmless s data) :=
  inferInstanceAs (Decidable (_ ∨ _))

/-- The server survives the datagram at this stage. -/
def Survives : Stage → List UInt8 → Prop
  | .info, data | .firstConfig, data | .secondConfig, data => Covered data
  | .loop s, data => Harmless s data

variable {data : List UInt8}

theorem bytesToInt_bounds (data : List UInt8) :
    -2 ^ 31 ≤ bytesToInt data ∧ bytesToInt data < 2 ^ 31 := int32_bounds _

/-! ## The handshake -/

theorem returns_clientInfo (hdata : data.length = OFFSET + LIMIT_DATA) :
    Returns (clientInfo data) ↔ Covered data := by
  unfold clientInfo Covered
  dsimp only
  split
  · simp only [not_returns_error, false_iff]
    omega
  · simp only [returns_ok, true_iff]
    omega

theorem returns_spsPps (hdata : data.length = OFFSET + LIMIT_DATA) :
    Returns (spsPps data) ↔ Covered data := by
  unfold spsPps Covered
  dsimp only
  constructor
  · intro h
    obtain ⟨sps_pps, harray, hcopy⟩ := returns_bind.mp h
    have hranges := returns_arraycopy.mp hcopy
    omega
  · rintro ⟨hpos, hle⟩
    refine returns_bind.mpr ⟨_, newArray_eq_ok.mpr ⟨hpos, rfl⟩, returns_arraycopy.mpr ?_⟩
    rw [List.length_replicate]
    omega

/-! ## The loop -/

theorem returns_wholeFrame (s : LoopState) (hdata : data.length = OFFSET + LIMIT_DATA)
    (hsmall : bytesToInt data ≤ LIMIT_DATA) :
    Returns (wholeFrame s data) ↔ 0 ≤ bytesToInt data := by
  have hlimit : LIMIT_DATA < 2 ^ 30 := by decide
  unfold wholeFrame
  dsimp only [pure, Except.pure]
  constructor
  · intro h
    obtain ⟨tempData, -, h⟩ := returns_bind.mp h
    obtain ⟨_, hcopy, -⟩ := returns_bind.mp h
    have hranges := returns_arraycopy.mp ⟨_, hcopy⟩
    omega
  · intro hpos
    have hcut : int32 (bytesToInt data + 2) = bytesToInt data + 2 := int32_eq (by omega) (by omega)
    refine returns_bind.mpr ⟨_, newArray_eq_ok.mpr ⟨by omega, rfl⟩, ?_⟩
    have hcopy : Returns (arraycopy data OFFSET
        (List.replicate (int32 (bytesToInt data + 2)).toNat 0) 0 (bytesToInt data)) := by
      rw [returns_arraycopy, List.length_replicate]
      omega
    obtain ⟨tempData, hcopy⟩ := hcopy
    exact returns_bind.mpr ⟨tempData, hcopy, returns_ok _⟩

/-- The array for a frame that takes more than one datagram, if it can be allocated. -/
theorem newArray_frame {tempData : List UInt8}
    (h : newArray (int32 (bytesToInt data + 2)) = .ok tempData) :
    bytesToInt data + 2 < 2 ^ 31 ∧ (tempData.length : ℤ) = bytesToInt data + 2 := by
  have hbounds := bytesToInt_bounds data
  obtain ⟨hpos, harray⟩ := newArray_eq_ok.mp h
  have hfits : bytesToInt data + 2 < 2 ^ 31 := by
    by_contra hwraps
    have hcut := int32_wraps (x := bytesToInt data + 2) (by omega) (by omega)
    omega
  have hcut : int32 (bytesToInt data + 2) = bytesToInt data + 2 := int32_eq (by omega) hfits
  refine ⟨hfits, ?_⟩
  rw [harray, List.length_replicate]
  omega

theorem returns_firstFragment (s : LoopState) (hdata : data.length = OFFSET + LIMIT_DATA)
    (hlarge : LIMIT_DATA < bytesToInt data) :
    Returns (firstFragment s data) ↔ bytesToInt data + 2 < 2 ^ 31 := by
  have hbounds := bytesToInt_bounds data
  unfold firstFragment
  dsimp only [pure, Except.pure]
  constructor
  · intro h
    obtain ⟨tempData, harray, -⟩ := returns_bind.mp h
    exact (newArray_frame harray).1
  · intro hfits
    have hcut : int32 (bytesToInt data + 2) = bytesToInt data + 2 := int32_eq (by omega) hfits
    refine returns_bind.mpr ⟨_, newArray_eq_ok.mpr ⟨by omega, rfl⟩, ?_⟩
    have hcopy : Returns (arraycopy data OFFSET
        (List.replicate (int32 (bytesToInt data + 2)).toNat 0) 0 LIMIT_DATA) := by
      rw [returns_arraycopy, List.length_replicate]
      omega
    obtain ⟨tempData, hcopy⟩ := hcopy
    exact returns_bind.mpr ⟨tempData, hcopy, returns_ok _⟩

/-- The place of a fragment is the one behind those counted before. -/
theorem position_eq (count : ℤ) (limit : ℤ) :
    int32 ((int32 (count + 1) - 1) * limit) = int32 (count * limit) := by
  have hback : int32 (int32 (count + 1) - 1) = int32 count := by
    rw [Int.sub_eq_add_neg, int32_int32_add, Int.add_neg_cancel_right]
  calc int32 ((int32 (count + 1) - 1) * limit)
      = int32 (int32 (int32 (count + 1) - 1) * limit) := (Int.bmod_mul_bmod).symm
    _ = int32 (int32 count * limit) := by rw [hback]
    _ = int32 (count * limit) := Int.bmod_mul_bmod

theorem returns_nextFragment {s : LoopState} (hdata : data.length = OFFSET + LIMIT_DATA)
    (hroom : (s.tempData.length : ℤ) = s.tempLength + 2) (hlarge : LIMIT_DATA < s.tempLength)
    (hsmall : s.tempLength < 2 ^ 31) :
    Returns (nextFragment s data) ↔
      int32 (s.count + 1) ≠ bytesToInt2 data ∧ isKeyFrame data = true ∨ Fits s := by
  unfold nextFragment Fits
  dsimp only [pure, Except.pure]
  rw [position_eq]
  by_cases hrefused : int32 (s.count + 1) ≠ bytesToInt2 data ∧ isKeyFrame data = true
  · rw [if_pos hrefused]
    exact ⟨fun _ => Or.inl hrefused, fun _ => returns_ok _⟩
  rw [if_neg hrefused, or_iff_right hrefused]
  have hbounds := int32_bounds (s.count * LIMIT_DATA)
  generalize int32 (s.count * LIMIT_DATA) = position at hbounds ⊢
  by_cases hmore : int32 (s.count + 1) < s.temp1
  · rw [if_pos hmore, if_pos hmore]
    constructor
    · intro h
      obtain ⟨_, hcopy, -⟩ := returns_bind.mp h
      have hranges := returns_arraycopy.mp ⟨_, hcopy⟩
      omega
    · intro hfits
      have hcopy : Returns (arraycopy data OFFSET s.tempData position LIMIT_DATA) := by
        rw [returns_arraycopy]
        omega
      obtain ⟨tempData, hcopy⟩ := hcopy
      exact returns_bind.mpr ⟨tempData, hcopy, returns_ok _⟩
  · rw [if_neg hmore, if_neg hmore]
    constructor
    · intro h
      obtain ⟨_, hcopy, -⟩ := returns_bind.mp h
      have hranges := returns_arraycopy.mp ⟨_, hcopy⟩
      have hcut : int32 (s.tempLength - position) = s.tempLength - position :=
        int32_eq (by omega) (by omega)
      omega
    · intro hfits
      have hcut : int32 (s.tempLength - position) = s.tempLength - position :=
        int32_eq (by omega) (by omega)
      have hcopy : Returns (arraycopy data OFFSET s.tempData position
          (int32 (s.tempLength - position))) := by
        rw [returns_arraycopy]
        omega
      obtain ⟨tempData, hcopy⟩ := hcopy
      exact returns_bind.mpr ⟨tempData, hcopy, returns_ok _⟩

theorem returns_handleDatagram {s : LoopState} (hdata : data.length = OFFSET + LIMIT_DATA)
    (hroomy : Roomy s) : Returns (handleDatagram s data) ↔ Harmless s data := by
  have hlimit : 0 < LIMIT_DATA := by decide
  unfold handleDatagram Harmless
  dsimp only
  by_cases hskipped : s.needToAbandon = true ∧ ¬ isKeyFrame data = true
  · rw [if_pos hskipped]
    refine ⟨fun _ => Or.inl ⟨hskipped.1, by simpa using hskipped.2⟩, fun _ => returns_ok _⟩
  rw [if_neg hskipped, or_iff_right (by simpa using hskipped)]
  by_cases hwhole : bytesToInt data ≤ LIMIT_DATA
  · rw [if_pos hwhole, if_pos hwhole]
    exact returns_wholeFrame _ hdata hwhole
  rw [if_neg hwhole, if_neg hwhole]
  by_cases hfirst : bytesToInt2 data = 1
  · rw [if_pos hfirst, if_pos hfirst]
    exact returns_firstFragment _ hdata (by omega)
  rw [if_neg hfirst, if_neg hfirst]
  by_cases hsame : s.tempLength = bytesToInt data
  · have hne : s.tempLength ≠ 0 := by omega
    have hbounds := bytesToInt_bounds data
    rw [if_pos ⟨hne, hsame⟩, forall_prop_of_true hsame]
    exact returns_nextFragment (s := { s with needToAbandon := false }) hdata (hroomy hne)
      (show (LIMIT_DATA : ℤ) < s.tempLength by omega) (show s.tempLength < 2 ^ 31 by omega)
  · rw [if_neg (fun hboth => hsame hboth.2)]
    refine ⟨fun _ h => absurd h hsame, fun _ => ?_⟩
    split
    · exact returns_ok _
    · exact returns_ok _

/-- Every datagram leaves the open buffer with room for its frame. -/
theorem roomy_handleDatagram {s s' : LoopState} {out : List LoopEvent} (hroomy : Roomy s)
    (h : handleDatagram s data = .ok (s', out)) : Roomy s' := by
  unfold handleDatagram at h
  dsimp only at h
  split at h
  · cases h
    exact hroomy
  split at h
  · unfold wholeFrame at h
    dsimp only at h
    obtain ⟨_, -, h⟩ := bind_eq_ok.mp h
    obtain ⟨_, -, h⟩ := bind_eq_ok.mp h
    cases h
    exact fun hne => absurd rfl hne
  rename_i hlarge
  split at h
  · unfold firstFragment at h
    dsimp only at h
    obtain ⟨buffer, harray, h⟩ := bind_eq_ok.mp h
    obtain ⟨tempData, hcopy, h⟩ := bind_eq_ok.mp h
    have hsize : (tempData.length : ℤ) = bytesToInt data + 2 := by
      rw [length_of_arraycopy hcopy]
      exact (newArray_frame harray).2
    generalize bytesToInt data = length at h hsize
    rw [← (Prod.mk.inj (Except.ok.inj h)).1]
    exact fun _ => hsize
  split at h
  · rename_i hopen
    unfold nextFragment at h
    dsimp only at h
    split at h
    · cases h
      exact hroomy
    split at h
    · obtain ⟨tempData, hcopy, h⟩ := bind_eq_ok.mp h
      cases h
      intro hne
      change (tempData.length : ℤ) = s.tempLength + 2
      rw [length_of_arraycopy hcopy]
      exact hroomy hne
    · obtain ⟨tempData, -, h⟩ := bind_eq_ok.mp h
      cases h
      exact fun hne => absurd rfl hne
  split at h
  · cases h
    exact hroomy
  · cases h
    exact hroomy

/-! ## Runs -/

/-- The open buffer of the loop, once it is running, has room for its frame. -/
def Prepared : Stage → Prop
  | .loop s => Roomy s
  | _ => True

theorem returns_serve {stage : Stage} (hdata : data.length = OFFSET + LIMIT_DATA)
    (h : Prepared stage) : Returns (serve stage data) ↔ Survives stage data := by
  cases stage with
  | info =>
      rw [serve, Survives, ← returns_clientInfo hdata]
      exact returns_bind_iff fun _ => returns_ok _
  | firstConfig =>
      rw [serve, Survives, ← returns_spsPps hdata]
      exact returns_bind_iff fun _ => returns_ok _
  | secondConfig =>
      rw [serve, Survives, ← returns_spsPps hdata]
      exact returns_bind_iff fun _ => returns_ok _
  | loop s =>
      rw [serve, Survives, ← returns_handleDatagram hdata h]
      exact returns_bind_iff fun _ => returns_ok _

theorem prepared_serve {stage stage' : Stage} {out : List ServerEvent} (h : Prepared stage)
    (hstep : serve stage data = .ok (stage', out)) : Prepared stage' := by
  cases stage with
  | info =>
      obtain ⟨_, -, hstep⟩ := bind_eq_ok.mp hstep
      cases hstep
      trivial
  | firstConfig =>
      obtain ⟨_, -, hstep⟩ := bind_eq_ok.mp hstep
      cases hstep
      trivial
  | secondConfig =>
      obtain ⟨_, -, hstep⟩ := bind_eq_ok.mp hstep
      cases hstep
      exact fun hne => absurd rfl hne
  | loop s =>
      obtain ⟨⟨s', events⟩, hnext, hstep⟩ := bind_eq_ok.mp hstep
      cases hstep
      exact roomy_handleDatagram h hnext

/-- The server goes on through a sequence of datagrams exactly if it survives each of them. -/
theorem serves_iff (datagrams : List (List UInt8)) :
    Returns (Machine.final serve .info (datagrams.map received)) ↔
      Machine.Meets serve (fun _ => Survives) [] .info (datagrams.map received) := by
  refine Machine.final_ok_iff Prepared (fun data => data.length = OFFSET + LIMIT_DATA) ?_ ?_
    trivial ?_
  · intro _ stage data hprepared hdata
    rw [← returns_serve hdata hprepared]
    exact ⟨fun ⟨stage', out, h⟩ => ⟨_, h⟩, fun ⟨next, h⟩ => ⟨next.1, next.2, h⟩⟩
  · intro stage data stage' out hprepared _ hstep
    exact prepared_serve hprepared hstep
  · intro data hdata
    obtain ⟨datagram, -, rfl⟩ := List.mem_map.mp hdata
    exact length_received datagram

/-- The first datagram says that its text has length -1. -/
theorem not_serves_negative : ¬ ∀ datagrams : List (List UInt8),
    Returns (Machine.final serve .info (datagrams.map received)) := by
  intro h
  have hfails : serve .info (received [0xff, 0xff, 0xff, 0xff]) = .error .stringIndexOutOfBounds := by
    decide +kernel
  have hreturns := h [[0xff, 0xff, 0xff, 0xff]]
  rw [List.map_singleton, Machine.final_cons_of_error hfails] at hreturns
  exact not_returns_error _ hreturns

end MirrorCast.Udp
