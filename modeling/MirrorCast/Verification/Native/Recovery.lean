import MirrorCast.Library.AnnexB
import MirrorCast.Verification.Native.Configuration

/-! # Which parameter sets the player gives to its decoder -/

namespace MirrorCast.Native

open Java Scanning SpsPps

/-! ## Layouts -/

/-- A parameter set of the type; 7 is for sequences and 8 for pictures. -/
structure ParameterSet (type : UInt8) extends AnnexB.NalUnit where
  ref_idc : header = 32 + type ∨ header = 96 + type
  short : (header :: body).length < 128

namespace ParameterSet

variable {type : UInt8}

abbrev bytes (set : ParameterSet type) : List UInt8 := set.toNalUnit.bytes

theorem length_lt (set : ParameterSet type) : set.bytes.length < 128 := set.short

end ParameterSet

/-- A start code with this number of zeros. -/
def startCodeOf (zeros : ℕ) : List UInt8 := List.replicate zeros 0 ++ [1]

/-- Two sets behind start codes with this number of zeros. -/
def startCoded (zeros : ℕ) (sps pps : List UInt8) : List UInt8 :=
  startCodeOf zeros ++ (sps ++ (startCodeOf zeros ++ pps))

/-- What an avcC record holds besides the two parameter sets. -/
structure AvcRecord where
  profile : UInt8
  compatibility : UInt8
  level : UInt8
  lengthSizeMinusOne : Fin 4
  extension : List UInt8

/-- The record with its version 1, and a count and a length of two bytes in front of each set. -/
def AvcRecord.bytes (record : AvcRecord) (sps pps : List UInt8) : List UInt8 :=
  [1, record.profile, record.compatibility, record.level,
    0xfc + UInt8.ofNat record.lengthSizeMinusOne, 0xe1, 0, UInt8.ofNat sps.length] ++ sps ++
    [1, 0, UInt8.ofNat pps.length] ++ pps ++ record.extension

inductive Layout where
  | fourByte
  | threeByte
  | avcC (record : AvcRecord)

namespace Layout

/-- The start code that the sets are handed over with. -/
def code : Layout → List UInt8
  | .fourByte => startCodeOf 3
  | .threeByte => startCodeOf 2
  | .avcC _ => startCodeOf 3

def bytes : Layout → List UInt8 → List UInt8 → List UInt8
  | .fourByte, sps, pps => startCoded 3 sps pps
  | .threeByte, sps, pps => startCoded 2 sps pps
  | .avcC record, sps, pps => record.bytes sps pps

end Layout

/-! ## Start codes -/

theorem getElem?_of_startCode {zeros k : ℕ} {data : List UInt8}
    (h : startCodeOf zeros <+: data.drop k) :
    (∀ t < zeros, data[k + t]? = some 0) ∧ data[k + zeros]? = some 1 := by
  obtain ⟨rest, hrest⟩ := h
  constructor
  · intro t ht
    rw [← List.getElem?_drop, ← hrest, startCodeOf, List.append_assoc,
      List.getElem?_append_left (by simpa using ht), List.getElem?_replicate, if_pos ht]
  · rw [← List.getElem?_drop, ← hrest, startCodeOf, List.append_assoc,
      List.getElem?_append_right (by simp), List.length_replicate, Nat.sub_self]
    rfl

theorem length_startCodeOf (zeros : ℕ) : (startCodeOf zeros).length = zeros + 1 := by
  simp [startCodeOf]

/-- Behind the first start code there is none before the second one. -/
theorem not_startCode_before {zeros k : ℕ} (hzeros : 2 ≤ zeros) {sps data : List UInt8}
    (hsps : ∀ b ≤ 2, ¬ [0, 0, b] <:+: sps) (hfirst : startCodeOf zeros <+: data.drop 0)
    (hbetween : sps <+: data.drop (zeros + 1))
    (hsecond : startCodeOf zeros <+: data.drop (zeros + 1 + sps.length)) (hk : 1 ≤ k)
    (hlt : k < zeros + 1 + sps.length) : ¬ startCodeOf zeros <+: data.drop k := by
  intro h
  obtain ⟨hzero, hone⟩ := getElem?_of_startCode h
  by_cases hhead : k ≤ zeros
  · have hend := (getElem?_of_startCode hfirst).2
    have hinside := hzero (zeros - k) (by omega)
    rw [Nat.add_sub_cancel' hhead] at hinside
    rw [Nat.zero_add, hinside] at hend
    cases hend
  by_cases hover : zeros + 1 + sps.length ≤ k + zeros
  · have hinside := (getElem?_of_startCode hsecond).1 (k + zeros - (zeros + 1 + sps.length))
      (by omega)
    rw [Nat.add_sub_cancel' hover, hone] at hinside
    cases hinside
  -- a start code inside the set
  obtain ⟨t, rfl⟩ := Nat.exists_eq_add_of_lt (not_le.mp hhead)
  have hset : sps.drop t <+: data.drop (zeros + t + 1) := by
    rw [show zeros + t + 1 = zeros + 1 + t by omega, ← List.drop_drop]
    exact hbetween.drop t
  have hcode : startCodeOf zeros <+: sps.drop t := by
    refine List.prefix_of_prefix_length_le h hset ?_
    rw [length_startCodeOf, List.length_drop]
    omega
  have hsuffix : [0, 0, 1] <:+ startCodeOf zeros := by
    obtain ⟨n, rfl⟩ := Nat.exists_eq_add_of_le' hzeros
    exact ⟨List.replicate n 0, by rw [startCodeOf, List.replicate_add, List.append_assoc]; rfl⟩
  exact hsps 1 (by decide)
    (hsuffix.isInfix.trans (hcode.isInfix.trans (List.drop_suffix t sps).isInfix))

/-- The search for the second start code ends where it is. -/
theorem findFrom_startCoded {zeros : ℕ} (hzeros : 2 ≤ zeros) {sps pps : List UInt8}
    (hsps : ∀ b ≤ 2, ¬ [0, 0, b] <:+: sps) :
    findFrom JavaException.arrayIndexOutOfBounds (startCoded zeros sps pps) (startCodeOf zeros)
      ((startCoded zeros sps pps).length - 1) 1 = .ok (some (zeros + 1 + sps.length)) := by
  have hbetween : (startCoded zeros sps pps).drop (zeros + 1) =
      sps ++ (startCodeOf zeros ++ pps) := List.drop_left' (length_startCodeOf zeros)
  have hsecond : startCodeOf zeros <+: (startCoded zeros sps pps).drop (zeros + 1 + sps.length) := by
    rw [← List.drop_drop, hbetween, List.drop_left]
    exact List.prefix_append _ _
  refine findFrom_of_first (by omega) ?_ hsecond fun k hk hlt => ?_
  · simp only [startCoded, List.length_append, length_startCodeOf]
    omega
  · refine not_startCode_before hzeros hsps (List.prefix_append _ _) ?_ hsecond hk hlt
    rw [hbetween]
    exact List.prefix_append _ _

theorem csd_of_startCode {mark : Mark} {zeros : ℕ} {sps pps : List UInt8}
    (h : startCode JavaException.arrayIndexOutOfBounds (startCoded zeros sps pps) =
      .ok (some (mark, zeros + 1 + sps.length))) :
    (PlayerActivity.handleSpsPps (startCoded zeros sps pps)).csd =
      some (startCodeOf zeros ++ sps, startCodeOf zeros ++ pps) := by
  have hlength : (startCodeOf zeros ++ sps).length = zeros + 1 + sps.length := by
    rw [List.length_append, length_startCodeOf]
  unfold PlayerActivity.handleSpsPps
  rw [trySpsPps_of_startCode h, startCoded, ← List.append_assoc, List.take_left' hlength,
    List.drop_left' hlength]

theorem csd_fourByte {sps pps : List UInt8} (hsps : ∀ b ≤ 2, ¬ [0, 0, b] <:+: sps) :
    (PlayerActivity.handleSpsPps (startCoded 3 sps pps)).csd =
      some (startCodeOf 3 ++ sps, startCodeOf 3 ++ pps) := by
  apply @csd_of_startCode .MARK1
  have hstart : startsAt JavaException.arrayIndexOutOfBounds (startCoded 3 sps pps) 0
      [0, 0, 0, 1] = .ok true := startsAt_eq_true.mpr (List.prefix_append (startCodeOf 3) _)
  have hfind := @findFrom_startCoded 3 (by decide) sps pps hsps
  rw [startCode, hstart, ok_bind, if_pos rfl]
  exact congrArg (· >>= fun index => .ok (Option.map (Mark.MARK1, ·) index)) hfind

theorem csd_threeByte {sps pps : List UInt8} (hsps : ∀ b ≤ 2, ¬ [0, 0, b] <:+: sps) :
    (PlayerActivity.handleSpsPps (startCoded 2 sps pps)).csd =
      some (startCodeOf 2 ++ sps, startCodeOf 2 ++ pps) := by
  apply @csd_of_startCode .MARK2
  have hfour : startsAt JavaException.arrayIndexOutOfBounds (startCoded 2 sps pps) 0
      [0, 0, 0, 1] = .ok false := rfl
  have hstart : startsAt JavaException.arrayIndexOutOfBounds (startCoded 2 sps pps) 0
      [0, 0, 1] = .ok true := startsAt_eq_true.mpr (List.prefix_append (startCodeOf 2) _)
  have hfind := @findFrom_startCoded 2 (by decide) sps pps hsps
  rw [startCode, hfour, ok_bind, if_neg Bool.false_ne_true, hstart, ok_bind, if_pos rfl]
  exact congrArg (· >>= fun index => .ok (Option.map (Mark.MARK2, ·) index)) hfind

/-! ## Lengths -/

/-- The byte at `i` is `type`, and the byte before it is a positive length. -/
def Starts (type : UInt8) (data : List UInt8) (i : ℕ) : Prop :=
  data[i]? = some type ∧ 0 < PlayerActivity.byteValue (data.getD (i - 1) 0)

/-- What a search has found of the first type in the first `n` bytes: its first start. -/
def SeenFirst (type : UInt8) (data : List UInt8) (n : ℕ) : Option ℕ → ℤ → Prop
  | none, _ => ∀ i < n, ¬ Starts type data i
  | some i, length => i < n ∧ Starts type data i ∧ (∀ j < i, ¬ Starts type data j) ∧
      length = PlayerActivity.byteValue (data.getD (i - 1) 0)

/-- What a search has found of the second type in the first `n` bytes: the last of it. -/
def SeenLast (type : UInt8) (data : List UInt8) (n : ℕ) : Option ℕ → ℤ → Prop
  | none, _ => ∀ i < n, data[i]? ≠ some type
  | some i, length => i < n ∧ data[i]? = some type ∧
      (∀ j < n, i < j → data[j]? ≠ some type) ∧
      length = PlayerActivity.byteValue (data.getD (i - 1) 0)

def Seen (spsType ppsType : UInt8) (data : List UInt8) (n : ℕ) (found : Found) : Prop :=
  SeenFirst spsType data n found.spsIndex found.spsLength ∧
    SeenLast ppsType data n found.ppsIndex found.ppsLength

section

variable {type : UInt8} {data : List UInt8} {n : ℕ} {index : Option ℕ} {length : ℤ}

theorem forall_lt_succ {p : ℕ → Prop} (hbefore : ∀ j < n, p j) (hhere : p n) :
    ∀ j < n + 1, p j := by
  intro j hj
  rcases Nat.lt_succ_iff_lt_or_eq.mp hj with hlt | rfl
  · exact hbefore j hlt
  · exact hhere

theorem SeenFirst.skip (h : SeenFirst type data n index length)
    (hnot : index = none → ¬ Starts type data n) : SeenFirst type data (n + 1) index length := by
  cases index with
  | none => exact forall_lt_succ h (hnot rfl)
  | some i => exact ⟨Nat.lt_succ_of_lt h.1, h.2⟩

theorem SeenFirst.take (h : SeenFirst type data n none length) (hstarts : Starts type data n) :
    SeenFirst type data (n + 1) (some n)
      (PlayerActivity.byteValue (data.getD (n - 1) 0)) :=
  ⟨Nat.lt_succ_self n, hstarts, h, rfl⟩

theorem SeenLast.skip (h : SeenLast type data n index length) (hnot : data[n]? ≠ some type) :
    SeenLast type data (n + 1) index length := by
  cases index with
  | none => exact forall_lt_succ h hnot
  | some i =>
      obtain ⟨hlt, hget, hafter, hlength⟩ := h
      exact ⟨Nat.lt_succ_of_lt hlt, hget, forall_lt_succ hafter fun _ => hnot, hlength⟩

theorem SeenLast.take (hget : data[n]? = some type) :
    SeenLast type data (n + 1) (some n)
      (PlayerActivity.byteValue (data.getD (n - 1) 0)) :=
  ⟨Nat.lt_succ_self n, hget, fun j hj hlt => absurd hj (by omega), rfl⟩

end

section

variable {spsType ppsType : UInt8} {data : List UInt8} {n i : ℕ} {found : Found}

theorem seen_none : Seen spsType ppsType data 0 .none :=
  ⟨fun _ h => absurd h (Nat.not_lt_zero _), fun _ h => absurd h (Nat.not_lt_zero _)⟩

theorem read_eq {j : ℕ} (hj : j < data.length) :
    Scanning.read JavaException.arrayIndexOutOfBounds data j = .ok (data.getD j 0) := by
  refine read_eq_ok.mpr ⟨Int.natCast_nonneg j, ?_⟩
  rw [Int.toNat_natCast, List.getElem?_eq_getElem hj, List.getD_eq_getElem?_getD,
    List.getElem?_eq_getElem hj, Option.getD_some]

theorem read_before {j : ℕ} (hpos : j ≠ 0) (hj : j < data.length) :
    Scanning.read JavaException.arrayIndexOutOfBounds data ((j : ℤ) - 1) =
      .ok (data.getD (j - 1) 0) := by
  rw [show (j : ℤ) - 1 = (j - 1 : ℕ) by omega]
  exact read_eq (by omega)

variable (hne : spsType ≠ ppsType) (hsps : data[0]? ≠ some spsType) (hpps : data[0]? ≠ some ppsType)
include hne hsps hpps

/-- One round of the loop. -/
theorem Seen.note (h : Seen spsType ppsType data i found) (hi : i < data.length) :
    ∃ next, note JavaException.arrayIndexOutOfBounds PlayerActivity.byteValue spsType ppsType data i
      found = .ok next ∧ Seen spsType ppsType data (i + 1) next := by
  have hget : data[i]? = some (data.getD i 0) := (read_eq_ok.mp (read_eq hi)).2
  unfold SpsPps.note
  rw [read_eq hi, ok_bind]
  by_cases hfirst : data.getD i 0 = spsType
  · rw [hfirst] at hget
    have hpos : i ≠ 0 := fun hzero => hsps (hzero ▸ hget)
    have hlast := h.2.skip fun heq => hne (Option.some.inj (hget.symm.trans heq))
    rw [if_pos hfirst]
    by_cases hnone : found.spsIndex = none
    · have hseen := h.1
      rw [hnone] at hseen
      rw [if_pos hnone, read_before hpos hi, ok_bind]
      refine ⟨_, rfl, ?_, hlast⟩
      dsimp only
      split
      · rename_i hle
        exact forall_lt_succ hseen fun hstarts => absurd hstarts.2 (by omega)
      · rename_i hpositive
        exact hseen.take ⟨hget, by omega⟩
    · rw [if_neg hnone]
      exact ⟨_, rfl, h.1.skip fun heq => absurd heq hnone, hlast⟩
  rw [if_neg hfirst]
  have hskip := h.1.skip fun _ hstarts =>
    hfirst (Option.some.inj (hget.symm.trans hstarts.1))
  by_cases hsecond : data.getD i 0 = ppsType
  · rw [hsecond] at hget
    have hpos : i ≠ 0 := fun hzero => hpps (hzero ▸ hget)
    rw [if_pos hsecond, read_before hpos hi, ok_bind]
    exact ⟨_, rfl, hskip, .take hget⟩
  · rw [if_neg hsecond]
    exact ⟨_, rfl, hskip, h.2.skip fun heq => hsecond (Option.some.inj (hget.symm.trans heq))⟩

/-- The loop ends, and has seen all bytes. -/
theorem Seen.scan (h : Seen spsType ppsType data i found) (hn : i + n ≤ data.length) :
    ∃ next, scan JavaException.arrayIndexOutOfBounds PlayerActivity.byteValue spsType ppsType data n
      i found = .ok next ∧ Seen spsType ppsType data (i + n) next := by
  induction n generalizing i found with
  | zero => exact ⟨found, rfl, h⟩
  | succ n ih =>
      obtain ⟨mid, hmid, hseen⟩ := h.note hne hsps hpps (by omega)
      obtain ⟨next, hnext, hfinal⟩ := ih hseen (by omega)
      refine ⟨next, ?_, ?_⟩
      · rw [SpsPps.scan, hmid, ok_bind, hnext]
      · rwa [Nat.add_right_comm] at hfinal

end

/-! ## Copies -/

/-- A buffer with the start code and `length` bytes from `i` on. -/
def copied (data : List UInt8) (i : ℕ) (length : ℤ) : Except JavaException (List UInt8) := do
  let set ← newArray (length + 4)
  let set ← arraycopy [0, 0, 0, 1] 0 set 0 4
  arraycopy data i set 4 length

theorem copied_natCast {data : List UInt8} {i n : ℕ} (h : i + n ≤ data.length) :
    copied data i n = .ok (startCodeOf 3 ++ (data.drop i).take n) := by
  have hcode : arraycopy [0, 0, 0, 1] (0 : ℕ) (List.replicate (n + 4) (0 : UInt8)) (0 : ℕ) (4 : ℕ) =
      .ok _ := arraycopy_ok (by simp) (by simp)
  have hset : arraycopy data i (startCodeOf 3 ++ List.replicate n 0) (4 : ℕ) n = .ok _ :=
    arraycopy_ok h (by simp [length_startCodeOf])
  have hfull : (List.replicate n (0 : UInt8)).drop ((data.drop i).take n).length = [] := by
    rw [List.drop_eq_nil_iff, List.length_replicate, List.length_take, List.length_drop]
    omega
  rw [blit_append (by rfl), hfull, List.append_nil] at hset
  rw [copied, show (n : ℤ) + 4 = (n + 4 : ℕ) by omega, newArray_natCast, ok_bind]
  refine Eq.trans (congrArg (· >>= _) hcode) ?_
  rw [ok_bind, blit_zero]
  exact hset

theorem copied_eq_ok {data : List UInt8} {i : ℕ} {length : ℤ} {set : List UInt8}
    (hi : i ≤ data.length) :
    copied data i length = .ok (startCodeOf 3 ++ set) ↔
      length = set.length ∧ set <+: data.drop i := by
  constructor
  · intro h
    obtain ⟨buffer, -, hrest⟩ := bind_eq_ok.mp h
    obtain ⟨coded, -, hcopy⟩ := bind_eq_ok.mp hrest
    obtain ⟨-, -, hnonneg, hle, -⟩ := returns_arraycopy.mp ⟨_, hcopy⟩
    obtain ⟨n, rfl⟩ := Int.eq_ofNat_of_zero_le hnonneg
    rw [copied_natCast (by omega)] at h
    obtain rfl := List.append_cancel_left (Except.ok.inj h)
    refine ⟨?_, List.take_prefix _ _⟩
    rw [List.length_take, List.length_drop]
    omega
  · rintro ⟨rfl, hprefix⟩
    have hle := hprefix.length_le
    rw [List.length_drop] at hle
    rw [copied_natCast (by omega), ← List.prefix_iff_eq_take.mp hprefix]

/-- Without start codes the player copies what was found, if it is all there. -/
theorem csd_of_lengths {data sps pps : List UInt8} {mark : Mark} {found : Found}
    (hcode : startCode JavaException.arrayIndexOutOfBounds data = .ok none)
    (hfound : lengths JavaException.arrayIndexOutOfBounds PlayerActivity.byteValue data =
      .ok (mark, found)) :
    (PlayerActivity.handleSpsPps data).csd = some (sps, pps) ↔
      ∃ i j, found.spsIndex = some i ∧ found.ppsIndex = some j ∧
        copied data i found.spsLength = .ok sps ∧ copied data j found.ppsLength = .ok pps := by
  have htry : (PlayerActivity.handleSpsPps data).csd = some (sps, pps) ↔
      ∃ mark, PlayerActivity.trySpsPps data = .ok ⟨mark, some (sps, pps)⟩ := by
    unfold PlayerActivity.handleSpsPps
    cases PlayerActivity.trySpsPps data with
    | error e => exact iff_of_false nofun nofun
    | ok configured =>
        obtain ⟨mark, csd⟩ := configured
        simp
  rw [htry]
  unfold PlayerActivity.trySpsPps
  rw [hcode, ok_bind]
  dsimp only
  rw [hfound, ok_bind]
  dsimp only
  cases hsps : found.spsIndex with
  | none => exact iff_of_false nofun nofun
  | some i =>
      cases hpps : found.ppsIndex with
      | none => exact iff_of_false nofun nofun
      | some j =>
          dsimp only
          constructor
          · rintro ⟨mark', h⟩
            obtain ⟨sps₁, hsps₁, h⟩ := bind_eq_ok.mp h
            obtain ⟨pps₁, hpps₁, h⟩ := bind_eq_ok.mp h
            obtain ⟨sps₂, hsps₂, h⟩ := bind_eq_ok.mp h
            obtain ⟨pps₂, hpps₂, h⟩ := bind_eq_ok.mp h
            obtain ⟨sps₃, hsps₃, h⟩ := bind_eq_ok.mp h
            obtain ⟨pps₃, hpps₃, h⟩ := bind_eq_ok.mp h
            cases h
            refine ⟨i, j, rfl, rfl, ?_, ?_⟩
            · rw [copied, hsps₁, ok_bind, hsps₂, ok_bind, hsps₃]
            · rw [copied, hpps₁, ok_bind, hpps₂, ok_bind, hpps₃]
          · rintro ⟨_, _, ⟨⟩, ⟨⟩, hcopiedSps, hcopiedPps⟩
            obtain ⟨sps₁, hsps₁, h⟩ := bind_eq_ok.mp hcopiedSps
            obtain ⟨sps₂, hsps₂, hsps₃⟩ := bind_eq_ok.mp h
            obtain ⟨pps₁, hpps₁, h⟩ := bind_eq_ok.mp hcopiedPps
            obtain ⟨pps₂, hpps₂, hpps₃⟩ := bind_eq_ok.mp h
            refine ⟨mark, ?_⟩
            rw [hsps₁, ok_bind, hpps₁, ok_bind, hsps₂, ok_bind, hpps₂, ok_bind, hsps₃, ok_bind,
              hpps₃]
            rfl

/-! ## Records -/

/-- The first start of the type has the length of the set in front, and the set follows. -/
def IsFirst (type : UInt8) (set data : List UInt8) : Prop :=
  ∃ i, Starts type data i ∧ (∀ j < i, ¬ Starts type data j) ∧
    PlayerActivity.byteValue (data.getD (i - 1) 0) = set.length ∧ set <+: data.drop i

/-- The last byte of the type has the length of the set in front, and the set follows. -/
def IsLast (type : UInt8) (set data : List UInt8) : Prop :=
  ∃ i, data[i]? = some type ∧ (∀ j, i < j → data[j]? ≠ some type) ∧
    PlayerActivity.byteValue (data.getD (i - 1) 0) = set.length ∧ set <+: data.drop i

/-- There is nothing to find for one of the types. -/
def Lacks (spsType ppsType : UInt8) (data : List UInt8) : Prop :=
  (∀ i, ¬ Starts spsType data i) ∨ ppsType ∉ data

/-- Both sets are found by a search, and an earlier search does not end with others. -/
def Recoverable (data sps pps : List UInt8) : Prop :=
  IsFirst 103 sps data ∧ IsLast 104 pps data ∨
    Lacks 103 104 data ∧ IsFirst 39 sps data ∧ IsLast 40 pps data

section

variable {type : UInt8} {data set : List UInt8} {index : Option ℕ} {length : ℤ}

theorem Starts.lt {i : ℕ} (h : Starts type data i) : i < data.length :=
  (List.getElem?_eq_some_iff.mp h.1).1

theorem SeenFirst.iff (h : SeenFirst type data data.length index length) :
    (∃ i, index = some i ∧ length = set.length ∧ set <+: data.drop i) ↔ IsFirst type set data := by
  cases index with
  | none =>
      refine iff_of_false (fun ⟨_, hnone, _⟩ => by cases hnone) ?_
      rintro ⟨i, hstarts, -⟩
      exact h i hstarts.lt hstarts
  | some i =>
      obtain ⟨-, hstarts, hfirst, rfl⟩ := h
      constructor
      · rintro ⟨_, ⟨⟩, hlength, hset⟩
        exact ⟨i, hstarts, hfirst, hlength, hset⟩
      · rintro ⟨j, hstarts', hfirst', hlength, hset⟩
        obtain rfl : i = j := by
          rcases Nat.lt_trichotomy i j with hlt | heq | hlt
          · exact absurd hstarts (hfirst' i hlt)
          · exact heq
          · exact absurd hstarts' (hfirst j hlt)
        exact ⟨i, rfl, hlength, hset⟩

theorem SeenLast.iff (h : SeenLast type data data.length index length) :
    (∃ i, index = some i ∧ length = set.length ∧ set <+: data.drop i) ↔ IsLast type set data := by
  have hlt : ∀ {j : ℕ}, data[j]? = some type → j < data.length := fun hget =>
    (List.getElem?_eq_some_iff.mp hget).1
  cases index with
  | none =>
      refine iff_of_false (fun ⟨_, hnone, _⟩ => by cases hnone) ?_
      rintro ⟨i, hget, -⟩
      exact h i (hlt hget) hget
  | some i =>
      obtain ⟨-, hget, hlast, rfl⟩ := h
      constructor
      · rintro ⟨_, ⟨⟩, hlength, hset⟩
        refine ⟨i, hget, fun j hj hget' => ?_, hlength, hset⟩
        exact hlast j (hlt hget') hj hget'
      · rintro ⟨j, hget', hlast', hlength, hset⟩
        obtain rfl : i = j := by
          rcases Nat.lt_trichotomy i j with hij | heq | hji
          · exact absurd hget' (hlast j (hlt hget') hij)
          · exact heq
          · exact absurd hget (hlast' i hji)
        exact ⟨i, rfl, hlength, hset⟩

theorem SeenFirst.exists_iff (h : SeenFirst type data data.length index length) :
    index = none ↔ ∀ i, ¬ Starts type data i := by
  cases index with
  | none => exact iff_of_true rfl fun i hstarts => h i hstarts.lt hstarts
  | some i => exact iff_of_false (Option.some_ne_none i) fun hnone => hnone i h.2.1

theorem SeenLast.exists_iff (h : SeenLast type data data.length index length) :
    index = none ↔ type ∉ data := by
  cases index with
  | none =>
      refine iff_of_true rfl fun hmem => ?_
      obtain ⟨i, hi⟩ := List.mem_iff_getElem?.mp hmem
      exact h i (List.getElem?_eq_some_iff.mp hi).1 hi
  | some i =>
      exact iff_of_false (Option.some_ne_none i) fun hnot => hnot (List.mem_of_getElem? h.2.1)

end

section

variable {spsType ppsType : UInt8} {data sps pps : List UInt8} {found : Found}

theorem not_lacks (hfirst : IsFirst spsType sps data) (hlast : IsLast ppsType pps data) :
    ¬ Lacks spsType ppsType data := by
  rintro (hnone | hnot)
  · obtain ⟨i, hstarts, -⟩ := hfirst
    exact hnone i hstarts
  · obtain ⟨i, hget, -⟩ := hlast
    exact hnot (List.mem_of_getElem? hget)

variable (hseen : Seen spsType ppsType data data.length found)
include hseen

theorem Seen.lacks_iff :
    found.spsIndex = .none ∨ found.ppsIndex = .none ↔ Lacks spsType ppsType data :=
  or_congr hseen.1.exists_iff hseen.2.exists_iff

theorem Seen.copied_iff :
    (∃ i j, found.spsIndex = some i ∧ found.ppsIndex = some j ∧
      copied data i found.spsLength = .ok (startCodeOf 3 ++ sps) ∧
      copied data j found.ppsLength = .ok (startCodeOf 3 ++ pps)) ↔
        IsFirst spsType sps data ∧ IsLast ppsType pps data := by
  rw [← hseen.1.iff, ← hseen.2.iff]
  have hsps : ∀ i, found.spsIndex = some i → i ≤ data.length := by
    intro i hi
    have hlt := hseen.1
    rw [hi] at hlt
    exact hlt.1.le
  have hpps : ∀ j, found.ppsIndex = some j → j ≤ data.length := by
    intro j hj
    have hlt := hseen.2
    rw [hj] at hlt
    exact hlt.1.le
  constructor
  · rintro ⟨i, j, hi, hj, hcopiedSps, hcopiedPps⟩
    exact ⟨⟨i, hi, (copied_eq_ok (hsps i hi)).mp hcopiedSps⟩,
      j, hj, (copied_eq_ok (hpps j hj)).mp hcopiedPps⟩
  · rintro ⟨⟨i, hi, hset⟩, j, hj, hset'⟩
    exact ⟨i, j, hi, hj, (copied_eq_ok (hsps i hi)).mpr hset, (copied_eq_ok (hpps j hj)).mpr hset'⟩

end

/-- Of data that begin with a one the player recovers the sets exactly if they can be found. -/
theorem csd_iff_recoverable {data sps pps : List UInt8} (hhead : data[0]? = some 1) :
    (PlayerActivity.handleSpsPps data).csd = some (startCodeOf 3 ++ sps, startCodeOf 3 ++ pps) ↔
      Recoverable data sps pps := by
  have hcode : startCode JavaException.arrayIndexOutOfBounds data = .ok none := by
    cases data with
    | nil => cases hhead
    | cons b data =>
        cases hhead
        rfl
  have hpass : ∀ {spsType ppsType : UInt8}, spsType ≠ ppsType → spsType ≠ 1 → ppsType ≠ 1 →
      ∃ found, scan JavaException.arrayIndexOutOfBounds PlayerActivity.byteValue spsType ppsType
        data data.length 0 .none = .ok found ∧ Seen spsType ppsType data data.length found := by
    intro spsType ppsType hne hsps hpps
    obtain ⟨found, hscan, hseen⟩ := seen_none.scan hne
      (fun heq => hsps (Option.some.inj (hhead.symm.trans heq)).symm)
      (fun heq => hpps (Option.some.inj (hhead.symm.trans heq)).symm)
      (Nat.zero_add data.length).le
    rw [Nat.zero_add] at hseen
    exact ⟨found, hscan, hseen⟩
  obtain ⟨found, hscan, hseen⟩ := @hpass 103 104 (by decide) (by decide) (by decide)
  obtain ⟨found', hscan', hseen'⟩ := @hpass 39 40 (by decide) (by decide) (by decide)
  by_cases hlacks : Lacks 103 104 data
  · have hfound : lengths JavaException.arrayIndexOutOfBounds PlayerActivity.byteValue data =
        .ok (.MARK4, found') := by
      rw [lengths, hscan, ok_bind, if_pos (hseen.lacks_iff.mpr hlacks), hscan']
      rfl
    rw [csd_of_lengths hcode hfound, hseen'.copied_iff]
    exact ⟨fun h => .inr ⟨hlacks, h⟩,
      fun h => (h.resolve_left fun hfirst => not_lacks hfirst.1 hfirst.2 hlacks).2⟩
  · have hfound : lengths JavaException.arrayIndexOutOfBounds PlayerActivity.byteValue data =
        .ok (.MARK3, found) := by
      rw [lengths, hscan, ok_bind, if_neg (hseen.lacks_iff.not.mpr hlacks)]
      rfl
    rw [csd_of_lengths hcode hfound, hseen.copied_iff]
    exact ⟨.inl, fun h => h.resolve_right fun hsecond => hlacks hsecond.1⟩

/-! ## Layouts of parameter sets -/

/-- What the bytes of a layout have to be like. -/
def Layout.Recovers (layout : Layout) (sps pps : List UInt8) : Prop :=
  match layout with
  | .fourByte => True
  | .threeByte => True
  | .avcC record => Recoverable (record.bytes sps pps) sps pps

/-- Behind start codes the parameter sets are always recovered, from a record if and only if the
first and the last byte of their types, with a positive length before the first, are theirs. -/
theorem handleSpsPps_recovers_iff (layout : Layout) (sps : ParameterSet 7) (pps : ParameterSet 8) :
    (PlayerActivity.handleSpsPps (layout.bytes sps.bytes pps.bytes)).csd =
        some (layout.code ++ sps.bytes, layout.code ++ pps.bytes) ↔
      layout.Recovers sps.bytes pps.bytes := by
  cases layout with
  | fourByte => exact iff_true_intro (csd_fourByte sps.no_start_code)
  | threeByte => exact iff_true_intro (csd_threeByte sps.no_start_code)
  | avcC record => exact csd_iff_recoverable rfl

/-- A picture parameter set with a second 104 inside: the negative byte before that one is
taken for its length. -/
theorem record_not_recovered :
    ¬ ∀ (layout : Layout) (sps : ParameterSet 7) (pps : ParameterSet 8),
      (PlayerActivity.handleSpsPps (layout.bytes sps.bytes pps.bytes)).csd =
        some (layout.code ++ sps.bytes, layout.code ++ pps.bytes) := by
  intro h
  let sps : ParameterSet 7 :=
    { header := 103
      body := [66, 128, 30, 150, 82, 2, 224, 163, 96, 41]
      forbidden_zero := by decide
      type_bounds := by decide
      no_start_code := by decide +kernel
      last_ne_zero := by decide
      ref_idc := by decide
      short := by decide }
  let pps : ParameterSet 8 :=
    { header := 104
      body := [203, 104, 72]
      forbidden_zero := by decide
      type_bounds := by decide
      no_start_code := by decide +kernel
      last_ne_zero := by decide
      ref_idc := by decide
      short := by decide }
  have hcsd := h (.avcC ⟨66, 128, 30, 3, []⟩) sps pps
  revert hcsd
  decide +kernel

end MirrorCast.Native
