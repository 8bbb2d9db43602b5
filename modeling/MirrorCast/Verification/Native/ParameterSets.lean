import Mathlib.Tactic.IntervalCases
import MirrorCast.Verification.Native.Configuration

/-! # When the native `handleSpsPps` stays inside the parameter sets -/

namespace MirrorCast.Native

open Java Scanning SpsPps

variable {ε : Type*} {oob : ε} {sps_pps : List UInt8}

/-! ## Start codes -/

def BeginsWithStartCode (sps_pps : List UInt8) : Prop :=
  ∃ code ∈ ([[0, 0, 0, 1], [0, 0, 1]] : List (List UInt8)), code <+: sps_pps

/-- The byte in front of a place. -/
def lengthBefore (sps_pps : List UInt8) (i : ℕ) : ℕ := (sps_pps.getD (i - 1) 0).toNat

/-- The first place of the type with a length in front, among the first `n`. -/
def IsSps (spsType : UInt8) (sps_pps : List UInt8) (n i : ℕ) : Prop :=
  FirstBelow (fun k => sps_pps[k]? = some spsType ∧ 0 < lengthBefore sps_pps k) n i

/-- The last place of the type among the first `n`. -/
def IsPps (ppsType : UInt8) (sps_pps : List UInt8) (n j : ℕ) : Prop :=
  LastBelow (fun k => sps_pps[k]? = some ppsType) n j

/-- The search after `n` bytes. -/
structure Spotted (spsType ppsType : UInt8) (sps_pps : List UInt8) (n : ℕ) (found : Found) :
    Prop where
  sps : ∀ i, found.spsIndex = some i ↔ IsSps spsType sps_pps n i
  pps : ∀ j, found.ppsIndex = some j ↔ IsPps ppsType sps_pps n j
  spsLength : ∀ i, found.spsIndex = some i → found.spsLength = lengthBefore sps_pps i
  ppsLength : ∀ j, found.ppsIndex = some j → found.ppsLength = lengthBefore sps_pps j

variable {spsType ppsType : UInt8} {n : ℕ} {found next : Found}

theorem Spotted.none : Spotted spsType ppsType sps_pps 0 .none where
  sps := fun i => ⟨fun h => (by cases h), fun h => absurd h.1 (Nat.not_lt_zero i)⟩
  pps := fun j => ⟨fun h => (by cases h), fun h => absurd h.1 (Nat.not_lt_zero j)⟩
  spsLength := fun i h => by cases h
  ppsLength := fun j h => by cases h

theorem read_lengthBefore (h : n < sps_pps.length) (hn : n ≠ 0) :
    ∃ before : UInt8, Scanning.read oob sps_pps (n - 1) = .ok before ∧
      before.toNat = lengthBefore sps_pps n := by
  have hlt : n - 1 < sps_pps.length := by omega
  refine ⟨sps_pps[n - 1], read_eq_ok.mpr ⟨by omega, ?_⟩, ?_⟩
  · have hnat : ((n : ℤ) - 1).toNat = n - 1 := by omega
    rw [hnat, List.getElem?_eq_getElem hlt]
  · rw [lengthBefore, List.getD_eq_getElem?_getD, List.getElem?_eq_getElem hlt, Option.getD_some]

theorem read_place {b : UInt8} (hb : sps_pps[n]? = some b) :
    Scanning.read oob sps_pps n = .ok b :=
  read_eq_ok.mpr ⟨Int.natCast_nonneg n, by rw [Int.toNat_natCast, hb]⟩

/-- The search goes on past a byte of the first type unless nothing is in front of it. -/
theorem Spotted.note_sps (h : Spotted spsType ppsType sps_pps n found) (hne : spsType ≠ ppsType)
    (hb : sps_pps[n]? = some spsType) (hn : n ≠ 0) :
    ∃ next, SpsPps.note oob (fun b => b.toNat) spsType ppsType sps_pps n found = .ok next ∧
      Spotted spsType ppsType sps_pps (n + 1) next := by
  have hlt := (List.getElem?_eq_some_iff.mp hb).1
  have hpps : ∀ j, IsPps ppsType sps_pps (n + 1) j ↔ IsPps ppsType sps_pps n j := fun j =>
    lastBelow_succ_of_not (by simpa [hb] using hne)
  rw [SpsPps.note, read_place hb, ok_bind, if_pos rfl]
  cases hindex : found.spsIndex with
  | some i =>
      refine ⟨found, if_neg (by simp), fun k => ?_, fun j => (h.pps j).trans (hpps j).symm,
        h.spsLength, h.ppsLength⟩
      exact (h.sps k).trans (firstBelow_succ_of_skip fun _ => ⟨i, (h.sps i).mp hindex⟩).symm
  | none =>
      have hnone : ∀ i, ¬ IsSps spsType sps_pps n i := by
        intro i hi
        have hsome := (h.sps i).mpr hi
        rw [hindex] at hsome
        cases hsome
      obtain ⟨before, hread, hlength⟩ := @read_lengthBefore ε oob sps_pps n hlt hn
      rw [if_pos rfl, hread, ok_bind]
      refine ⟨_, rfl, fun k => ?_, fun j => (h.pps j).trans (hpps j).symm, fun k hk => ?_,
        h.ppsLength⟩
      · dsimp only
        split
        · rename_i hzero
          refine iff_of_false (by simp) fun hk => hnone k ?_
          refine (firstBelow_succ_of_skip fun hplace => ?_).mp hk
          exact absurd hplace.2 (by omega)
        · rename_i hpos
          rw [IsSps, firstBelow_succ_of_none ⟨hb, by omega⟩ hnone]
          simp [eq_comm]
      · dsimp only at hk ⊢
        split at hk
        · cases hk
        · cases hk
          rw [hlength]

theorem Spotted.note_pps (h : Spotted spsType ppsType sps_pps n found) (hne : spsType ≠ ppsType)
    (hb : sps_pps[n]? = some ppsType) (hn : n ≠ 0) :
    ∃ next, SpsPps.note oob (fun b => b.toNat) spsType ppsType sps_pps n found = .ok next ∧
      Spotted spsType ppsType sps_pps (n + 1) next := by
  have hlt := (List.getElem?_eq_some_iff.mp hb).1
  have hsps : ∀ i, IsSps spsType sps_pps (n + 1) i ↔ IsSps spsType sps_pps n i := fun i =>
    firstBelow_succ_of_skip fun hplace =>
      absurd (Option.some.inj (hplace.1.symm.trans hb)) hne
  obtain ⟨before, hread, hlength⟩ := @read_lengthBefore ε oob sps_pps n hlt hn
  rw [SpsPps.note, read_place hb, ok_bind, if_neg hne.symm, if_pos rfl, hread, ok_bind]
  refine ⟨_, rfl, fun i => (h.sps i).trans (hsps i).symm, fun j => ?_, h.spsLength,
    fun j hj => ?_⟩
  · rw [IsPps, lastBelow_succ hb]
    simp [eq_comm]
  · cases hj
    exact congrArg _ hlength

theorem Spotted.note_other {b : UInt8} (h : Spotted spsType ppsType sps_pps n found)
    (hb : sps_pps[n]? = some b) (hsps : b ≠ spsType) (hpps : b ≠ ppsType) :
    SpsPps.note oob (fun b => b.toNat) spsType ppsType sps_pps n found = .ok found ∧
      Spotted spsType ppsType sps_pps (n + 1) found := by
  constructor
  · rw [SpsPps.note, read_place hb, ok_bind, if_neg hsps, if_neg hpps]
    rfl
  · refine ⟨fun i => (h.sps i).trans ?_, fun j => (h.pps j).trans ?_, h.spsLength, h.ppsLength⟩
    · exact (firstBelow_succ_of_skip fun hplace =>
        absurd (Option.some.inj (hb.symm.trans hplace.1)) hsps).symm
    · exact (lastBelow_succ_of_not fun hplace =>
        hpps (Option.some.inj (hb.symm.trans hplace))).symm

/-- The data begin with one of the types, so that no length can be in front of it. -/
def Headed (spsType ppsType : UInt8) (sps_pps : List UInt8) : Prop :=
  sps_pps[0]? = some spsType ∨ sps_pps[0]? = some ppsType

theorem Spotted.note (h : Spotted spsType ppsType sps_pps n found) (hne : spsType ≠ ppsType)
    (hlt : n < sps_pps.length) (hheaded : ¬ Headed spsType ppsType sps_pps) :
    ∃ next, SpsPps.note oob (fun b => b.toNat) spsType ppsType sps_pps n found = .ok next ∧
      Spotted spsType ppsType sps_pps (n + 1) next := by
  have hb := List.getElem?_eq_getElem hlt
  by_cases hsps : sps_pps[n] = spsType
  · rw [hsps] at hb
    refine h.note_sps hne hb ?_
    rintro rfl
    exact hheaded (.inl hb)
  · by_cases hpps : sps_pps[n] = ppsType
    · rw [hpps] at hb
      refine h.note_pps hne hb ?_
      rintro rfl
      exact hheaded (.inr hb)
    · exact ⟨found, h.note_other hb hsps hpps⟩

theorem Spotted.scan {m : ℕ} (h : Spotted spsType ppsType sps_pps n found)
    (hne : spsType ≠ ppsType) (hle : n + m ≤ sps_pps.length) (hheaded : ¬ Headed spsType ppsType sps_pps) :
    ∃ next, SpsPps.scan oob (fun b => b.toNat) spsType ppsType sps_pps m n found = .ok next ∧
      Spotted spsType ppsType sps_pps (n + m) next := by
  induction m generalizing n found with
  | zero => exact ⟨found, rfl, h⟩
  | succ m ih =>
      obtain ⟨mid, hmid, hseen⟩ := @Spotted.note ε oob _ _ _ _ _ h hne (by omega) hheaded
      obtain ⟨next, hnext, hseen⟩ := ih hseen (by omega)
      rw [Nat.add_right_comm, Nat.add_assoc] at hseen
      exact ⟨next, by rw [SpsPps.scan, hmid, ok_bind, hnext], hseen⟩

/-- Both types are found. -/
def HasBoth (spsType ppsType : UInt8) (sps_pps : List UInt8) : Prop :=
  (∃ i, IsSps spsType sps_pps sps_pps.length i) ∧ ∃ j, IsPps ppsType sps_pps sps_pps.length j

/-- As many bytes follow as the byte in front says. -/
def Contained (sps_pps : List UInt8) (i : ℕ) : Prop :=
  i + lengthBefore sps_pps i ≤ sps_pps.length

/-- A search for the types stays inside the data, and so does the copying of what it finds. -/
structure Inside (spsType ppsType : UInt8) (sps_pps : List UInt8) : Prop where
  headed : ¬ Headed spsType ppsType sps_pps
  contained : ∀ i j, IsSps spsType sps_pps sps_pps.length i →
    IsPps ppsType sps_pps sps_pps.length j → Contained sps_pps i ∧ Contained sps_pps j

/-- What `handleSpsPps` can read. -/
structure Readable (sps_pps : List UInt8) : Prop where
  zeros : ¬ sps_pps <+: [0, 0, 0]
  startCodes : BeginsWithStartCode sps_pps → sps_pps.getLast? = some 0 → TwoStartCodes sps_pps
  lengths : ¬ TwoStartCodes sps_pps →
    Inside 103 104 sps_pps ∧ (¬ HasBoth 103 104 sps_pps → Inside 39 40 sps_pps)

section

variable {mark : Mark}

end

end MirrorCast.Native
