import MirrorCast.Program.MyJni
import MirrorCast.Program.Native.MediaData

/-! # The two players drop frames by the same rule, but for the second pass -/

namespace MirrorCast.Native

open Java MediaData

/-- No frame of the list is a key frame. -/
def Plain (list : List Data) : Prop := ∀ d ∈ list, d.isKey = false

theorem plain_cons {d : Data} {list : List Data} :
    Plain (d :: list) ↔ d.isKey = false ∧ Plain list := by
  simp [Plain]

/-- A list has no key frame, or it has a first one. -/
theorem plain_or_split (list : List Data) :
    Plain list ∨ ∃ lead k tail, list = lead ++ k :: tail ∧ Plain lead ∧ k.isKey = true := by
  induction list with
  | nil => exact .inl (by simp [Plain])
  | cons d list ih =>
      cases hkey : d.isKey with
      | true => exact .inr ⟨[], d, list, rfl, by simp [Plain], hkey⟩
      | false =>
          rcases ih with hplain | ⟨lead, k, tail, rfl, hlead, hk⟩
          · exact .inl (plain_cons.mpr ⟨hkey, hplain⟩)
          · exact .inr ⟨d :: lead, k, tail, rfl, plain_cons.mpr ⟨hkey, hlead⟩, hk⟩

/-! ## The scans and passes of the native player -/

section Scans

variable {lead tail : List Data} {k : Data}

theorem firstScan_plain (h : Plain lead) (count : ℕ) : (firstScan false count lead).1 = false := by
  induction lead generalizing count with
  | nil => rfl
  | cons d lead ih =>
      obtain ⟨hd, hlead⟩ := plain_cons.mp h
      rw [firstScan, hd]
      exact ih hlead (count + 1)

theorem firstScan_split (h : Plain lead) (hk : k.isKey = true) (firstKeyFrame : Bool) (count : ℕ) :
    firstScan firstKeyFrame count (lead ++ k :: tail) = (true, count + lead.length + 1) := by
  induction lead generalizing firstKeyFrame count with
  | nil => simp [firstScan, hk]
  | cons d lead ih =>
      obtain ⟨hd, hlead⟩ := plain_cons.mp h
      rw [List.cons_append, firstScan, hd, if_neg (by simp), ih hlead, List.length_cons,
        Nat.add_right_comm count 1, Nat.add_assoc count]

theorem firstPass_split (h : Plain lead) (hk : k.isKey = true) :
    firstPass (lead ++ k :: tail) = k :: tail := by
  induction lead with
  | nil => simp [firstPass, hk]
  | cons d lead ih =>
      obtain ⟨hd, hlead⟩ := plain_cons.mp h
      rw [List.cons_append, firstPass, hd, if_neg (by simp), ih hlead]

/-- Without a second key frame the search ends with the flag of the last frame. -/
theorem secondScan_plain (h : Plain tail) (firstKeyFrame : Bool) (count : ℕ) :
    (secondScan firstKeyFrame true count tail).1 = (tail.isEmpty && firstKeyFrame) := by
  induction tail generalizing firstKeyFrame count with
  | nil => simp [secondScan]
  | cons d tail ih =>
      obtain ⟨hd, htail⟩ := plain_cons.mp h
      rw [secondScan, hd, if_neg (by simp), Bool.false_or, ih htail]
      simp

theorem secondScan_split (h : Plain lead) (hk : k.isKey = true) (firstKeyFrame : Bool) (count : ℕ) :
    secondScan firstKeyFrame true count (lead ++ k :: tail) =
      (true, true, count + lead.length + 1) := by
  induction lead generalizing firstKeyFrame count with
  | nil => simp [secondScan, hk]
  | cons d lead ih =>
      obtain ⟨hd, hlead⟩ := plain_cons.mp h
      rw [List.cons_append, secondScan, hd, if_neg (by simp), Bool.false_or, ih hlead,
        List.length_cons, Nat.add_right_comm count 1, Nat.add_assoc count]

/-- A key frame at the front is met twice, and nothing leaves the list. -/
theorem secondPass_key (hk : k.isKey = true) : secondPass false (k :: tail) = k :: tail := by
  rw [secondPass, if_neg (by simp [hk]), if_neg (by simp), secondPass, if_neg (by simp [hk]),
    if_pos rfl]

theorem drainFrame_plain (h : Plain lead) : drainFrame lead = lead := by
  have hscan := firstScan_plain h 0
  unfold drainFrame
  dsimp only
  rw [hscan, if_neg (by simp)]

/-- The native player drops what comes before the first key frame, and no more. -/
theorem drainFrame_split (h : Plain lead) (hk : k.isKey = true) :
    drainFrame (lead ++ k :: tail) = k :: tail := by
  unfold drainFrame
  dsimp only
  rw [firstScan_split h hk, firstPass_split h hk]
  split
  · split
    · split
      · exact secondPass_key hk
      · rfl
    · rfl
  · rename_i hcount
    cases lead with
    | nil => rfl
    | cons d lead =>
        simp only [List.length_cons, Nat.zero_add, true_and] at hcount
        omega

end Scans

/-! ## The scans and passes of the Java player -/

theorem hasKeyFlag_data (d : Data) : MyJni.hasKeyFlag d.data = .ok d.isKey := by
  have hlast : d.data.getLast? = some d.flags := by
    rw [List.getLast?_eq_getElem?]
    exact List.getElem?_eq_getElem (Nat.sub_lt d.size_pos Nat.one_pos)
  rw [MyJni.hasKeyFlag, MyJni.flags, hlast]
  rfl

theorem firstScan_data (list : List Data) (firstKeyFrame : Bool) (count : ℕ) :
    MyJni.firstScan firstKeyFrame count (list.map Data.data) =
      .ok (firstScan firstKeyFrame count list) := by
  induction list generalizing firstKeyFrame count with
  | nil => rfl
  | cons d list ih =>
      rw [List.map_cons, MyJni.firstScan, hasKeyFlag_data, ok_bind, firstScan]
      split
      · rfl
      · exact ih false (count + 1)

theorem firstPass_data (list : List Data) :
    MyJni.firstPass (list.map Data.data) = .ok ((firstPass list).map Data.data) := by
  induction list with
  | nil => rfl
  | cons d list ih =>
      rw [List.map_cons, MyJni.firstPass, hasKeyFlag_data, ok_bind, firstPass]
      split
      · rfl
      · exact ih

theorem secondScan_data (list : List Data) (firstKeyFrame secondKeyFrame : Bool) (count : ℕ) :
    MyJni.secondScan firstKeyFrame secondKeyFrame (list.map Data.data) =
      .ok ((secondScan firstKeyFrame secondKeyFrame count list).1,
        (secondScan firstKeyFrame secondKeyFrame count list).2.1) := by
  induction list generalizing firstKeyFrame secondKeyFrame count with
  | nil => rfl
  | cons d list ih =>
      rw [List.map_cons, MyJni.secondScan, hasKeyFlag_data, ok_bind, secondScan]
      split
      · rfl
      · exact ih _ _ _

theorem secondPass_true {lead tail : List Data} {k : Data} (h : Plain lead) (hk : k.isKey = true) :
    MyJni.secondPass true ((lead ++ k :: tail).map Data.data) =
      .ok ((k :: tail).map Data.data) := by
  induction lead with
  | nil =>
      rw [List.nil_append, List.map_cons, MyJni.secondPass, hasKeyFlag_data, ok_bind, if_pos hk,
        if_pos rfl]
      rfl
  | cons d lead ih =>
      obtain ⟨hd, hlead⟩ := plain_cons.mp h
      rw [List.cons_append, List.map_cons, MyJni.secondPass, hasKeyFlag_data, ok_bind,
        if_neg (by simp [hd]), ih hlead]

theorem javaDrainFrame_plain {list : List Data} (h : Plain list) (takeCount : ℕ) :
    MyJni.drainFrame (list.map Data.data) takeCount = .ok (list.map Data.data) := by
  have hscan := firstScan_plain h 0
  unfold MyJni.drainFrame
  dsimp only
  split
  · rfl
  · rw [firstScan_data, ok_bind, hscan, if_neg (by simp)]
    rfl

theorem javaDrainFrame_key {k : Data} {tail : List Data} (hk : k.isKey = true) (takeCount : ℕ) :
    MyJni.drainFrame ((k :: tail).map Data.data) takeCount = .ok ((k :: tail).map Data.data) := by
  have hscan : firstScan false 0 ([] ++ k :: tail) = _ := firstScan_split (by simp [Plain]) hk false 0
  unfold MyJni.drainFrame
  dsimp only
  split
  · rfl
  · rw [List.nil_append] at hscan
    rw [firstScan_data, ok_bind, hscan, if_neg (by simp)]
    rfl

section JavaPasses

variable {lead tail : List Data} {k : Data} {takeCount : ℕ}

/-- With frames in front of the first key frame, what is left is up to the second pass. -/
theorem javaDrainFrame_split (htake : 10 ≤ takeCount) (hne : lead ≠ []) (h : Plain lead)
    (hk : k.isKey = true) :
    MyJni.drainFrame ((lead ++ k :: tail).map Data.data) takeCount =
      if (secondScan true true 1 tail).1 ∧ (secondScan true true 1 tail).2.1 then
        MyJni.secondPass false ((k :: tail).map Data.data)
      else .ok ((k :: tail).map Data.data) := by
  have hlead : 0 < lead.length := List.length_pos_of_ne_nil hne
  have hsecond : secondScan true false 0 (k :: tail) = secondScan true true 1 tail := by
    rw [secondScan, hk]
    rfl
  unfold MyJni.drainFrame
  dsimp only
  rw [if_neg (by omega), firstScan_data, firstScan_split h hk, ok_bind]
  dsimp only
  rw [if_pos ⟨rfl, by omega⟩, firstPass_data, firstPass_split h hk, ok_bind, if_pos (by
    simp only [List.length_map, List.length_append, List.length_cons]
    omega), secondScan_data _ _ _ 0, ok_bind, hsecond]
  rfl

theorem javaDrainFrame_last (htake : 10 ≤ takeCount) (hne : lead ≠ []) (h : Plain lead)
    (hk : k.isKey = true) (htail : Plain tail) :
    MyJni.drainFrame ((lead ++ k :: tail).map Data.data) takeCount =
      .ok ((k :: tail).map Data.data) := by
  rw [javaDrainFrame_split htake hne h hk, secondScan_plain htail]
  split
  · rename_i hscan
    cases tail with
    | nil =>
        rw [List.map_cons, MyJni.secondPass, hasKeyFlag_data, ok_bind, if_pos hk, if_neg (by simp)]
        rfl
    | cons d tail => simp at hscan
  · rfl

/-- The second pass drops what lies between the first two key frames. -/
theorem javaDrainFrame_two {gap rest : List Data} {k' : Data} (htake : 10 ≤ takeCount)
    (hne : lead ≠ []) (h : Plain lead) (hk : k.isKey = true) (hgap : Plain gap)
    (hk' : k'.isKey = true) :
    MyJni.drainFrame ((lead ++ k :: (gap ++ k' :: rest)).map Data.data) takeCount =
      .ok ((k :: k' :: rest).map Data.data) := by
  rw [javaDrainFrame_split htake hne h hk, secondScan_split hgap hk', if_pos ⟨rfl, rfl⟩,
    List.map_cons, MyJni.secondPass, hasKeyFlag_data, ok_bind, if_pos hk, if_neg (by simp),
    secondPass_true hgap hk']
  rfl

end JavaPasses

/-! ## When they leave the same frames -/

/-- Frames wait in front of the first key frame, and others between it and a second one. -/
def TwoGaps (list : List Data) : Prop :=
  ∃ lead k gap k' rest, list = lead ++ k :: (gap ++ k' :: rest) ∧ lead ≠ [] ∧ gap ≠ [] ∧
    Plain lead ∧ k.isKey = true ∧ Plain gap ∧ k'.isKey = true

theorem drains_alike_iff (list : List Data) (takeCount : ℕ) (htake : 10 ≤ takeCount) :
    MyJni.drainFrame (list.map Data.data) takeCount = .ok ((drainFrame list).map Data.data) ↔
      ¬ TwoGaps list := by
  constructor
  · rintro heq ⟨lead, k, gap, k', rest, rfl, hne, hgapne, hlead, hk, hgap, hk'⟩
    rw [javaDrainFrame_two htake hne hlead hk hgap hk', drainFrame_split hlead hk] at heq
    have hlength := congrArg List.length (Except.ok.inj heq)
    have hpos := List.length_pos_of_ne_nil hgapne
    simp only [List.length_map, List.length_cons, List.length_append] at hlength
    omega
  · intro hgaps
    rcases plain_or_split list with hplain | ⟨lead, k, tail, rfl, hlead, hk⟩
    · rw [javaDrainFrame_plain hplain, drainFrame_plain hplain]
    rw [drainFrame_split hlead hk]
    by_cases hne : lead = []
    · subst hne
      exact javaDrainFrame_key hk takeCount
    rcases plain_or_split tail with htail | ⟨gap, k', rest, rfl, hgap, hk'⟩
    · exact javaDrainFrame_last htake hne hlead hk htail
    · have hgapnil : gap = [] := by
        by_contra hgapne
        exact hgaps ⟨lead, k, gap, k', rest, rfl, hne, hgapne, hlead, hk, hgap, hk'⟩
      subst hgapnil
      exact javaDrainFrame_two htake hne hlead hk hgap hk'

/-- A frame of one byte, its flags. -/
def flagged (flags : UInt8) : Data := ⟨[flags], Nat.one_pos⟩

/-- With one key frame both leave the same, with two and a gap between them they do not. -/
theorem drains_alike_iff_gaps :
    ¬ TwoGaps [flagged 0, flagged 1, flagged 0] ∧
      MyJni.drainFrame ([flagged 0, flagged 1, flagged 0, flagged 1].map Data.data) 10 ≠
        .ok ((drainFrame [flagged 0, flagged 1, flagged 0, flagged 1]).map Data.data) := by
  constructor
  · exact (drains_alike_iff [flagged 0, flagged 1, flagged 0] 10 (by decide)).mp
      (by decide +kernel)
  · refine (drains_alike_iff [flagged 0, flagged 1, flagged 0, flagged 1] 10 (by decide)).not.mpr ?_
    have hplain : Plain [flagged 0] := List.forall_mem_singleton.mpr rfl
    exact not_not_intro ⟨[flagged 0], flagged 1, [flagged 0], flagged 1, [], rfl, by simp, by simp,
      hplain, rfl, hplain, rfl⟩

/-- Two frames are left in the Java queue, three in the native list. -/
theorem drains_differently :
    ¬ ∀ (list : List Data) (takeCount : ℕ), 10 ≤ takeCount →
      MyJni.drainFrame (list.map Data.data) takeCount =
        .ok ((drainFrame list).map Data.data) := by
  intro h
  have hdiffer := h [flagged 0, flagged 1, flagged 0, flagged 1] 10 (by decide)
  revert hdiffer
  decide +kernel

end MirrorCast.Native
