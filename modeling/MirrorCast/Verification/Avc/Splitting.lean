import MirrorCast.Library.AnnexB
import MirrorCast.Program.AvcUtils
import Mathlib.Data.List.GetD

/-! # Splitting a byte stream at its start codes -/

namespace MirrorCast.Avc

open AnnexB AvcUtils

/-! ## The three loops -/

theorem findStartCode_zeros (offset zeros : ℕ) (rest : List UInt8) :
    findStartCode offset (List.replicate zeros 0 ++ 0 :: 0 :: 1 :: rest) =
      some (offset + zeros) := by
  induction zeros generalizing offset with
  | zero => rw [List.replicate_zero, List.nil_append, findStartCode, if_pos ⟨rfl, rfl, rfl⟩]; rfl
  | succ zeros ih =>
      have hhead : ∃ b c tail, List.replicate zeros (0 : UInt8) ++ 0 :: 0 :: 1 :: rest =
          b :: c :: tail ∧ c = 0 := by
        rcases zeros with _ | _ | zeros
        · exact ⟨0, 0, _, rfl, rfl⟩
        · exact ⟨0, 0, _, rfl, rfl⟩
        · exact ⟨0, 0, _, rfl, rfl⟩
      obtain ⟨b, c, tail, heq, hc⟩ := hhead
      have hnext := ih (offset + 1)
      rw [heq] at hnext
      rw [List.replicate_succ, List.cons_append, heq, findStartCode, hc, if_neg (by simp),
        ← hc, hnext]
      congr 1
      omega

theorem findStartCode_replicate (offset zeros : ℕ) :
    findStartCode offset (List.replicate zeros 0) = none := by
  induction zeros generalizing offset with
  | zero => rfl
  | succ zeros ih =>
      rcases zeros with _ | _ | zeros
      · rfl
      · rfl
      · exact ih (offset + 1)

/-- The last two of the bytes read so far. -/
def lastTwo (before2 before1 : UInt8) : List UInt8 → UInt8 × UInt8
  | [] => (before2, before1)
  | b :: rest => lastTwo before1 b rest

theorem nextStartCode_append {before2 before1 : UInt8} {offset : ℕ} {xs : List UInt8}
    (h : nextStartCode before2 before1 offset xs = none) (ys : List UInt8) :
    nextStartCode before2 before1 offset (xs ++ ys) =
      nextStartCode (lastTwo before2 before1 xs).1 (lastTwo before2 before1 xs).2
        (offset + xs.length) ys := by
  induction xs generalizing before2 before1 offset with
  | nil => rfl
  | cons b xs ih =>
      rw [nextStartCode] at h
      split at h
      · cases h
      · rename_i hb
        rw [List.cons_append, nextStartCode, if_neg hb, ih h, lastTwo, List.length_cons]
        congr 1
        omega

theorem nextStartCode_eq_none {before2 before1 : UInt8} {offset : ℕ} {xs : List UInt8}
    (h : ¬ [0, 0, 1] <:+: before2 :: before1 :: xs) :
    nextStartCode before2 before1 offset xs = none := by
  induction xs generalizing before2 before1 offset with
  | nil => rfl
  | cons b xs ih =>
      rw [List.infix_cons_iff] at h
      push Not at h
      rw [nextStartCode, if_neg, ih h.2]
      rintro ⟨rfl, rfl, rfl⟩
      exact h.1 ⟨xs, rfl⟩

/-- The zeros in front of a start code do not end the search. -/
theorem nextStartCode_zeros (before2 before1 : UInt8) (offset zeros : ℕ) (rest : List UInt8) :
    nextStartCode before2 before1 offset (List.replicate zeros 0 ++ 0 :: 0 :: 1 :: rest) =
      some (offset + zeros + 2) := by
  induction zeros generalizing before2 before1 offset with
  | zero => simp [nextStartCode]
  | succ zeros ih =>
      rw [List.replicate_succ, List.cons_append, nextStartCode, if_neg (by simp), ih]
      congr 1
      omega

theorem nextStartCode_replicate (before2 before1 : UInt8) (offset zeros : ℕ) :
    nextStartCode before2 before1 offset (List.replicate zeros 0) = none := by
  induction zeros generalizing before2 before1 offset with
  | zero => rfl
  | succ zeros ih => rw [List.replicate_succ, nextStartCode, if_neg (by simp), ih]

/-- A NAL unit behind its start code holds no further start code. -/
theorem nextStartCode_nal {nal : List UInt8} (h : Escaped nal) (offset : ℕ) :
    nextStartCode 0 1 offset nal = none := by
  apply nextStartCode_eq_none
  rw [List.infix_cons_iff, List.infix_cons_iff]
  rintro (hstart | hstart | hstart)
  · obtain ⟨rest, hrest⟩ := hstart
    simp at hrest
  · obtain ⟨rest, hrest⟩ := hstart
    simp at hrest
  · exact h.no_start_code 1 (by decide) hstart

/-- The zeros between a NAL unit and the end of the search are cut off. -/
theorem trimZeros_eq {data : List UInt8} {startOffset stop : ℕ} (zeros : ℕ)
    (hlt : startOffset < stop) (hzero : ∀ i, stop ≤ i → i < stop + zeros → data.getD i 0 = 0)
    (hlast : data.getD (stop - 1) 0 ≠ 0) :
    trimZeros startOffset data (stop + zeros) = stop := by
  induction zeros with
  | zero =>
      obtain ⟨e, rfl⟩ : ∃ e, stop = e + 1 := ⟨stop - 1, by omega⟩
      rw [Nat.add_zero, trimZeros, if_neg]
      rintro ⟨-, he⟩
      exact hlast he
  | succ zeros ih =>
      rw [← Nat.add_assoc, trimZeros, if_pos ⟨by omega, hzero _ (by omega) (by omega)⟩]
      exact ih fun i hlo hhi => hzero i hlo (by omega)

/-! ## One NAL unit -/

/-- The search behind the first start code of the data. -/
theorem getNextNALUnit_eq (zeros : ℕ) (rest : List UInt8) :
    let data := List.replicate zeros 0 ++ 0 :: 0 :: 1 :: rest
    let offset := (nextStartCode 0 1 (zeros + 3) rest).getD (data.length + 2)
    getNextNALUnit data true = .ok
      (rest.take (trimZeros (zeros + 3) data (offset - 2) - (zeros + 3)),
        if offset + 2 < data.length then data.drop (offset - 2) else []) := by
  intro data offset
  have hsize : ¬ data.length < 3 := by
    simp only [data, List.length_append, List.length_cons]
    omega
  have hfind : findStartCode 0 data = some zeros := by
    rw [findStartCode_zeros, Nat.zero_add]
  have hdrop : data.drop (zeros + 3) = rest := by
    rw [List.drop_append, List.drop_replicate, List.length_replicate, Nat.add_sub_cancel_left,
      Nat.sub_eq_zero_of_le (Nat.le_add_right zeros 3)]
    rfl
  have hbefore2 : data.getD (zeros + 3 - 2) 0 = 0 := by
    rw [List.getD_append_right _ _ _ _ (by rw [List.length_replicate]; omega),
      List.length_replicate, show zeros + 3 - 2 - zeros = 1 by omega]
    rfl
  have hbefore1 : data.getD (zeros + 3 - 1) 0 = 1 := by
    rw [List.getD_append_right _ _ _ _ (by rw [List.length_replicate]; omega),
      List.length_replicate, show zeros + 3 - 1 - zeros = 2 by omega]
    rfl
  unfold getNextNALUnit
  simp only [if_neg hsize, hfind, hdrop, hbefore2, hbefore1]
  cases hnext : nextStartCode 0 1 (zeros + 3) rest with
  | none => simp only [offset, hnext]
  | some found => simp only [offset, hnext]

section Nal

variable (zeros : ℕ) (nal tail : List UInt8)

theorem length_data : (List.replicate zeros 0 ++ 0 :: 0 :: 1 :: (nal ++ tail)).length =
    zeros + 3 + nal.length + tail.length := by
  simp only [List.length_append, List.length_cons, List.length_replicate]
  omega

theorem drop_data (n : ℕ) :
    (List.replicate zeros 0 ++ 0 :: 0 :: 1 :: (nal ++ tail)).drop
      (zeros + 3 + nal.length + n) = tail.drop n := by
  have hsplit : List.replicate zeros 0 ++ 0 :: 0 :: 1 :: (nal ++ tail) =
      (List.replicate zeros 0 ++ [0, 0, 1] ++ nal) ++ tail := by simp
  have hlength : (List.replicate zeros (0 : UInt8) ++ [0, 0, 1] ++ nal).length =
      zeros + 3 + nal.length := by
    simp
    omega
  rw [hsplit, List.drop_append, hlength, Nat.add_sub_cancel_left, List.drop_eq_nil_of_le,
    List.nil_append]
  rw [hlength]
  exact Nat.le_add_right _ n

/-- When only zeros follow up to the end of the search, exactly the NAL unit is found. -/
theorem trimZeros_data (h : Escaped nal) (k : ℕ) (hzero : ∀ i < k, tail.getD i 0 = 0) :
    trimZeros (zeros + 3) (List.replicate zeros 0 ++ 0 :: 0 :: 1 :: (nal ++ tail))
      (zeros + 3 + nal.length + k) = zeros + 3 + nal.length := by
  have hpos := h.length_pos
  apply trimZeros_eq k (by omega)
  · intro i hlo hhi
    obtain ⟨j, rfl⟩ := Nat.exists_eq_add_of_le hlo
    rw [List.getD_eq_getElem?_getD, ← List.head?_drop, drop_data, List.head?_drop,
      ← List.getD_eq_getElem?_getD]
    exact hzero j (by omega)
  · have hsplit : List.replicate zeros 0 ++ 0 :: 0 :: 1 :: (nal ++ tail) =
        (List.replicate zeros 0 ++ [0, 0, 1]) ++ (nal ++ tail) := by simp
    have hlast : nal.getLast? = some (nal.getLast h.ne_nil) := List.getLast?_eq_some_getLast _
    have hne := h.last_ne_zero
    rw [hlast] at hne
    have hindex : zeros + 3 + nal.length - 1 -
        (List.replicate zeros (0 : UInt8) ++ [0, 0, 1]).length = nal.length - 1 := by
      simp
      omega
    rw [List.getLast?_eq_getElem?] at hlast
    rw [hsplit, List.getD_append_right _ _ _ _ (by simp; omega), hindex,
      List.getD_append _ _ _ _ (by omega), List.getD_eq_getElem?_getD, hlast]
    exact fun hzero => hne (congrArg some hzero)

/-- The last NAL unit of a stream. -/
theorem getNextNALUnit_last (h : Escaped nal) (trailing : ℕ) :
    getNextNALUnit (joined [(zeros, nal)] trailing) true = .ok (nal, []) := by
  have hshape : joined [(zeros, nal)] trailing =
      List.replicate zeros 0 ++ 0 :: 0 :: 1 :: (nal ++ List.replicate trailing 0) := by
    simp [joined]
  have hnext : nextStartCode 0 1 (zeros + 3) (nal ++ List.replicate trailing 0) = none := by
    rw [nextStartCode_append (nextStartCode_nal h _), nextStartCode_replicate]
  have hlength := length_data zeros nal (List.replicate trailing 0)
  have htrim := trimZeros_data zeros nal (List.replicate trailing 0) h trailing
    (fun i hi => by rw [List.getD_replicate _ hi])
  rw [hshape, getNextNALUnit_eq, hnext, Option.getD_none, if_neg (by omega),
    Nat.add_sub_cancel, hlength, List.length_replicate, htrim, Nat.add_sub_cancel_left,
    List.take_left]

/-- A NAL unit that another start code follows; the rest of the data begins there, but one
byte after it is not enough. -/
theorem getNextNALUnit_next (h : Escaped nal) (zeros' : ℕ) (more : List UInt8) :
    getNextNALUnit (List.replicate zeros 0 ++ [0, 0, 1] ++ nal ++
      (List.replicate zeros' 0 ++ 0 :: 0 :: 1 :: more)) true =
      .ok (nal, if 2 ≤ more.length then 0 :: 0 :: 1 :: more else []) := by
  have hshape : List.replicate zeros 0 ++ [0, 0, 1] ++ nal ++
      (List.replicate zeros' 0 ++ 0 :: 0 :: 1 :: more) =
      List.replicate zeros 0 ++ 0 :: 0 :: 1 :: (nal ++
        (List.replicate zeros' 0 ++ 0 :: 0 :: 1 :: more)) := by simp
  have hnext : nextStartCode 0 1 (zeros + 3) (nal ++
      (List.replicate zeros' 0 ++ 0 :: 0 :: 1 :: more)) =
      some (zeros + 3 + nal.length + zeros' + 2) := by
    rw [nextStartCode_append (nextStartCode_nal h _), nextStartCode_zeros]
  have hlength := length_data zeros nal (List.replicate zeros' 0 ++ 0 :: 0 :: 1 :: more)
  have htrim := trimZeros_data zeros nal (List.replicate zeros' 0 ++ 0 :: 0 :: 1 :: more) h
    zeros' (fun i hi => by
      rw [List.getD_append _ _ _ _ (by rw [List.length_replicate]; exact hi),
        List.getD_replicate _ hi])
  have hdrop := drop_data zeros nal (List.replicate zeros' 0 ++ 0 :: 0 :: 1 :: more) zeros'
  rw [List.drop_left' List.length_replicate] at hdrop
  rw [hshape, getNextNALUnit_eq, hnext, Option.getD_some, Nat.add_sub_cancel, htrim,
    Nat.add_sub_cancel_left, List.take_left, hdrop, hlength]
  have hmore : zeros + 3 + nal.length + zeros' + 2 + 2 < zeros + 3 + nal.length +
      (List.replicate zeros' (0 : UInt8) ++ 0 :: 0 :: 1 :: more).length ↔ 2 ≤ more.length := by
    simp only [List.length_append, List.length_replicate, List.length_cons]
    omega
  simp only [hmore]

end Nal

/-! ## All NAL units -/

theorem nalUnits_of_ok {data nal rest : List UInt8} (h : getNextNALUnit data true = .ok (nal, rest)) :
    nalUnits data = nal :: nalUnits rest := by
  rw [nalUnits]
  split
  · rename_i hrest
    rw [h] at hrest
    cases hrest
  · rename_i hrest
    rw [h] at hrest
    cases hrest
    rfl

theorem nalUnits_of_error {data rest : List UInt8} (h : getNextNALUnit data true = .error rest) :
    nalUnits data = [] := by
  rw [nalUnits]
  split
  · rfl
  · rename_i hrest
    rw [h] at hrest
    cases hrest

theorem nalUnits_replicate (zeros : ℕ) : nalUnits (List.replicate zeros 0) = [] := by
  by_cases hsize : (List.replicate zeros (0 : UInt8)).length < 3
  · exact nalUnits_of_error (if_pos hsize)
  · have herror : getNextNALUnit (List.replicate zeros 0) true =
        .error ((List.replicate zeros 0).drop (zeros - 2)) := by
      rw [getNextNALUnit, if_neg hsize, findStartCode_replicate, List.length_replicate]
    exact nalUnits_of_error herror

/-- The last of several NAL units is a single byte, and nothing follows it. -/
def DropsLast (units : List (ℕ × List UInt8)) (trailing : ℕ) : Prop :=
  2 ≤ units.length ∧ trailing = 0 ∧ units.getLast?.map (fun u => u.2.length) = some 1

instance (units : List (ℕ × List UInt8)) (trailing : ℕ) : Decidable (DropsLast units trailing) :=
  inferInstanceAs (Decidable (_ ∧ _ ∧ _))

theorem dropsLast_cons (u : ℕ × List UInt8) {units : List (ℕ × List UInt8)}
    (h : 2 ≤ units.length) (trailing : ℕ) :
    DropsLast (u :: units) trailing ↔ DropsLast units trailing := by
  obtain ⟨v, w, rest, rfl⟩ : ∃ v w rest, units = v :: w :: rest := by
    rcases units with _ | ⟨v, _ | ⟨w, rest⟩⟩
    · simp at h
    · simp at h
    · exact ⟨v, w, rest, rfl⟩
  simp [DropsLast]

theorem not_dropsLast_single (u : ℕ × List UInt8) (trailing : ℕ) : ¬ DropsLast [u] trailing := by
  simp [DropsLast]

theorem dropsLast_pair (u v : ℕ × List UInt8) (h : Escaped v.2) (trailing : ℕ) :
    DropsLast [u, v] trailing ↔ v.2.length + trailing < 2 := by
  have hpos := h.length_pos
  simp only [DropsLast, List.length_cons, List.length_nil, List.getLast?_cons_cons,
    List.getLast?_singleton, Option.map_some, Option.some.injEq]
  omega

/-- The NAL units found behind a first one. -/
theorem nalUnits_cons (u : ℕ × List UInt8) (units : List (ℕ × List UInt8)) (trailing : ℕ)
    (hu : Escaped u.2) (hunits : ∀ v ∈ units, Escaped v.2) :
    nalUnits (joined (u :: units) trailing) =
      u.2 :: if DropsLast (u :: units) trailing then (units.map Prod.snd).dropLast
        else units.map Prod.snd := by
  induction units generalizing u with
  | nil =>
      rw [nalUnits_of_ok (getNextNALUnit_last u.1 u.2 hu trailing),
        if_neg (not_dropsLast_single u trailing), show nalUnits [] = [] from nalUnits_replicate 0]
      rfl
  | cons v units ih =>
      have hv := hunits v List.mem_cons_self
      have hnext := getNextNALUnit_next u.1 u.2 hu v.1 (v.2 ++ joined units trailing)
      have hshape : joined (u :: v :: units) trailing =
          List.replicate u.1 0 ++ [0, 0, 1] ++ u.2 ++ (List.replicate v.1 0 ++
            0 :: 0 :: 1 :: (v.2 ++ joined units trailing)) := by simp [joined]
      rw [hshape, nalUnits_of_ok hnext]
      congr 1
      by_cases hlost : v.2.length + (joined units trailing).length < 2
      · have hpos := hv.length_pos
        have hlast : units = [] := by
          cases units with
          | nil => rfl
          | cons w units =>
              simp only [joined, List.length_append, List.length_cons] at hlost
              omega
        subst hlast
        have htrailing : (joined [] trailing).length = trailing := List.length_replicate
        rw [if_neg (by rw [List.length_append]; omega), if_pos, show nalUnits [] = [] from
          nalUnits_replicate 0]
        · rfl
        · rw [dropsLast_pair _ _ hv]
          omega
      · have hrest := ih (0, v.2) hv fun w hw => hunits w (List.mem_cons_of_mem v hw)
        rw [if_pos (by rw [List.length_append]; omega)]
        have hjoined : 0 :: 0 :: 1 :: (v.2 ++ joined units trailing) =
            joined ((0, v.2) :: units) trailing := rfl
        rw [hjoined, hrest]
        cases units with
        | nil =>
            have htrailing : (joined [] trailing).length = trailing := List.length_replicate
            rw [if_neg (not_dropsLast_single _ _), if_neg]
            · rfl
            · rw [dropsLast_pair _ _ hv]
              omega
        | cons w units =>
            have hlast : DropsLast ((0, v.2) :: w :: units) trailing ↔
                DropsLast (u :: v :: w :: units) trailing := by
              rw [dropsLast_cons u (by simp)]
              simp [DropsLast]
            simp only [hlast]
            split
            · rfl
            · rfl

/-- The loop finds all NAL units of a byte stream, except for a dropped last one. -/
theorem nalUnits_joined {units : List (ℕ × List UInt8)} (trailing : ℕ)
    (h : ∀ u ∈ units, Escaped u.2) :
    nalUnits (joined units trailing) =
      if DropsLast units trailing then (units.map Prod.snd).dropLast else units.map Prod.snd := by
  cases units with
  | nil => exact nalUnits_replicate trailing
  | cons u units =>
      rw [nalUnits_cons u units trailing (h u List.mem_cons_self) fun v hv =>
        h v (List.mem_cons_of_mem u hv)]
      split
      · rename_i hlast
        obtain ⟨v, rest, rfl⟩ := List.exists_cons_of_length_pos (by
          have hlength := hlast.1
          rw [List.length_cons] at hlength
          omega : 0 < units.length)
        rfl
      · rfl

/-- The NAL units are found, all of them and in order, unless the last of several is a single byte
at the end of the data. -/
theorem nalUnits_joined_iff {units : List (ℕ × List UInt8)} (trailing : ℕ)
    (h : ∀ u ∈ units, Escaped u.2) :
    nalUnits (joined units trailing) = units.map Prod.snd ↔ ¬ DropsLast units trailing := by
  rw [nalUnits_joined trailing h]
  split
  · rename_i hdrops
    refine iff_of_false (fun heq => ?_) (not_not.mpr hdrops)
    have hlength := congrArg List.length heq
    rw [List.length_dropLast, List.length_map] at hlength
    have htwo := hdrops.1
    omega
  · rename_i hkeeps
    exact iff_of_true rfl hkeeps

theorem escaped_pair {a b : UInt8} (h : b ≠ 0) : Escaped [a, b] where
  ne_nil := List.cons_ne_nil _ _
  no_start_code _ _ h := absurd h.length_le (by simp)
  last_ne_zero hlast := h (Option.some.inj hlast)

theorem nalUnits_joined_sps_pps :
    nalUnits (joined [(1, [0x67, 0x42]), (0, [0x68, 0xce])] 3) = [[0x67, 0x42], [0x68, 0xce]] := by
  refine (nalUnits_joined_iff 3 ?_).mpr (by decide)
  intro u hu
  rcases List.mem_cons.mp hu with rfl | hu
  · exact escaped_pair (by decide)
  · rw [List.mem_singleton.mp hu]
    exact escaped_pair (by decide)

/-- An access unit delimiter and an end of sequence. -/
theorem nalUnits_not_complete : ¬ ∀ (units : List (ℕ × List UInt8)) (trailing : ℕ),
    (∀ u ∈ units, u.1 ≤ 1 ∧ Escaped u.2) →
      nalUnits (joined units trailing) = units.map Prod.snd := by
  intro h
  have hend : Escaped [0x0a] := ⟨by decide, fun _ _ h => absurd h.length_le (by simp), by decide⟩
  have hfound := h [(0, [0x09, 0xf0]), (0, [0x0a])] 0 (by
    intro u hu
    rcases List.mem_cons.mp hu with rfl | hu
    · exact ⟨Nat.zero_le 1, escaped_pair (by decide)⟩
    · rw [List.mem_singleton.mp hu]
      exact ⟨Nat.zero_le 1, hend⟩)
  exact absurd hfound (by decide +kernel)

/-- The last of several NAL units is a single byte, and nothing follows it. -/
def LosesLast (units : List (ℕ × NalUnit)) (trailing : ℕ) : Prop :=
  2 ≤ units.length ∧ trailing = 0 ∧ units.getLast?.map (fun u => u.2.body) = some []

instance (units : List (ℕ × NalUnit)) (trailing : ℕ) : Decidable (LosesLast units trailing) :=
  inferInstanceAs (Decidable (_ ∧ _ ∧ _))

theorem losesLast_iff (units : List (ℕ × NalUnit)) (trailing : ℕ) :
    LosesLast units trailing ↔ DropsLast (units.map fun u => (u.1, u.2.bytes)) trailing := by
  rw [LosesLast, DropsLast, List.length_map, List.getLast?_map, Option.map_map]
  cases units.getLast? with
  | none => simp
  | some u => simp [NalUnit.bytes]

/-- The loop finds all NAL units of a stream, except for a lost last one. -/
theorem nalUnits_stream (units : List (ℕ × NalUnit)) (trailing : ℕ) :
    nalUnits (stream units trailing) =
      if LosesLast units trailing then (units.map fun u => u.2.bytes).dropLast
      else units.map fun u => u.2.bytes := by
  have hescaped : ∀ u ∈ units.map fun u => (u.1, u.2.bytes), Escaped u.2 := by
    intro u hu
    obtain ⟨v, -, rfl⟩ := List.mem_map.mp hu
    exact v.2.escaped
  rw [stream_eq_joined, nalUnits_joined trailing hescaped, List.map_map]
  simp only [losesLast_iff]
  rfl

end MirrorCast.Avc
