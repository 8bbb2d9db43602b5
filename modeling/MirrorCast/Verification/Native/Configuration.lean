import MirrorCast.Program.PlayerActivity
import MirrorCast.Program.Native.MediaCodec

/-! # The two players configure their decoders alike when the parameter sets have start codes -/

namespace MirrorCast.Native

open Java Scanning SpsPps

variable {ε ε' : Type*} {sps_pps : List UInt8}

/-- The data begin with a start code and contain it once more. -/
def TwoStartCodes (sps_pps : List UInt8) : Prop :=
  ∃ code ∈ ([[0, 0, 0, 1], [0, 0, 1]] : List (List UInt8)), code <+: sps_pps ∧
    ∃ i, 1 ≤ i ∧ code <+: sps_pps.drop i

/-! ## Start codes -/

theorem startCode_agrees (oob : ε) (oob' : ε') (sps_pps : List UInt8) :
    Agrees (startCode oob sps_pps) (startCode oob' sps_pps) := by
  refine (startsAt_agrees oob oob' _ _ _).bind fun _ => .ite ?_ ?_
  · exact (findFrom_agrees oob oob' _ _ _ _).bind fun _ => .pure _
  · refine (startsAt_agrees oob oob' _ _ _).bind fun _ => .ite ?_ (.pure none)
    exact (findFrom_agrees oob oob' _ _ _ _).bind fun _ => .pure _

theorem lt_of_prefix_drop {code : List UInt8} {i : ℕ} (hne : code ≠ []) (h : code <+: sps_pps.drop i) :
    i < sps_pps.length := by
  have hle := h.length_le
  have hpos := List.length_pos_of_ne_nil hne
  rw [List.length_drop] at hle
  omega

theorem startCode_eq_some {oob : ε} {mark : Mark} {index : ℕ}
    (h : startCode oob sps_pps = .ok (some (mark, index))) :
    mark ≠ .MARK0 ∧ index ≤ sps_pps.length ∧ TwoStartCodes sps_pps := by
  obtain ⟨four, hfour, h⟩ := bind_eq_ok.mp h
  split at h
  · rename_i htrue
    rw [htrue] at hfour
    obtain ⟨found, hfound, h⟩ := bind_eq_ok.mp h
    obtain ⟨index, rfl, heq⟩ := Option.map_eq_some_iff.mp (Except.ok.inj h)
    cases heq
    obtain ⟨hle, hlt, hprefix⟩ := findFrom_eq_some hfound
    exact ⟨by decide, by omega, _, by simp, startsAt_eq_true.mp hfour, index, hle, hprefix⟩
  · obtain ⟨three, hthree, h⟩ := bind_eq_ok.mp h
    split at h
    · rename_i htrue
      rw [htrue] at hthree
      obtain ⟨found, hfound, h⟩ := bind_eq_ok.mp h
      obtain ⟨index, rfl, heq⟩ := Option.map_eq_some_iff.mp (Except.ok.inj h)
      cases heq
      obtain ⟨hle, hlt, hprefix⟩ := findFrom_eq_some hfound
      exact ⟨by decide, by omega, _, by simp, startsAt_eq_true.mp hthree, index, hle, hprefix⟩
    · cases h

theorem startCode_eq_none {oob : ε} (h : startCode oob sps_pps = .ok none) :
    ¬ TwoStartCodes sps_pps := by
  have hsearch : ∀ {code : List UInt8} {mark : Mark} {oob : ε}, code ≠ [] →
      (do
        let index ← findFrom oob sps_pps code (sps_pps.length - 1) 1
        return index.map (mark, ·)) = (.ok none : Except ε (Option (Mark × ℕ))) →
      ∀ i, 1 ≤ i → ¬ code <+: sps_pps.drop i := by
    intro code mark oob hne hfind i hle hprefix
    obtain ⟨found, hfound, hmap⟩ := bind_eq_ok.mp hfind
    cases Option.map_eq_none_iff.mp (Except.ok.inj hmap)
    have hlt := lt_of_prefix_drop hne hprefix
    exact findFrom_eq_none hfound hle (by omega) hprefix
  rintro ⟨code, hcode, hstart, i, hle, hprefix⟩
  obtain ⟨four, hfour, h⟩ := bind_eq_ok.mp h
  split at h
  · rename_i htrue
    rw [htrue] at hfour
    simp only [List.mem_cons, List.not_mem_nil, or_false] at hcode
    rcases hcode with rfl | rfl
    · exact hsearch (by simp) h i hle hprefix
    · -- the third byte of the longer code is no one
      obtain ⟨rest, rfl⟩ := startsAt_eq_true.mp hfour
      simp at hstart
  · rename_i hfalse
    obtain ⟨three, hthree, h⟩ := bind_eq_ok.mp h
    have hnot : code ≠ [0, 0, 0, 1] := by
      rintro rfl
      rw [startsAt_eq_true.mpr (by simpa using hstart)] at hfour
      exact hfalse (Except.ok.inj hfour).symm
    simp only [List.mem_cons, hnot, List.not_mem_nil, or_false, false_or] at hcode
    subst hcode
    split at h
    · exact hsearch (by simp) h i hle hprefix
    · rename_i hfalse'
      rw [startsAt_eq_true.mpr (by simpa using hstart)] at hthree
      exact hfalse' (Except.ok.inj hthree).symm

/-! ## Lengths -/

/-- Two searches have seen the same parameter set last, each with its value of the length. -/
def Paired (value value' : UInt8 → ℤ) (found found' : Found) : Prop :=
  found.ppsIndex = found'.ppsIndex ∧
    ∃ b, found.ppsLength = value b ∧ found'.ppsLength = value' b

section Lengths

variable {oob : ε} {oob' : ε'} {value value' : UInt8 → ℤ} {spsType ppsType : UInt8}
variable {found found' next next' : Found}

/-- The search for the first parameter set does not touch the second. -/
theorem keeps_pps_of_note {i : ℕ} (hsps : Scanning.read oob sps_pps i = .ok spsType)
    (hnext : note oob value spsType ppsType sps_pps i found = .ok next) :
    next.ppsIndex = found.ppsIndex ∧ next.ppsLength = found.ppsLength := by
  rw [note, hsps, ok_bind, if_pos rfl] at hnext
  split at hnext
  · obtain ⟨before, -, hnext⟩ := bind_eq_ok.mp hnext
    cases hnext
    exact ⟨rfl, rfl⟩
  · cases hnext
    exact ⟨rfl, rfl⟩

theorem Paired.note {i : ℕ} (h : Paired value value' found found')
    (hnext : note oob value spsType ppsType sps_pps i found = .ok next)
    (hnext' : note oob' value' spsType ppsType sps_pps i found' = .ok next') :
    Paired value value' next next' := by
  have hcopy := hnext
  have hcopy' := hnext'
  obtain ⟨b, hb, hnext⟩ := bind_eq_ok.mp hnext
  obtain ⟨b', hb', hnext'⟩ := bind_eq_ok.mp hnext'
  cases (read_agrees oob oob' _ _ b hb).symm.trans hb'
  by_cases hsps : b = spsType
  · subst hsps
    obtain ⟨hindex, hlength⟩ := keeps_pps_of_note hb hcopy
    obtain ⟨hindex', hlength'⟩ := keeps_pps_of_note hb' hcopy'
    unfold Paired
    rw [hindex, hindex', hlength, hlength']
    exact h
  · rw [if_neg hsps] at hnext hnext'
    split at hnext
    · rename_i hpps
      rw [if_pos hpps] at hnext'
      obtain ⟨before, hbefore, hnext⟩ := bind_eq_ok.mp hnext
      obtain ⟨before', hbefore', hnext'⟩ := bind_eq_ok.mp hnext'
      cases (read_agrees oob oob' _ _ before hbefore).symm.trans hbefore'
      cases hnext
      cases hnext'
      exact ⟨rfl, before, rfl, rfl⟩
    · rename_i hpps
      rw [if_neg hpps] at hnext'
      cases hnext
      cases hnext'
      exact h

theorem Paired.scan {n i : ℕ} (h : Paired value value' found found')
    (hnext : scan oob value spsType ppsType sps_pps n i found = .ok next)
    (hnext' : scan oob' value' spsType ppsType sps_pps n i found' = .ok next') :
    Paired value value' next next' := by
  induction n generalizing i found found' with
  | zero =>
      cases hnext
      cases hnext'
      exact h
  | succ n ih =>
      obtain ⟨mid, hmid, hnext⟩ := bind_eq_ok.mp hnext
      obtain ⟨mid', hmid', hnext'⟩ := bind_eq_ok.mp hnext'
      exact ih (h.note hmid hmid') hnext hnext'

/-- Searches that end with the same mark have seen the same second parameter set. -/
theorem paired_of_lengths {mark : Mark} (hzero : value 0 = 0) (hzero' : value' 0 = 0)
    (h : lengths oob value sps_pps = .ok (mark, found))
    (h' : lengths oob' value' sps_pps = .ok (mark, found')) : Paired value value' found found' := by
  have hnone : Paired value value' Found.none Found.none := ⟨rfl, 0, hzero.symm, hzero'.symm⟩
  obtain ⟨first, hfirst, h⟩ := bind_eq_ok.mp h
  obtain ⟨first', hfirst', h'⟩ := bind_eq_ok.mp h'
  split at h
  · obtain ⟨second, hsecond, h⟩ := bind_eq_ok.mp h
    cases h
    split at h'
    · obtain ⟨second', hsecond', h'⟩ := bind_eq_ok.mp h'
      cases h'
      exact hnone.scan hsecond hsecond'
    · cases h'
  · cases h
    split at h'
    · obtain ⟨second', -, h'⟩ := bind_eq_ok.mp h'
      cases h'
    · cases h'
      exact hnone.scan hfirst hfirst'

end Lengths

/-! ## The two configurations -/

theorem take_length_sub (xs : List UInt8) (i : ℕ) :
    (xs.drop i).take (xs.length - i) = xs.drop i :=
  List.take_of_length_le (by simp)

theorem trySpsPps_of_startCode {mark : Mark} {index : ℕ}
    (h : startCode JavaException.arrayIndexOutOfBounds sps_pps = .ok (some (mark, index))) :
    PlayerActivity.trySpsPps sps_pps =
      .ok ⟨mark, some (sps_pps.take index, sps_pps.drop index)⟩ := by
  have hle := (startCode_eq_some h).2.1
  have hpps : (sps_pps.length : ℤ) - index = (sps_pps.length - index : ℕ) := by omega
  unfold PlayerActivity.trySpsPps
  rw [h, ok_bind]
  dsimp only
  rw [newArray_natCast, ok_bind, hpps, newArray_natCast, ok_bind, List.length_replicate,
    List.length_replicate]
  have hfirst : arraycopy sps_pps (0 : ℕ) (List.replicate index 0) (0 : ℕ) index = .ok _ :=
    arraycopy_ok (by omega) (by simp)
  have hsecond : arraycopy sps_pps index (List.replicate (sps_pps.length - index) 0) (0 : ℕ)
      (sps_pps.length - index : ℕ) = .ok _ := arraycopy_ok (by omega) (by simp)
  simp only [Nat.cast_zero] at hfirst hsecond
  rw [hfirst, ok_bind, hsecond, ok_bind, take_length_sub, List.drop_zero,
    blit_whole (by simp [hle]), blit_whole (by simp)]
  rfl

theorem handleSpsPps_of_startCode {mark : Mark} {index : ℕ}
    (h : startCode C.Undefined.outOfBounds sps_pps = .ok (some (mark, index))) :
    MediaCodec.handleSpsPps sps_pps =
      .ok ⟨mark, some (sps_pps.take index, sps_pps.drop index)⟩ := by
  have hle := (startCode_eq_some h).2.1
  unfold MediaCodec.handleSpsPps
  rw [h, ok_bind]
  dsimp only
  rw [C.memcpy_ok (by omega) (by simp), ok_bind, C.memcpy_ok (by omega) (by simp), ok_bind,
    take_length_sub, List.drop_zero, blit_whole (by simp [hle]), blit_whole (by simp),
    List.take_take, Nat.min_self, take_length_sub]
  rfl

/-- Without start codes the second buffer of the Java player is four bytes longer than the length
in front of the parameter set. -/
theorem trySpsPps_of_lengths {configured : Configured}
    (hcode : startCode JavaException.arrayIndexOutOfBounds sps_pps = .ok none)
    (h : PlayerActivity.trySpsPps sps_pps = .ok configured) (hmark : configured.mark ≠ .MARK0) :
    ∃ found sps pps, lengths JavaException.arrayIndexOutOfBounds PlayerActivity.byteValue sps_pps =
        .ok (configured.mark, found) ∧
      configured.csd = some (sps, pps) ∧ 0 ≤ found.ppsLength ∧
      (pps.length : ℤ) = found.ppsLength + 4 := by
  unfold PlayerActivity.trySpsPps at h
  rw [hcode, ok_bind] at h
  obtain ⟨⟨mark, found⟩, hfound, h⟩ := bind_eq_ok.mp h
  dsimp only at h
  split at h
  · obtain ⟨sps, -, h⟩ := bind_eq_ok.mp h
    obtain ⟨pps, hpps, h⟩ := bind_eq_ok.mp h
    obtain ⟨sps', -, h⟩ := bind_eq_ok.mp h
    obtain ⟨pps', hpps', h⟩ := bind_eq_ok.mp h
    obtain ⟨sps'', -, h⟩ := bind_eq_ok.mp h
    obtain ⟨pps'', hpps'', h⟩ := bind_eq_ok.mp h
    cases h
    have hlength := (length_of_arraycopy hpps'').trans (length_of_arraycopy hpps')
    have hfour : 4 ≤ pps.length := by
      unfold arraycopy at hpps'
      split at hpps'
      · cases hpps'
      · omega
    unfold newArray at hpps
    split at hpps
    · cases hpps
    · cases hpps
      rw [List.length_replicate] at hlength hfour
      exact ⟨found, sps'', pps'', hfound, rfl, by omega, by omega⟩
  · cases h
    exact absurd rfl hmark

/-- Without start codes the second buffer of the native player is as long as the length in front
of the parameter set. -/
theorem handleSpsPps_of_lengths {configured : Configured}
    (hcode : startCode C.Undefined.outOfBounds sps_pps = .ok none)
    (h : MediaCodec.handleSpsPps sps_pps = .ok configured) (hmark : configured.mark ≠ .MARK0) :
    ∃ found sps pps, lengths C.Undefined.outOfBounds (fun b => b.toNat) sps_pps =
        .ok (configured.mark, found) ∧
      configured.csd = some (sps, pps) ∧ pps.length = found.ppsLength.toNat := by
  unfold MediaCodec.handleSpsPps at h
  rw [hcode, ok_bind] at h
  obtain ⟨⟨mark, found⟩, hfound, h⟩ := bind_eq_ok.mp h
  dsimp only at h
  split at h
  · obtain ⟨sps, -, h⟩ := bind_eq_ok.mp h
    obtain ⟨pps, hpps, h⟩ := bind_eq_ok.mp h
    cases h
    have hlength := C.length_of_memcpy hpps
    rw [length_blit (by simp), List.length_replicate] at hlength
    exact ⟨found, _, _, hfound, rfl, by rw [List.length_take]; omega⟩
  · cases h
    exact absurd rfl hmark

theorem handleSpsPps_eq_try {configured : Configured}
    (h : PlayerActivity.handleSpsPps sps_pps = configured) (hmark : configured.mark ≠ .MARK0) :
    PlayerActivity.trySpsPps sps_pps = .ok configured := by
  unfold PlayerActivity.handleSpsPps at h
  split at h
  · rename_i htry
    rw [htry, h]
  · rw [← h] at hmark
    exact absurd rfl hmark

/-- The decoders are configured alike if and only if the parameter sets have start codes: in the
other formats the native sizes miss the four bytes put in front. -/
theorem configures_alike_iff (sps_pps : List UInt8)
    (h : (PlayerActivity.handleSpsPps sps_pps).mark ≠ .MARK0) :
    MediaCodec.handleSpsPps sps_pps = .ok (PlayerActivity.handleSpsPps sps_pps) ↔
      TwoStartCodes sps_pps := by
  have htry := handleSpsPps_eq_try rfl h
  obtain ⟨code, hcode, -⟩ := bind_eq_ok.mp htry
  have hcode' := startCode_agrees _ C.Undefined.outOfBounds _ _ hcode
  cases code with
  | some code =>
      have heq := Except.ok.inj (htry.symm.trans (trySpsPps_of_startCode hcode))
      rw [handleSpsPps_of_startCode hcode', heq]
      exact ⟨fun _ => (startCode_eq_some hcode).2.2, fun _ => rfl⟩
  | none =>
      refine ⟨fun hnative => ?_, fun htwo => absurd htwo (startCode_eq_none hcode)⟩
      obtain ⟨found, sps, pps, hfound, hcsd, hnonneg, hlength⟩ :=
        trySpsPps_of_lengths hcode htry h
      obtain ⟨found', sps', pps', hfound', hcsd', hlength'⟩ :=
        handleSpsPps_of_lengths hcode' hnative h
      obtain ⟨-, b, hb, hb'⟩ := paired_of_lengths (by decide) (by decide) hfound hfound'
      obtain ⟨-, rfl⟩ := Prod.mk.inj (Option.some.inj (hcsd.symm.trans hcsd'))
      dsimp only at hb'
      unfold PlayerActivity.byteValue at hb
      split at hb
      · omega
      · have hlt := b.toNat_lt
        omega

/-- Sets behind two start codes configure both decoders alike, sets behind their lengths do not. -/
theorem configures_alike_iff_startCodes :
    MediaCodec.handleSpsPps [0, 0, 0, 1, 103, 0, 0, 0, 1, 104] =
        .ok (PlayerActivity.handleSpsPps [0, 0, 0, 1, 103, 0, 0, 0, 1, 104]) ∧
      ¬ TwoStartCodes [3, 103, 66, 30, 3, 104, 203, 141] := by
  constructor
  · refine (configures_alike_iff [0, 0, 0, 1, 103, 0, 0, 0, 1, 104] (by decide)).mpr ?_
    exact ⟨[0, 0, 0, 1], by simp, by decide, 5, by decide, by decide⟩
  · exact (configures_alike_iff [3, 103, 66, 30, 3, 104, 203, 141] (by decide)).not.mp (by decide)

/-- The native player hands over three bytes of a start code and nothing of the set. -/
theorem configures_differently :
    ¬ ∀ sps_pps : List UInt8, (PlayerActivity.handleSpsPps sps_pps).mark ≠ .MARK0 →
      MediaCodec.handleSpsPps sps_pps = .ok (PlayerActivity.handleSpsPps sps_pps) := by
  intro h
  have hdiffer := h [3, 103, 66, 30, 3, 104, 203, 141] (by decide)
  revert hdiffer
  decide

end MirrorCast.Native
