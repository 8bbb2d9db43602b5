import Mathlib.Data.Prod.Lex
import Mathlib.Order.Bounds.Basic
import MirrorCast.Verification.Video.Negotiation

/-! # What a capability list of any length is read as -/

namespace MirrorCast.Video

open Java VideoFormats

/-! ## Hexadecimal numbers -/

theorem hexValue_hex {n value : ℕ} (h : value < 16 ^ n) : hexValue (hex n value) = value := by
  induction n generalizing value with
  | zero =>
      rw [pow_zero] at h
      exact (Nat.lt_one_iff.mp h).symm
  | succ n ih =>
      rw [pow_succ] at h
      rw [hex, hexValue_append, ih (by omega)]
      change value / 16 * 16 + xdigit _ = value
      have hdigit : xdigit (if value % 16 < 10 then 48 + value % 16 else 87 + value % 16) =
          value % 16 := by
        unfold xdigit
        split_ifs <;> omega
      rw [hdigit]
      omega

theorem all_hex (n value : ℕ) : (hex n value).all isXDigit = true := by
  induction n generalizing value with
  | zero => rfl
  | succ n ih =>
      rw [hex, List.all_append, ih, Bool.true_and, List.all_cons, List.all_nil, Bool.and_true]
      simp only [isXDigit, Bool.or_eq_true, Bool.and_eq_true, decide_eq_true_eq]
      split_ifs <;> omega

/-- A number as a field of a specification. -/
def hexField (n value : ℕ) : HexField n := ⟨hex n value, length_hex n value, all_hex n value⟩

/-! ## The lexicographic maximum -/

/-- Profile and level, the profile first. -/
def rank (c : Config) : ℕ ×ₗ ℕ := toLex (c.profile.toNat, c.level.toNat)

def Codec.rank (c : Codec) : ℕ ×ₗ ℕ := toLex (c.numbers.profile, c.numbers.level)

/-- A codec raises a resolution to the maximum of the two. -/
theorem rank_raise (c : Codec) (config : Config) :
    rank (c.numbers.raise config) = max (rank config) c.rank := by
  have hprofile : (UInt8.ofNat c.numbers.profile).toNat = c.numbers.profile :=
    UInt8.toNat_ofNat_of_lt' c.profile.value_lt
  have hlevel : (UInt8.ofNat c.numbers.level).toNat = c.numbers.level :=
    UInt8.toNat_ofNat_of_lt' c.level.value_lt
  have hle : rank config ≤ c.rank ↔ config.profile.toNat < c.numbers.profile ∨
      config.profile.toNat = c.numbers.profile ∧ config.level.toNat ≤ c.numbers.level :=
    Prod.Lex.toLex_le_toLex
  have hge : c.rank ≤ rank config ↔ c.numbers.profile < config.profile.toNat ∨
      c.numbers.profile = config.profile.toNat ∧ c.numbers.level ≤ config.level.toNat :=
    Prod.Lex.toLex_le_toLex
  unfold H264Codec.raise
  split
  · rename_i hhigher
    rw [max_eq_right (hle.mpr (Or.inl hhigher)), rank, hprofile, hlevel]
    rfl
  · split
    · rename_i hsame
      rw [max_eq_right (hle.mpr (Or.inr ⟨hsame.1.symm, hsame.2.le⟩)), rank, hlevel, ← hsame.1]
      rfl
    · rename_i hlower hnot
      rw [max_eq_left (hge.mpr (by omega))]

/-- The ranks of the codecs that have the resolution, and the one to start from. -/
def ranks (start : ℕ ×ₗ ℕ) (codecs : List Codec) (type : ResolutionType) (j : ℕ) : Set (ℕ ×ₗ ℕ) :=
  {r | r = start ∨ ∃ c ∈ codecs, (c.numbers.res type).getLsbD j = true ∧ r = c.rank}

theorem isGreatest_foldl (codecs : List Codec) (type : ResolutionType) (j : ℕ) (start : Config) :
    IsGreatest (ranks (rank start) codecs type j)
      (rank ((codecs.map Codec.numbers).foldl
        (fun c codec => if (codec.res type).getLsbD j then codec.raise c else c) start)) := by
  induction codecs generalizing start with
  | nil =>
      refine ⟨Or.inl rfl, ?_⟩
      rintro r (rfl | ⟨c, hc, -⟩)
      · exact le_rfl
      · cases hc
  | cons c codecs ih =>
      rw [List.map_cons, List.foldl_cons]
      by_cases hbit : (c.numbers.res type).getLsbD j = true
      · rw [if_pos hbit]
        obtain ⟨hmem, hupper⟩ := ih (c.numbers.raise start)
        have hstart := hupper (Or.inl rfl)
        rw [rank_raise, max_le_iff] at hstart
        constructor
        · rcases hmem with heq | ⟨c', hc', hbit', heq⟩
          · rw [heq, rank_raise]
            rcases max_choice (rank start) c.rank with hmax | hmax
            · exact Or.inl hmax
            · exact Or.inr ⟨c, List.mem_cons_self, hbit, hmax⟩
          · exact Or.inr ⟨c', List.mem_cons_of_mem c hc', hbit', heq⟩
        · rintro r (rfl | ⟨c', hc', hbit', rfl⟩)
          · exact hstart.1
          · rcases List.mem_cons.mp hc' with rfl | hc'
            · exact hstart.2
            · exact hupper (Or.inr ⟨c', hc', hbit', rfl⟩)
      · rw [if_neg hbit]
        obtain ⟨hmem, hupper⟩ := ih start
        constructor
        · rcases hmem with heq | ⟨c', hc', hbit', heq⟩
          · exact Or.inl heq
          · exact Or.inr ⟨c', List.mem_cons_of_mem c hc', hbit', heq⟩
        · rintro r (rfl | ⟨c', hc', hbit', rfl⟩)
          · exact hupper (Or.inl rfl)
          · rcases List.mem_cons.mp hc' with rfl | hc'
            · exact absurd hbit' hbit
            · exact hupper (Or.inr ⟨c', hc', hbit', rfl⟩)

theorem isGreatest_advertised (codecs : List Codec) (type : ResolutionType) (j : ℕ) :
    IsGreatest (ranks (toLex (0, 0)) codecs type j)
      (rank (advertised (codecs.map Codec.numbers) type j)) :=
  isGreatest_foldl codecs type j ⟨0, 0⟩

theorem rank_injective : Function.Injective rank := by
  intro c d h
  have hpair := Prod.mk.inj (toLex.injective h)
  cases c
  cases d
  exact congrArg₂ Config.mk (UInt8.toNat_inj.mp hpair.1) (UInt8.toNat_inj.mp hpair.2)

/-! ## The whole list -/

variable [CharData]

/-- A specification with any number of codecs. -/
def specText (native preferred : HexField 2) (codecs : List Codec) : JString :=
  native.digits ++ blank (preferred.digits ++ blank (codecsText codecs))

/-- The instance after `parseFormatSpec(spec)`, whether it returns or throws. -/
def afterParse (s : State) (spec : JString) : State := (parseFormatSpec s spec).1

theorem parseNative_noCodecs (native preferred : HexField 2) :
    parseNative native.digits preferred.digits (specText native preferred []) =
      .error .runtime := by
  have hlength : (specText native preferred []).length = 6 := by
    simp [specText, codecsText, blank, native.length, preferred.length]
  rw [parseNative, parseHex_of_le native (by decide), ok_bind, parseHex_of_le preferred (by decide),
    ok_bind, if_pos (by omega)]

/-- Without codecs the text is too short. -/
theorem parseFormatSpec_noCodecs (s : State) (native preferred : HexField 2) :
    parseFormatSpec s (specText native preferred []) = (disableAll s, .error .runtime) := by
  have hnative : findNative (specText native preferred []) =
      some (native.digits, preferred.digits) := findNative_field native preferred []
  rw [parseFormatSpec, hnative]
  dsimp only
  rw [parseNative_noCodecs]

/-- The specification with a codec at least. -/
theorem parseFormatSpec_codecs (s : State) (native preferred : HexField 2) {codecs : List Codec}
    (h : codecs ≠ []) :
    parseFormatSpec s (specText native preferred codecs) =
      (afterParse s (specText native preferred codecs), .ok true) := by
  have hparse := parseFormatSpec_eq s ⟨native, preferred, codecs, h⟩
  change parseFormatSpec s (specText native preferred codecs) = _ at hparse
  rw [afterParse, hparse]

omit [CharData] in
theorem foldl_res (codecs : List Codec) (type : ResolutionType) (mask : BitVec 32) :
    (codecs.map Codec.numbers).foldl (fun mask codec => mask ||| codec.res type) mask =
      (codecs.map fun c => c.numbers.res type).foldl (· ||| ·) mask := by
  rw [List.foldl_map, List.foldl_map]

/-- The masks, profiles and levels after the call. -/
theorem afterParse_eq (s : State) (native preferred : HexField 2) (codecs : List Codec) :
    (∀ type, (afterParse s (specText native preferred codecs)).this.mResolutionEnabled type =
      (codecs.map fun c => c.numbers.res type).foldl (· ||| ·) 0) ∧
    ∀ type j, j < 32 → (afterParse s (specText native preferred codecs)).table type j =
      advertised (codecs.map Codec.numbers) type j := by
  by_cases h : codecs = []
  · rw [h, afterParse, parseFormatSpec_noCodecs]
    exact ⟨fun type => rfl, fun type j hj => if_pos hj⟩
  · have hparse := parseFormatSpec_eq s ⟨native, preferred, codecs, h⟩
    change parseFormatSpec s (specText native preferred codecs) = _ at hparse
    rw [afterParse, hparse]
    refine ⟨fun type => foldl_res codecs type 0, fun type j hj => ?_⟩
    dsimp only
    rw [overwrite_everywhere, if_pos hj]

omit [CharData] in
/-- The order of the codecs does not matter. -/
theorem advertised_perm {codecs codecs' : List Codec} (h : codecs.Perm codecs')
    (type : ResolutionType) (j : ℕ) :
    advertised (codecs.map Codec.numbers) type j =
      advertised (codecs'.map Codec.numbers) type j := by
  have hranks : ranks (toLex (0, 0)) codecs type j = ranks (toLex (0, 0)) codecs' type j := by
    ext r
    unfold ranks
    simp only [Set.mem_ofPred_eq, h.mem_iff]
  have hgreatest := isGreatest_advertised codecs type j
  rw [hranks] at hgreatest
  exact rank_injective (hgreatest.unique (isGreatest_advertised codecs' type j))

omit [CharData] in
theorem masks_perm {codecs codecs' : List Codec} (h : codecs.Perm codecs')
    (type : ResolutionType) :
    (codecs.map fun c => c.numbers.res type).foldl (· ||| ·) 0 =
      (codecs'.map fun c => c.numbers.res type).foldl (· ||| ·) 0 := by
  refine (h.map _).foldl_eq' (fun x _ y _ z => ?_) 0
  rw [BitVec.or_assoc, BitVec.or_comm x y, ← BitVec.or_assoc]

/-! ## The round trip -/

/-- What `getFormatSpec()` returns, as a specification. -/
def ownSpec (t : Table) (f : Formats) : SinkSpec where
  native := hexField 2 (f.mNativeIndex * 8 + f.mNativeType.ordinal)
  preferred := ⟨jstr "00", length_zeros, isXDigit_zeros⟩
  codecs := [{
    profile := hexField 2 (t f.mNativeType f.mNativeIndex).profile.toNat
    level := hexField 2 (t f.mNativeType f.mNativeIndex).level.toNat
    cea := hexField 8 (f.mResolutionEnabled .RESOLUTION_CEA).toNat
    vesa := hexField 8 (f.mResolutionEnabled .RESOLUTION_VESA).toNat
    hh := hexField 8 (f.mResolutionEnabled .RESOLUTION_HH).toNat
    tail := jstr " 00 0000 0000 00 none none"
    length_tail := length_plain_tail }]
  nonempty := List.cons_ne_nil _ _

omit [CharData] in
theorem getFormatSpec_eq (t : Table) (f : Formats) :
    getFormatSpec t f false = (ownSpec t f).text := by
  have hpreferred : jstr " 00 " = 0x20 :: (jstr "00" ++ [0x20]) := rfl
  have hblank : jstr " " = [0x20] := rfl
  simp only [getFormatSpec, ownSpec, SinkSpec.text, codecsText, Codec.text, hexField, blank,
    hpreferred, hblank, List.append_assoc, List.cons_append, List.nil_append, if_neg,
    Bool.false_eq_true, not_false_eq_true]

omit [CharData] in
theorem ofNat_hexField (mask : BitVec 32) :
    BitVec.ofNat 32 (hexValue (hexField 8 mask.toNat).digits) = mask := by
  change BitVec.ofNat 32 (hexValue (hex 8 mask.toNat)) = mask
  rw [hexValue_hex mask.isLt, BitVec.ofNat_toNat, BitVec.setWidth_eq]

/-- Parsing one's own specification restores the native resolution and the masks. -/
theorem parseFormatSpec_getFormatSpec (s : State) (t : Table) (f : Formats)
    (h : f.mNativeIndex ≤ 31) :
    ∃ s', parseFormatSpec s (getFormatSpec t f false) = (s', .ok true) ∧ s'.this = f := by
  have hordinal : f.mNativeType.ordinal ≤ 2 := by cases f.mNativeType <;> decide
  have hnative : hexValue (ownSpec t f).native.digits =
      f.mNativeIndex * 8 + f.mNativeType.ordinal :=
    hexValue_hex (show f.mNativeIndex * 8 + f.mNativeType.ordinal < 16 ^ 2 by omega)
  refine ⟨_, by rw [getFormatSpec_eq, parseFormatSpec_eq], ?_⟩
  dsimp only
  have htype : (f.mNativeIndex * 8 + f.mNativeType.ordinal) % 8 = f.mNativeType.ordinal := by
    omega
  have hindex : (f.mNativeIndex * 8 + f.mNativeType.ordinal) / 8 = f.mNativeIndex := by omega
  rw [hnative, htype, hindex]
  have hvalues : ResolutionType.values.getD f.mNativeType.ordinal s.this.mNativeType =
      f.mNativeType := by cases f.mNativeType <;> rfl
  have hmasks : (ownSpec t f).formats.mResolutionEnabled = f.mResolutionEnabled := by
    funext type
    refine (BitVec.zero_or : 0#32 ||| _ = _).trans ?_
    cases type with
    | RESOLUTION_CEA => exact ofNat_hexField _
    | RESOLUTION_VESA => exact ofNat_hexField _
    | RESOLUTION_HH => exact ofNat_hexField _
  rw [hvalues, hmasks]

/-- A specification with any number of codecs is read as the union of their masks, with the
lexicographic maximum of profile and level for each resolution, in any order of the codecs; and
the specification of an instance is read as its native resolution and its masks. -/
theorem parseFormatSpec_capabilities (s : State) :
    (∀ (native preferred : HexField 2) (codecs : List Codec),
      (codecs ≠ [] → parseFormatSpec s (specText native preferred codecs) =
        (afterParse s (specText native preferred codecs), .ok true)) ∧
      (∀ type, (afterParse s (specText native preferred codecs)).this.mResolutionEnabled type =
        (codecs.map fun c => c.numbers.res type).foldl (· ||| ·) 0) ∧
      (∀ type j, j < 32 → IsGreatest (ranks (toLex (0, 0)) codecs type j)
        (rank ((afterParse s (specText native preferred codecs)).table type j))) ∧
      ∀ codecs', codecs.Perm codecs' → ∀ type,
        (afterParse s (specText native preferred codecs)).this.mResolutionEnabled type =
            (afterParse s (specText native preferred codecs')).this.mResolutionEnabled type ∧
          ∀ j, j < 32 → (afterParse s (specText native preferred codecs)).table type j =
            (afterParse s (specText native preferred codecs')).table type j) ∧
    ∀ (t : Table) (f : Formats), f.mNativeIndex ≤ 31 →
      ∃ s', parseFormatSpec s (getFormatSpec t f false) = (s', .ok true) ∧
        s'.this.mNativeType = f.mNativeType ∧ s'.this.mNativeIndex = f.mNativeIndex ∧
        s'.this.mResolutionEnabled = f.mResolutionEnabled := by
  refine ⟨fun native preferred codecs => ?_, fun t f h => ?_⟩
  · obtain ⟨hmasks, htable⟩ := afterParse_eq s native preferred codecs
    refine ⟨parseFormatSpec_codecs s native preferred, hmasks, fun type j hj => ?_,
      fun codecs' hperm type => ?_⟩
    · rw [htable type j hj]
      exact isGreatest_advertised codecs type j
    · obtain ⟨hmasks', htable'⟩ := afterParse_eq s native preferred codecs'
      refine ⟨?_, fun j hj => ?_⟩
      · rw [hmasks, hmasks', masks_perm hperm]
      · rw [htable type j hj, htable' type j hj, advertised_perm hperm]
  · obtain ⟨s', hparse, hthis⟩ := parseFormatSpec_getFormatSpec s t f h
    exact ⟨s', hparse, by rw [hthis], by rw [hthis], by rw [hthis]⟩

omit [CharData] in
theorem parseFormatSpec_capabilities_twoCodecs :
    let _ := CharData.ascii
    ∃ (s : State) (native preferred : HexField 2) (c c' : Codec),
      c.rank = toLex (1, 16) ∧ c'.rank = toLex (2, 1) ∧
      parseFormatSpec s (specText native preferred [c, c']) =
        (afterParse s (specText native preferred [c, c']), .ok true) ∧
      (afterParse s (specText native preferred [c, c'])).table .RESOLUTION_CEA 5 =
        (afterParse s (specText native preferred [c', c])).table .RESOLUTION_CEA 5 ∧
      (afterParse s (specText native preferred [c, c'])).this.mResolutionEnabled
        .RESOLUTION_CEA = 0x21#32 ∧
      IsGreatest (ranks (toLex (0, 0)) [c, c'] .RESOLUTION_CEA 5)
        (rank ((afterParse s (specText native preferred [c, c'])).table .RESOLUTION_CEA 5)) ∧
      ∃ s', parseFormatSpec s (getFormatSpec s.table s.this false) = (s', .ok true) ∧
        s'.this.mNativeIndex = s.this.mNativeIndex := by
  intro _
  let codec (profile level : ℕ) (cea : ℕ) : Codec :=
    ⟨hexField 2 profile, hexField 2 level, hexField 8 cea, hexField 8 0, hexField 8 0,
      jstr " 00 0000 0000 00 none none", rfl⟩
  let s : State := ⟨Table.initial, Formats.initial⟩
  obtain ⟨hlist, hown⟩ := parseFormatSpec_capabilities s
  obtain ⟨hspec, hmasks, hgreatest, hperm⟩ :=
    hlist (hexField 2 40) (hexField 2 0) [codec 1 16 0x21, codec 2 1 0x20]
  obtain ⟨s', hparse, -, hindex, -⟩ := hown s.table s.this (Nat.zero_le 31)
  refine ⟨s, hexField 2 40, hexField 2 0, codec 1 16 0x21, codec 2 1 0x20, by decide, by decide,
    hspec (List.cons_ne_nil _ _), (hperm _ (List.Perm.swap ..) .RESOLUTION_CEA).2 5 (by decide),
    ?_, hgreatest .RESOLUTION_CEA 5 (by decide), s', hparse, hindex⟩
  rw [hmasks]
  decide

end MirrorCast.Video
