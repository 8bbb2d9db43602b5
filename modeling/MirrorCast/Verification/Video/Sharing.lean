import MirrorCast.Verification.Video.Specifications

/-! # Instances of `VideoFormats` share their profiles and levels -/

namespace MirrorCast.Video

open Java VideoFormats

/-! ## Operations -/

/-- The calls that change an instance. -/
inductive Operation where
  | disableAll
  | enableAll
  | setNativeResolution (type : ResolutionType) (index : ℤ)
  | setResolutionEnabled (type : ResolutionType) (index : ℤ) (enabled : Bool)
  | setProfileLevel (type : ResolutionType) (index : ℤ) (profile : ProfileType) (level : LevelType)
  | enableResolutionUpto (type : ResolutionType) (index : ℤ) (profile : ProfileType)
      (level : LevelType)
  | parseFormatSpec (spec : JString)

/-- The state after a call, which for `parseFormatSpec` is there even if it throws. -/
def Operation.apply [CharData] (op : Operation) (s : State) : Except JavaException State :=
  match op with
  | .disableAll => .ok (VideoFormats.disableAll s)
  | .enableAll => .ok (VideoFormats.enableAll s)
  | .setNativeResolution type index => VideoFormats.setNativeResolution s type index
  | .setResolutionEnabled type index enabled =>
      VideoFormats.setResolutionEnabled s type index enabled
  | .setProfileLevel type index profile level =>
      VideoFormats.setProfileLevel s type index profile level
  | .enableResolutionUpto type index profile level =>
      VideoFormats.enableResolutionUpto s type index profile level
  | .parseFormatSpec spec => .ok (VideoFormats.parseFormatSpec s spec).1

/-- What a call assigns to a resolution, if anything. -/
abbrev Assignment := ResolutionType → ℕ → Option Config

/-- The table after the assignments of a call. -/
def overwrite (t : Table) (a : Assignment) : Table := fun type j => (a type j).getD (t type j)

/-- One assignment. -/
def single (type : ResolutionType) (index : ℤ) (c : Config) : Assignment :=
  fun ty j => if ty = type ∧ j = index.toNat then some c else none

/-- The same assignment to all resolutions. -/
def everywhere (c : ResolutionType → ℕ → Config) : Assignment :=
  fun type j => if j < 32 then some (c type j) else none

/-- Profile and level as bits. -/
def levelBits (profile : ProfileType) (level : LevelType) : Config :=
  ⟨UInt8.ofNat (2 ^ profile.ordinal), UInt8.ofNat (2 ^ level.ordinal)⟩

/-- The resolution exists and is not better than `fc`. -/
def Upto (fc : FormatConfig) (type : ResolutionType) (j : ℕ) : Prop :=
  ∃ fc', (RESOLUTION_TABLE type)[j]? = some fc' ∧ fc'.score ≤ fc.score

instance (fc : FormatConfig) (type : ResolutionType) (j : ℕ) : Decidable (Upto fc type j) :=
  decidable_of_iff (((RESOLUTION_TABLE type)[j]?.any fun fc' => fc'.score ≤ fc.score) = true) (by
    unfold Upto
    cases (RESOLUTION_TABLE type)[j]? <;> simp)

/-- What the codecs of a specification advertise for a resolution. -/
def advertised (codecs : List H264Codec) (type : ResolutionType) (j : ℕ) : Config :=
  codecs.foldl (fun c codec => if (codec.res type).getLsbD j then codec.raise c else c) ⟨0, 0⟩

/-- The codecs of a specification that are merged. -/
def mergedCodecs [CharData] (spec : JString) : List H264Codec :=
  match findNative spec with
  | none => []
  | some (native, preferred) =>
      match parseNative native preferred spec with
      | .error _ => []
      | .ok _ => readCodecs (spec.drop 6)

/-- The assignments of a call; they depend on its arguments only. -/
def Operation.assigned [CharData] : Operation → Assignment
  | .disableAll => everywhere fun _ _ => ⟨0, 0⟩
  | .enableAll => everywhere fun _ _ => cbp31
  | .setNativeResolution type index => single type index cbp31
  | .setResolutionEnabled type index enabled =>
      single type index (if enabled then cbp31 else ⟨0, 0⟩)
  | .setProfileLevel type index profile level => single type index (levelBits profile level)
  | .enableResolutionUpto type index profile level =>
      match getConfiguration type index with
      | .ok (some fc) => fun ty j => if Upto fc ty j then some (levelBits profile level) else none
      | _ => fun _ _ => none
  | .parseFormatSpec spec => everywhere (advertised (mergedCodecs spec))

/-! ## What a call does -/

/-- A call assigns to the table what it assigns to any table, and what it makes of its own
fields does not depend on the table. -/
def Writes (call : State → Except JavaException State) (a : Assignment) : Prop :=
  ∀ (f : Formats) (t : Table) (s : State), call ⟨t, f⟩ = .ok s →
    ∀ u : Table, call ⟨u, f⟩ = .ok ⟨overwrite u a, s.this⟩

theorem overwrite_single (t : Table) (type : ResolutionType) (index : ℤ) (c : Config) :
    overwrite t (single type index c) = t.set type index.toNat c := by
  funext ty j
  unfold overwrite single Table.set
  split <;> rfl

theorem overwrite_everywhere (t : Table) (c : ResolutionType → ℕ → Config) (type : ResolutionType)
    (j : ℕ) : overwrite t (everywhere c) type j = if j < 32 then c type j else t type j := by
  unfold overwrite everywhere
  split <;> rfl

theorem overwrite_fill (t : Table) (c : Config) :
    overwrite t (everywhere fun _ _ => c) = t.fill c := by
  funext type j
  rw [overwrite_everywhere]
  rfl

theorem writes_setResolutionEnabled (type : ResolutionType) (index : ℤ) (enabled : Bool) :
    Writes (fun s => setResolutionEnabled s type index enabled)
      (single type index (if enabled then cbp31 else ⟨0, 0⟩)) := by
  intro f t s h u
  obtain ⟨v, hcheck, hrest⟩ := bind_eq_ok.mp h
  cases enabled with
  | true =>
      cases hrest
      simp only [setResolutionEnabled, hcheck, ok_bind, overwrite_single, if_true]
      rfl
  | false =>
      cases hrest
      simp only [setResolutionEnabled, hcheck, ok_bind, overwrite_single]
      rfl

theorem writes_setNativeResolution (type : ResolutionType) (index : ℤ) :
    Writes (fun s => setNativeResolution s type index) (single type index cbp31) := by
  intro f t s h u
  obtain ⟨v, hcheck, hrest⟩ := bind_eq_ok.mp h
  have hset := writes_setResolutionEnabled type index true _ t s hrest u
  simp only [setNativeResolution, hcheck, ok_bind]
  exact hset

theorem writes_setProfileLevel (type : ResolutionType) (index : ℤ) (profile : ProfileType)
    (level : LevelType) : Writes (fun s => setProfileLevel s type index profile level)
      (single type index (levelBits profile level)) := by
  intro f t s h u
  obtain ⟨v, hcheck, hrest⟩ := bind_eq_ok.mp h
  cases hrest
  simp only [setProfileLevel, hcheck, ok_bind, overwrite_single]
  rfl

theorem overwrite_overwrite (t : Table) (a b : Assignment) :
    overwrite (overwrite t a) b = overwrite t fun type j => (b type j).or (a type j) := by
  funext type j
  simp only [overwrite]
  cases b type j <;> rfl

theorem Writes.bind {f g : State → Except JavaException State} {a b : Assignment}
    (hf : Writes f a) (hg : Writes g b) :
    Writes (fun s => f s >>= g) fun type j => (b type j).or (a type j) := by
  intro fields t s h u
  obtain ⟨⟨t', fields'⟩, hfirst, hsecond⟩ := bind_eq_ok.mp h
  change f ⟨u, fields⟩ >>= g = _
  rw [hf fields t _ hfirst u, ok_bind, hg fields' t' s hsecond, overwrite_overwrite]

theorem writes_id : Writes (fun s => .ok s) fun _ _ => none := by
  intro f t s h u
  cases h
  rfl

/-- One round of the loop of `enableResolutionUpto`. -/
theorem writes_round (fc : FormatConfig) (profile : ProfileType) (level : LevelType)
    (type : ResolutionType) {j : ℕ} (hj : j < 32) :
    Writes (fun s => do
      match ← getConfiguration type j with
      | none => return s
      | some fc' =>
          if fc'.score ≤ fc.score then do
            let s ← setResolutionEnabled s type j true
            setProfileLevel s type j profile level
          else return s)
      (fun ty k => if (ty, k) = (type, j) ∧ Upto fc ty k then some (levelBits profile level)
        else none) := by
  have hconfig : getConfiguration type j = .ok (RESOLUTION_TABLE type)[j]? := by
    rw [getConfiguration, if_neg (by omega), if_neg (by omega), Int.toNat_natCast]
  have hnothing : ¬ Upto fc type j → (fun (ty : ResolutionType) (k : ℕ) =>
      if (ty, k) = (type, j) ∧ Upto fc ty k then some (levelBits profile level) else none) =
      fun _ _ => none := by
    intro hnot
    funext ty k
    apply if_neg
    rintro ⟨heq, hupto⟩
    cases heq
    exact hnot hupto
  simp only [hconfig, ok_bind]
  cases hrow : (RESOLUTION_TABLE type)[j]? with
  | none =>
      rw [hnothing (by rintro ⟨fc', hfc', -⟩; rw [hrow] at hfc'; cases hfc')]
      exact writes_id
  | some fc' =>
      dsimp only
      by_cases hscore : fc'.score ≤ fc.score
      · simp only [if_pos hscore]
        have hboth := (writes_setResolutionEnabled type j true).bind
          (writes_setProfileLevel type j profile level)
        convert hboth using 1
        funext ty k
        have hiff : ((ty, k) = (type, j) ∧ Upto fc ty k) ↔ ty = type ∧ k = (j : ℤ).toNat := by
          rw [Int.toNat_natCast, Prod.mk.injEq]
          refine ⟨And.left, fun heq => ⟨heq, ?_⟩⟩
          rw [heq.1, heq.2]
          exact ⟨fc', hrow, hscore⟩
        simp only [single, hiff]
        split <;> rfl
      · rw [hnothing (by
          rintro ⟨fc'', hfc'', hle⟩
          rw [hrow] at hfc''
          cases hfc''
          exact hscore hle)]
        simp only [if_neg hscore]
        exact writes_id

theorem mem_positions {type : ResolutionType} {j : ℕ} : (type, j) ∈ positions ↔ j < 32 := by
  simp only [positions, ResolutionType.values, List.mem_flatMap, List.mem_map, List.mem_range,
    Prod.mk.injEq]
  constructor
  · rintro ⟨ty, -, k, hk, rfl, rfl⟩
    exact hk
  · intro hj
    exact ⟨type, by cases type <;> simp, j, hj, rfl, rfl⟩

theorem length_table (type : ResolutionType) : (RESOLUTION_TABLE type).length ≤ 32 := by
  cases type <;> decide

theorem lt_of_row {type : ResolutionType} {j : ℕ} {fc : FormatConfig}
    (h : (RESOLUTION_TABLE type)[j]? = some fc) : j < 32 := by
  have hlt := (List.getElem?_eq_some_iff.mp h).1
  have hle := length_table type
  omega

theorem writes_rounds (fc : FormatConfig) (profile : ProfileType) (level : LevelType)
    (ps : List (ResolutionType × ℕ)) (hps : ∀ p ∈ ps, p.2 < 32) :
    Writes (fun s => ps.foldlM (fun s (position : ResolutionType × ℕ) => do
      match ← getConfiguration position.1 position.2 with
      | none => return s
      | some fc' =>
          if fc'.score ≤ fc.score then do
            let s ← setResolutionEnabled s position.1 position.2 true
            setProfileLevel s position.1 position.2 profile level
          else return s) s)
      (fun ty k => if (ty, k) ∈ ps ∧ Upto fc ty k then some (levelBits profile level) else none) := by
  induction ps with
  | nil =>
      simp only [List.foldlM_nil, List.not_mem_nil, false_and, if_false]
      exact writes_id
  | cons p ps ih =>
      simp only [List.foldlM_cons]
      have hboth := (writes_round fc profile level p.1 (hps p (by simp))).bind
        (ih fun q hq => hps q (by simp [hq]))
      convert hboth using 1
      funext ty k
      simp only [List.mem_cons]
      by_cases hupto : Upto fc ty k
      · by_cases hrest : (ty, k) ∈ ps
        · simp [hupto, hrest]
        · simp only [hupto, hrest, and_true, or_false, if_false, Option.none_or]
      · simp [hupto]

theorem writes_enableResolutionUpto [CharData] (type : ResolutionType) (index : ℤ)
    (profile : ProfileType) (level : LevelType) : Writes (fun s => enableResolutionUpto s type index profile level)
      (Operation.enableResolutionUpto type index profile level).assigned := by
  simp only [enableResolutionUpto, Operation.assigned]
  cases getConfiguration type index with
  | error e =>
      intro f t s h
      cases h
  | ok row =>
      simp only [ok_bind]
      cases row with
      | none => exact writes_id
      | some fc =>
          have hrounds := writes_rounds fc profile level positions fun p hp => mem_positions.mp hp
          have hupto : (fun ty k => if Upto fc ty k then some (levelBits profile level) else none) =
              fun ty k => if (ty, k) ∈ positions ∧ Upto fc ty k then
                some (levelBits profile level) else none := by
            funext ty k
            have hiff : ((ty, k) ∈ positions ∧ Upto fc ty k) ↔ Upto fc ty k := by
              refine ⟨And.right, fun hupto => ⟨mem_positions.mpr ?_, hupto⟩⟩
              obtain ⟨fc', hrow, -⟩ := hupto
              exact lt_of_row hrow
            simp only [hiff]
          dsimp only
          rw [hupto]
          exact hrounds

/-! ## Parsing -/

/-- The table and the fields after the codecs were merged. -/
theorem merge_all (codecs : List H264Codec) (t : Table) (f : Formats) :
    codecs.foldl (fun s codec => codec.merge s) ⟨t, f⟩ =
      ⟨fun type j => if j < 32 then
          codecs.foldl (fun c codec => if (codec.res type).getLsbD j then codec.raise c else c)
            (t type j)
        else t type j,
        { f with mResolutionEnabled := fun type =>
          codecs.foldl (fun mask codec => mask ||| codec.res type) (f.mResolutionEnabled type) }⟩ := by
  induction codecs generalizing t f with
  | nil => simp
  | cons codec codecs ih =>
      rw [List.foldl_cons, H264Codec.merge, ih]
      simp only [List.foldl_cons, State.mk.injEq, and_true]
      funext type j
      by_cases hj : j < 32
      · simp [hj]
      · simp [hj]

/-- What the codecs make of an instance in which everything is disabled. -/
theorem merge_disabled (codecs : List H264Codec) (t : Table) (f : Formats) :
    codecs.foldl (fun s codec => codec.merge s) (disableAll ⟨t, f⟩) =
      ⟨overwrite t (everywhere (advertised codecs)),
        { f with mResolutionEnabled := fun type =>
          codecs.foldl (fun mask codec => mask ||| codec.res type) 0 }⟩ := by
  rw [disableAll, merge_all]
  congr 1
  funext type j
  rw [overwrite_everywhere]
  by_cases hj : j < 32
  · simp [hj, Table.fill, advertised]
  · simp [hj, Table.fill]

variable [CharData]

/-- How a call ends and what it makes of the fields does not depend on the table. -/
theorem parseFormatSpec_table (spec : JString) (f : Formats) :
    ∃ f' result, ∀ t : Table, parseFormatSpec ⟨t, f⟩ spec =
      (⟨overwrite t (everywhere (advertised (mergedCodecs spec))), f'⟩, result) := by
  have hnothing := fun t => merge_disabled [] t f
  simp only [List.foldl_nil] at hnothing
  unfold parseFormatSpec mergedCodecs
  cases findNative spec with
  | none => exact ⟨_, _, fun t => Prod.ext (hnothing t) rfl⟩
  | some groups =>
      obtain ⟨native, preferred⟩ := groups
      dsimp only
      cases parseNative native preferred spec with
      | error e => exact ⟨_, _, fun t => Prod.ext (hnothing t) rfl⟩
      | ok nativeInfo =>
          dsimp only
          simp only [parseCodecs_eq, merge_disabled]
          cases codecsResult (spec.drop 6) with
          | error e => exact ⟨_, _, fun t => rfl⟩
          | ok _ =>
              dsimp only
              exact ⟨_, _, fun t => rfl⟩

theorem writes_parseFormatSpec (spec : JString) :
    Writes (fun s => .ok (parseFormatSpec s spec).1)
      (Operation.parseFormatSpec spec).assigned := by
  intro f t s h u
  obtain ⟨f', result, hcall⟩ := parseFormatSpec_table spec f
  cases h
  dsimp only
  rw [hcall t, hcall u]
  rfl

theorem Operation.writes (op : Operation) : Writes op.apply op.assigned := by
  cases op with
  | disableAll =>
      intro f t s h u
      cases h
      simp only [Operation.assigned, overwrite_fill]
      rfl
  | enableAll =>
      intro f t s h u
      cases h
      simp only [Operation.assigned, overwrite_fill]
      rfl
  | setNativeResolution type index => exact writes_setNativeResolution type index
  | setResolutionEnabled type index enabled => exact writes_setResolutionEnabled type index enabled
  | setProfileLevel type index profile level =>
      exact writes_setProfileLevel type index profile level
  | enableResolutionUpto type index profile level =>
      exact writes_enableResolutionUpto type index profile level
  | parseFormatSpec spec => exact writes_parseFormatSpec spec

end MirrorCast.Video
