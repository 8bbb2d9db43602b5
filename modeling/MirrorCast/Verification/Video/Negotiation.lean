import MirrorCast.Verification.Video.Sharing

/-! # What another instance reports, and what is negotiated -/

namespace MirrorCast.Video

open Java VideoFormats

/-! ## Several instances -/

/-- The instances of a program, with the table they share. -/
structure World (ι : Type) where
  table : Table
  objects : ι → Formats

/-- A call on one of the instances. -/
def World.call [CharData] {ι : Type} [DecidableEq ι] (w : World ι) (i : ι) (op : Operation) :
    Except JavaException (World ι) := do
  let s ← op.apply ⟨w.table, w.objects i⟩
  return ⟨s.table, Function.update w.objects i s.this⟩

/-- What `getProfileLevel`, `isResolutionEnabled` and `getFormatSpec` return. -/
structure View where
  profileLevel : ResolutionType → ℤ → Except JavaException (ProfileType × LevelType)
  resolutionEnabled : ResolutionType → ℤ → Except JavaException Bool
  formatSpec : Bool → JString

def view (t : Table) (f : Formats) : View where
  profileLevel := getProfileLevel t
  resolutionEnabled := isResolutionEnabled f
  formatSpec := getFormatSpec t f

def World.view {ι : Type} (w : World ι) (i : ι) : View := Video.view w.table (w.objects i)

/-- The assignments leave the best profile and level of every resolution, and the profile and
level of the native resolution of `f`. -/
def Keeps (t : Table) (f : Formats) (a : Assignment) : Prop :=
  ∀ type j c, a type j = some c →
    ((RESOLUTION_TABLE type)[j]?.isSome → c.best = (t type j).best) ∧
      (type = f.mNativeType ∧ j = f.mNativeIndex → c = t type j)

theorem checkConfiguration_of_row {type : ResolutionType} {j : ℕ}
    (h : (RESOLUTION_TABLE type)[j]?.isSome) : checkConfiguration type j = .ok () := by
  obtain ⟨fc, hrow⟩ := Option.isSome_iff_exists.mp h
  have hj := lt_of_row hrow
  rw [checkConfiguration, getConfiguration, if_neg (by omega), if_neg (by omega),
    Int.toNat_natCast, hrow]
  rfl

theorem row_of_checkConfiguration {type : ResolutionType} {index : ℤ}
    (h : checkConfiguration type index = .ok ()) :
    (RESOLUTION_TABLE type)[index.toNat]?.isSome := by
  simp only [checkConfiguration, getConfiguration] at h
  split at h
  · cases h
  · split at h
    · cases h
    · rw [ok_bind] at h
      cases hrow : (RESOLUTION_TABLE type)[index.toNat]? with
      | none =>
          rw [hrow] at h
          cases h
      | some fc => rfl

theorem getProfileLevel_eq_iff (t u : Table) :
    getProfileLevel u = getProfileLevel t ↔
      ∀ type j, (RESOLUTION_TABLE type)[j]?.isSome → (u type j).best = (t type j).best := by
  constructor
  · intro h type j hrow
    have hcall := congrFun (congrFun h type) (j : ℤ)
    simp only [getProfileLevel, checkConfiguration_of_row hrow, ok_bind,
      Int.toNat_natCast] at hcall
    exact Except.ok.inj hcall
  · intro h
    funext type index
    rw [getProfileLevel, getProfileLevel]
    cases hcheck : checkConfiguration type index with
    | error e => rfl
    | ok v =>
        rw [ok_bind, ok_bind, h type index.toNat (row_of_checkConfiguration hcheck)]

/-! ## Hexadecimal output -/

theorem length_hex (n value : ℕ) : (hex n value).length = n := by
  induction n generalizing value with
  | zero => rfl
  | succ n ih => simp [hex, ih]

theorem hex_inj {n a b : ℕ} (ha : a < 16 ^ n) (hb : b < 16 ^ n) (h : hex n a = hex n b) :
    a = b := by
  induction n generalizing a b with
  | zero => omega
  | succ n ih =>
      simp only [hex] at h
      obtain ⟨hhigh, hlow⟩ := List.append_inj h (by rw [length_hex, length_hex])
      have hdigit : a % 16 = b % 16 := by
        have hchar := (List.cons.inj hlow).1
        split_ifs at hchar <;> omega
      have hrest : a / 16 = b / 16 :=
        ih (by rw [pow_succ] at ha; omega) (by rw [pow_succ] at hb; omega) hhigh
      omega

theorem getFormatSpec_eq_iff (t u : Table) (f : Formats) :
    getFormatSpec u f = getFormatSpec t f ↔
      u f.mNativeType f.mNativeIndex = t f.mNativeType f.mNativeIndex := by
  constructor
  · intro h
    have htext := congrFun h true
    simp only [getFormatSpec, List.append_assoc] at htext
    obtain ⟨-, hafter⟩ := List.append_inj htext rfl
    obtain ⟨-, hprofile⟩ := List.append_inj hafter rfl
    obtain ⟨hp, hblank⟩ := List.append_inj hprofile (by rw [length_hex, length_hex])
    obtain ⟨-, hlevel⟩ := List.append_inj hblank rfl
    obtain ⟨hl, -⟩ := List.append_inj hlevel (by rw [length_hex, length_hex])
    have hbyte (x : UInt8) : x.toNat < 16 ^ 2 := x.toNat_lt
    have hprofiles := UInt8.toNat_inj.mp (hex_inj (hbyte _) (hbyte _) hp)
    have hlevels := UInt8.toNat_inj.mp (hex_inj (hbyte _) (hbyte _) hl)
    cases hu : u f.mNativeType f.mNativeIndex
    cases ht : t f.mNativeType f.mNativeIndex
    rw [hu, ht] at hprofiles hlevels
    exact congrArg₂ Config.mk hprofiles hlevels
  · intro h
    funext forM4Message
    simp only [getFormatSpec, h]

/-! ## Assignments seen by another instance -/

theorem overwrite_some {t : Table} {a : Assignment} {type : ResolutionType} {j : ℕ} {c : Config}
    (h : a type j = some c) : overwrite t a type j = c := by
  rw [overwrite, h]
  rfl

theorem overwrite_none {t : Table} {a : Assignment} {type : ResolutionType} {j : ℕ}
    (h : a type j = none) : overwrite t a type j = t type j := by
  rw [overwrite, h]
  rfl

theorem view_overwrite_iff (t : Table) (a : Assignment) (f : Formats) :
    view (overwrite t a) f = view t f ↔ Keeps t f a := by
  simp only [view, View.mk.injEq, true_and, getProfileLevel_eq_iff, getFormatSpec_eq_iff]
  constructor
  · rintro ⟨hbest, hnative⟩ type j c hassigned
    refine ⟨fun hrow => ?_, ?_⟩
    · rw [← hbest type j hrow, overwrite_some hassigned]
    · rintro ⟨rfl, rfl⟩
      rw [← hnative, overwrite_some hassigned]
  · intro hkeeps
    refine ⟨fun type j hrow => ?_, ?_⟩
    · cases hassigned : a type j with
      | none => rw [overwrite_none hassigned]
      | some c => rw [overwrite_some hassigned, (hkeeps type j c hassigned).1 hrow]
    · cases hassigned : a f.mNativeType f.mNativeIndex with
      | none => rw [overwrite_none hassigned]
      | some c => rw [overwrite_some hassigned, (hkeeps _ _ c hassigned).2 ⟨rfl, rfl⟩]

theorem table_of_apply [CharData] {op : Operation} {t : Table} {f : Formats} {s : State}
    (h : op.apply ⟨t, f⟩ = .ok s) : s.table = overwrite t op.assigned := by
  have hsame := op.writes f t s h t
  rw [h] at hsame
  exact congrArg State.table (Except.ok.inj hsame)

/-- What a call does to the view of another instance. -/
theorem view_call_iff [CharData] {ι : Type} [DecidableEq ι] {w w' : World ι} {i j : ι} {op : Operation}
    (h : w.call i op = .ok w') (hij : j ≠ i) :
    w'.view j = w.view j ↔ Keeps w.table (w.objects j) op.assigned := by
  obtain ⟨s, happly, hs⟩ := bind_eq_ok.mp h
  cases hs
  simp only [World.view, Function.update_of_ne hij, table_of_apply happly]
  exact view_overwrite_iff _ _ _

/-! ## A negotiation -/

/-- The source is configured, then the sink parses its specification, as in
`WifiDisplaySource`; both instances are constructed before. -/
def negotiate [CharData] (t : Table) (ops : List Operation) (spec : JString) :
    Except JavaException (Option Choice) := do
  let source ← construct t
  let sink ← construct source.table
  let source ← ops.foldlM (fun s op => op.apply s) ⟨sink.table, source.this⟩
  let (sink, parsed) := parseFormatSpec ⟨source.table, sink.this⟩ spec
  let _ ← parsed
  pickBestFormat sink.table sink.this source.this

/-- The source as it is configured, where nobody else writes to its table. -/
def configured [CharData] (ops : List Operation) : Except JavaException State := do
  let source ← construct Table.initial
  ops.foldlM (fun s op => op.apply s) source

/-- The sink as its specification describes it. -/
def SinkSpec.formats (spec : SinkSpec) : Formats where
  mNativeType := ResolutionType.values.getD (hexValue spec.native.digits % 8) .RESOLUTION_CEA
  mNativeIndex := hexValue spec.native.digits / 8
  mResolutionEnabled := fun type =>
    (spec.codecs.map Codec.numbers).foldl (fun mask codec => mask ||| codec.res type) 0

/-- The best profile and level that the sink advertises for a resolution. -/
def SinkSpec.best (spec : SinkSpec) (type : ResolutionType) (index : ℕ) :
    ProfileType × LevelType :=
  (advertised (spec.codecs.map Codec.numbers) type index).best

/-- The fields after the constructor. -/
def Formats.initial : Formats :=
  ⟨.RESOLUTION_CEA, 0, fun type => if type = .RESOLUTION_CEA then 1 else 0⟩

theorem construct_eq (t : Table) :
    construct t = .ok ⟨t.set .RESOLUTION_CEA 0 cbp31, Formats.initial⟩ := by
  have hthis : Formats.enable ⟨.RESOLUTION_CEA, 0, fun _ => 0⟩ .RESOLUTION_CEA (0 ||| bit 0) =
      Formats.initial := by
    simp only [Formats.enable, Formats.initial, bit]
    congr 1
  rw [← hthis]
  rfl

/-- What a sequence of calls makes of the fields does not depend on the table. -/
theorem writes_calls [CharData] (ops : List Operation) :
    ∃ a, Writes (fun s => ops.foldlM (fun s op => op.apply s) s) a := by
  induction ops with
  | nil => exact ⟨_, writes_id⟩
  | cons op ops ih =>
      obtain ⟨a, hrest⟩ := ih
      simp only [List.foldlM_cons]
      exact ⟨_, op.writes.bind hrest⟩

theorem configured_of_calls [CharData] {ops : List Operation} {t : Table} {s : State}
    (h : ops.foldlM (fun s op => op.apply s) ⟨t, Formats.initial⟩ = .ok s) :
    ∃ own, configured ops = .ok own ∧ own.this = s.this := by
  obtain ⟨a, hwrites⟩ := writes_calls ops
  refine ⟨⟨overwrite (Table.initial.set .RESOLUTION_CEA 0 cbp31) a, s.this⟩, ?_, rfl⟩
  rw [configured, construct_eq, ok_bind]
  exact hwrites _ t s h _

/-- Parsing a well-formed specification makes any instance what the specification describes. -/
theorem parseFormatSpec_eq [CharData] (s : State) (spec : SinkSpec) :
    parseFormatSpec s spec.text = (⟨overwrite s.table
      (everywhere (advertised (spec.codecs.map Codec.numbers))),
      { mNativeType := ResolutionType.values.getD (hexValue spec.native.digits % 8)
          s.this.mNativeType
        mNativeIndex := hexValue spec.native.digits / 8
        mResolutionEnabled := spec.formats.mResolutionEnabled }⟩, .ok true) := by
  obtain ⟨hcodecs, hresult⟩ := readCodecs_text spec.codecs
  rw [parseFormatSpec, findNative_text]
  dsimp only
  rw [parseNative_text, drop_text, parseCodecs_eq, hcodecs, hresult, merge_disabled]
  rfl

/-- A sink parses a well-formed specification to what it describes. -/
theorem parseFormatSpec_text [CharData] (t : Table) (spec : SinkSpec) :
    parseFormatSpec ⟨t, Formats.initial⟩ spec.text = (⟨overwrite t
      (everywhere (advertised (spec.codecs.map Codec.numbers))), spec.formats⟩, .ok true) :=
  parseFormatSpec_eq ⟨t, Formats.initial⟩ spec

theorem ProfileType.min_self (p : ProfileType) : p.min p = p := ite_self p

theorem LevelType.min_self (l : LevelType) : l.min l = l := ite_self l

/-- What is chosen from a table. -/
def chosen (t : Table) : Best → Option Choice
  | none => none
  | some (_, type, index) => some ⟨type, index, (t type index).best.1, (t type index).best.2⟩

theorem pickBestFormat_eq {t : Table} {sink source : Formats} {result : Option Choice}
    (h : pickBestFormat t sink source = .ok result) :
    result = chosen t (bestResolution sink source) ∧
      ∀ score type index, bestResolution sink source = some (score, type, index) → index < 32 := by
  rw [pickBestFormat] at h
  cases hbest : bestResolution sink source with
  | none =>
      rw [hbest] at h
      exact ⟨(Except.ok.inj h).symm, fun _ _ _ hsome => by cases hsome⟩
  | some best =>
      obtain ⟨score, type, index⟩ := best
      rw [hbest] at h
      obtain ⟨src, hsrc, hrest⟩ := bind_eq_ok.mp h
      obtain ⟨v, hcheck, hvalue⟩ := bind_eq_ok.mp hsrc
      cases hvalue
      rw [hsrc, ok_bind, Int.toNat_natCast, ProfileType.min_self, LevelType.min_self] at hrest
      have hrow := row_of_checkConfiguration hcheck
      obtain ⟨fc, hfc⟩ := Option.isSome_iff_exists.mp hrow
      refine ⟨(Except.ok.inj hrest).symm, ?_⟩
      rintro _ _ _ ⟨⟩
      exact lt_of_row hfc

theorem row_of_pickFrom {sink source : Formats} {type : ResolutionType} {rows : List FormatConfig}
    {j : ℕ} {best : Best} (hrows : rows = (RESOLUTION_TABLE type).drop j)
    (hbest : ∀ score type' index, best = some (score, type', index) →
      (RESOLUTION_TABLE type')[index]?.isSome) {score : ℕ} {type' : ResolutionType} {index : ℕ}
    (h : pickFrom sink source type rows j best = some (score, type', index)) :
    (RESOLUTION_TABLE type')[index]?.isSome := by
  induction rows generalizing j best with
  | nil => exact hbest _ _ _ h
  | cons fc rows ih =>
      have hrow : (RESOLUTION_TABLE type)[j]? = some fc := by
        rw [← List.head?_drop, ← hrows]
        rfl
      refine ih (j := j + 1) ?_ ?_ h
      · rw [← List.tail_drop, ← hrows]
        rfl
      · intro score' type'' index' heq
        split at heq
        · split at heq
          · cases heq
            rw [hrow]
            rfl
          · split at heq
            · cases heq
              rw [hrow]
              rfl
            · exact hbest _ _ _ heq
        · exact hbest _ _ _ heq

/-- The best resolution is one of the table. -/
theorem row_of_bestResolution {sink source : Formats} {score : ℕ} {type : ResolutionType}
    {index : ℕ} (h : bestResolution sink source = some (score, type, index)) :
    (RESOLUTION_TABLE type)[index]?.isSome := by
  refine row_of_pickFrom (List.drop_zero ..).symm (fun _ _ _ hvesa => ?_) h
  refine row_of_pickFrom (List.drop_zero ..).symm (fun _ _ _ hcea => ?_) hvesa
  exact row_of_pickFrom (List.drop_zero ..).symm (fun _ _ _ hnone => by cases hnone) hcea

theorem pickBestFormat_ok (t : Table) (sink source : Formats) :
    pickBestFormat t sink source = .ok (chosen t (bestResolution sink source)) := by
  unfold pickBestFormat
  cases hbest : bestResolution sink source with
  | none => rfl
  | some best =>
      obtain ⟨score, type, index⟩ := best
      dsimp only
      rw [getProfileLevel, checkConfiguration_of_row (row_of_bestResolution hbest), ok_bind,
        pure_bind, pure_bind, Int.toNat_natCast, ProfileType.min_self, LevelType.min_self]
      rfl

theorem size_pos (type : ResolutionType) : ∀ fc ∈ RESOLUTION_TABLE type,
    0 < fc.width ∧ 0 < fc.height ∧ 0 < fc.framesPerSecond := by
  cases type <;> decide

/-- A negotiation, after the sink has written over the table of the source. -/
theorem negotiate_text [CharData] (t : Table) (ops : List Operation) (spec : SinkSpec) :
    negotiate t ops spec.text = (do
      let source ← ops.foldlM (fun s op => op.apply s)
        ⟨(t.set .RESOLUTION_CEA 0 cbp31).set .RESOLUTION_CEA 0 cbp31, Formats.initial⟩
      pickBestFormat (overwrite source.table
        (everywhere (advertised (spec.codecs.map Codec.numbers)))) spec.formats source.this) := by
  simp only [negotiate, construct_eq, ok_bind, parseFormatSpec_text]

/-- The outcome of a negotiation: profile and level are always the sink's. -/
theorem negotiate_eq [CharData] {t : Table} {ops : List Operation} {spec : SinkSpec}
    {result : Option Choice} {own : State} (hown : configured ops = .ok own)
    (h : negotiate t ops spec.text = .ok result) :
    result = chosen (advertised (spec.codecs.map Codec.numbers))
      (bestResolution spec.formats own.this) := by
  rw [negotiate_text] at h
  obtain ⟨source, hsource, hpick⟩ := bind_eq_ok.mp h
  obtain ⟨own', hown', hthis⟩ := configured_of_calls hsource
  cases hown.symm.trans hown'
  obtain ⟨hresult, hindex⟩ := pickBestFormat_eq hpick
  rw [hthis, hresult]
  cases hbest : bestResolution spec.formats source.this with
  | none => rfl
  | some best =>
      obtain ⟨score, type, index⟩ := best
      rw [chosen, chosen, overwrite_everywhere, if_pos (hindex score type index hbest)]

theorem ProfileType.min_eq_iff (a b : ProfileType) : b = a.min b ↔ b.ordinal ≤ a.ordinal := by
  cases a <;> cases b <;> decide

theorem LevelType.min_eq_iff (a b : LevelType) : b = a.min b ↔ b.ordinal ≤ a.ordinal := by
  cases a <;> cases b <;> decide

/-- A choice has the smaller profile and the smaller level of the two. -/
def Honours (c : Choice) (source sink : ProfileType × LevelType) : Prop :=
  c.profile = source.1.min sink.1 ∧ c.level = source.2.min sink.2

/-- A negotiation honours the source where the sink advertises no more than the source was
configured with, and a call leaves what other instances report where it assigns to the shared
table what it had. -/
theorem honours_and_separate_iff [CharData] (t : Table) (ops : List Operation) (spec : SinkSpec)
    (own : State) (result : Option Choice) (hown : configured ops = .ok own)
    (hresult : negotiate t ops spec.text = .ok result) {ι : Type} [DecidableEq ι] (w w' : World ι)
    (i j : ι) (op : Operation) (hij : j ≠ i) (hcall : w.call i op = .ok w') :
    ((∀ c, result = some c →
        Honours c (own.table c.type c.index).best (spec.best c.type c.index)) ↔
      ∀ score type index, bestResolution spec.formats own.this = some (score, type, index) →
        (spec.best type index).1.ordinal ≤ (own.table type index).best.1.ordinal ∧
          (spec.best type index).2.ordinal ≤ (own.table type index).best.2.ordinal) ∧
    (w'.view j = w.view j ↔ Keeps w.table (w.objects j) op.assigned) := by
  refine ⟨?_, view_call_iff hcall hij⟩
  rw [negotiate_eq hown hresult]
  cases hbest : bestResolution spec.formats own.this with
  | none =>
      constructor
      · rintro - _ _ _ ⟨⟩
      · rintro - _ ⟨⟩
  | some best =>
      obtain ⟨score, type, index⟩ := best
      have hprofile := ProfileType.min_eq_iff (own.table type index).best.1 (spec.best type index).1
      have hlevel := LevelType.min_eq_iff (own.table type index).best.2 (spec.best type index).2
      constructor
      · rintro honours _ _ _ ⟨⟩
        obtain ⟨hp, hl⟩ := honours _ rfl
        exact ⟨hprofile.mp hp, hlevel.mp hl⟩
      · rintro hle _ ⟨⟩
        obtain ⟨hp, hl⟩ := hle score type index rfl
        exact ⟨hprofile.mpr hp, hlevel.mpr hl⟩

/-- The calls of the constructor of `WifiDisplaySource`. -/
def sourceCalls : List Operation :=
  [.disableAll, .setNativeResolution .RESOLUTION_CEA 5,
    .enableResolutionUpto .RESOLUTION_CEA 5 .PROFILE_CHP .LEVEL_32]

/-- A sink with 1280x720 p30 in the constrained high profile, up to a level. -/
def sinkUpto (level : HexField 2) : SinkSpec where
  native := ⟨jstr "28", rfl, rfl⟩
  preferred := ⟨jstr "00", length_zeros, isXDigit_zeros⟩
  codecs := [⟨⟨jstr "02", rfl, rfl⟩, level, ⟨jstr "00000020", rfl, rfl⟩,
    ⟨jstr "00000000", rfl, rfl⟩, ⟨jstr "00000000", rfl, rfl⟩, jstr " 00 0000 0000 00 none none",
    length_plain_tail⟩]
  nonempty := by simp

def level31 : HexField 2 := ⟨jstr "01", rfl, rfl⟩

def level42 : HexField 2 := ⟨jstr "10", rfl, rfl⟩

/-- What the source is configured with, and the resolution both sides have. -/
theorem configured_sourceCalls [CharData] : ∃ own, configured sourceCalls = .ok own ∧
    (own.table .RESOLUTION_CEA 5).best = (.PROFILE_CHP, .LEVEL_32) ∧
    ∀ level, bestResolution (sinkUpto level).formats own.this =
      some (1280 * 720 * 30 * 2, .RESOLUTION_CEA, 5) := by
  have heval : (configured sourceCalls).toOption.map (fun own =>
      ((own.table .RESOLUTION_CEA 5).best, bestResolution (sinkUpto level31).formats own.this)) =
      some ((.PROFILE_CHP, .LEVEL_32), some (1280 * 720 * 30 * 2, .RESOLUTION_CEA, 5)) := by
    rfl
  cases hown : configured sourceCalls with
  | error e =>
      rw [hown] at heval
      cases heval
  | ok own =>
      rw [hown] at heval
      obtain ⟨hbest, hresolution⟩ := Prod.mk.inj (Option.some.inj heval)
      exact ⟨own, rfl, hbest, fun level => hresolution⟩

/-- The level 4.2 of a sink wins over the level 3.2 of the source, and the calls on one
instance change what another one reports. -/
theorem negotiation_ignores_source :
    let _ := CharData.ascii
    (¬ ∀ (t : Table) (ops : List Operation) (spec : SinkSpec) (own : State) (c : Choice),
      configured ops = .ok own → negotiate t ops spec.text = .ok (some c) →
        Honours c (own.table c.type c.index).best (spec.best c.type c.index)) ∧
    ¬ ∀ (w w' : World Bool) (op : Operation), w.call false op = .ok w' →
      w'.view true = w.view true := by
  intro _
  constructor
  · intro h
    obtain ⟨own, hown, hbest, -⟩ := configured_sourceCalls
    have hchoice : negotiate Table.initial sourceCalls (sinkUpto level42).text =
        .ok (some ⟨.RESOLUTION_CEA, 5, .PROFILE_CHP, .LEVEL_42⟩) := by
      rw [negotiate_text]
      rfl
    obtain ⟨-, hlevel⟩ := h _ _ _ own _ hown hchoice
    rw [hbest] at hlevel
    revert hlevel
    decide +kernel
  · intro h
    let w : World Bool := ⟨Table.initial, fun _ => Formats.initial⟩
    have hcall : w.call false .enableAll = .ok ⟨Table.initial.fill cbp31, Function.update w.objects
        false { Formats.initial with mResolutionEnabled := fun _ => BitVec.allOnes 32 }⟩ := rfl
    have hkeeps := (view_call_iff hcall (by decide : true ≠ false)).mp (h w _ _ hcall)
    have hnative := (hkeeps .RESOLUTION_CEA 0 cbp31 rfl).2 ⟨rfl, rfl⟩
    revert hnative
    decide

theorem level31_honoured :
    let _ := CharData.ascii
    (∃ own, configured sourceCalls = .ok own ∧
      Honours ⟨.RESOLUTION_CEA, 5, .PROFILE_CHP, .LEVEL_31⟩ (own.table .RESOLUTION_CEA 5).best
        ((sinkUpto level31).best .RESOLUTION_CEA 5)) ∧
    ∃ w' : World Bool, World.call ⟨Table.initial, fun _ => Formats.initial⟩ false .disableAll =
      .ok w' ∧ w'.view true = World.view ⟨Table.initial, fun _ => Formats.initial⟩ true := by
  intro _
  obtain ⟨own, hown, hbest, hresolution⟩ := configured_sourceCalls
  have hchoice : negotiate Table.initial sourceCalls (sinkUpto level31).text =
      .ok (some ⟨.RESOLUTION_CEA, 5, .PROFILE_CHP, .LEVEL_31⟩) := by
    rw [negotiate_text]
    rfl
  have hcall : World.call ⟨Table.initial, fun _ => Formats.initial⟩ false .disableAll =
      .ok ⟨Table.initial.fill ⟨0, 0⟩, Function.update (fun _ : Bool => Formats.initial) false
        { Formats.initial with mResolutionEnabled := fun _ => 0 }⟩ := rfl
  obtain ⟨honours, hsame⟩ := honours_and_separate_iff _ _ _ own _ hown hchoice _ _ false true _
    (by decide) hcall
  refine ⟨⟨own, hown, honours.mpr ?_ _ rfl⟩, _, hcall, hsame.mpr ?_⟩
  · intro score type index hsome
    cases (hresolution level31).symm.trans hsome
    rw [hbest]
    decide +kernel
  · intro type j c hassigned
    have hzero : c = ⟨0, 0⟩ := by
      simp only [Operation.assigned, everywhere] at hassigned
      split at hassigned
      · exact (Option.some.inj hassigned).symm
      · cases hassigned
    rw [hzero]
    exact ⟨fun _ => rfl, fun _ => rfl⟩

end MirrorCast.Video
