import MirrorCast.Library.JavaString

/-! # `VideoFormats`: the resolutions, profiles and levels of source and sink -/

namespace MirrorCast.VideoFormats

open Java

inductive ProfileType where
  | PROFILE_CBP
  | PROFILE_CHP
  deriving DecidableEq, Repr

inductive LevelType where
  | LEVEL_31
  | LEVEL_32
  | LEVEL_40
  | LEVEL_41
  | LEVEL_42
  deriving DecidableEq, Repr

inductive ResolutionType where
  | RESOLUTION_CEA
  | RESOLUTION_VESA
  | RESOLUTION_HH
  deriving DecidableEq, Repr

def ProfileType.ordinal : ProfileType → ℕ
  | .PROFILE_CBP => 0
  | .PROFILE_CHP => 1

def LevelType.ordinal : LevelType → ℕ
  | .LEVEL_31 => 0
  | .LEVEL_32 => 1
  | .LEVEL_40 => 2
  | .LEVEL_41 => 3
  | .LEVEL_42 => 4

def ResolutionType.ordinal : ResolutionType → ℕ
  | .RESOLUTION_CEA => 0
  | .RESOLUTION_VESA => 1
  | .RESOLUTION_HH => 2

def ResolutionType.values : List ResolutionType :=
  [.RESOLUTION_CEA, .RESOLUTION_VESA, .RESOLUTION_HH]

/-- What a table row says about a resolution. -/
structure FormatConfig where
  width : ℕ
  height : ℕ
  framesPerSecond : ℕ
  interlaced : Bool
  deriving DecidableEq, Repr

/-- The rows of `RESOLUTION_TABLE`; the rows behind them, up to 32, have width 0. -/
def RESOLUTION_TABLE : ResolutionType → List FormatConfig
  | .RESOLUTION_CEA =>
      [⟨640, 480, 60, false⟩, ⟨720, 480, 60, false⟩, ⟨720, 480, 60, true⟩, ⟨720, 576, 50, false⟩,
        ⟨720, 576, 50, true⟩, ⟨1280, 720, 30, false⟩, ⟨1280, 720, 60, false⟩,
        ⟨1920, 1080, 30, false⟩, ⟨1920, 1080, 60, false⟩, ⟨1920, 1080, 60, true⟩,
        ⟨1280, 720, 25, false⟩, ⟨1280, 720, 50, false⟩, ⟨1920, 1080, 25, false⟩,
        ⟨1920, 1080, 50, false⟩, ⟨1920, 1080, 50, true⟩, ⟨1280, 720, 24, false⟩,
        ⟨1920, 1080, 24, false⟩]
  | .RESOLUTION_VESA =>
      [⟨800, 600, 30, false⟩, ⟨800, 600, 60, false⟩, ⟨1024, 768, 30, false⟩,
        ⟨1024, 768, 60, false⟩, ⟨1152, 864, 30, false⟩, ⟨1152, 864, 60, false⟩,
        ⟨1280, 768, 30, false⟩, ⟨1280, 768, 60, false⟩, ⟨1280, 800, 30, false⟩,
        ⟨1280, 800, 60, false⟩, ⟨1360, 768, 30, false⟩, ⟨1360, 768, 60, false⟩,
        ⟨1366, 768, 30, false⟩, ⟨1366, 768, 60, false⟩, ⟨1280, 1024, 30, false⟩,
        ⟨1280, 1024, 60, false⟩, ⟨1400, 1050, 30, false⟩, ⟨1400, 1050, 60, false⟩,
        ⟨1440, 900, 30, false⟩, ⟨1440, 900, 60, false⟩, ⟨1600, 900, 30, false⟩,
        ⟨1600, 900, 60, false⟩, ⟨1600, 1200, 30, false⟩, ⟨1600, 1200, 60, false⟩,
        ⟨1680, 1024, 30, false⟩, ⟨1680, 1024, 60, false⟩, ⟨1680, 1050, 30, false⟩,
        ⟨1680, 1050, 60, false⟩, ⟨1920, 1200, 30, false⟩, ⟨1920, 1200, 60, false⟩]
  | .RESOLUTION_HH =>
      [⟨800, 480, 30, false⟩, ⟨800, 480, 60, false⟩, ⟨854, 480, 30, false⟩, ⟨854, 480, 60, false⟩,
        ⟨864, 480, 30, false⟩, ⟨864, 480, 60, false⟩, ⟨640, 360, 30, false⟩, ⟨640, 360, 60, false⟩,
        ⟨960, 540, 30, false⟩, ⟨960, 540, 60, false⟩, ⟨848, 480, 30, false⟩, ⟨848, 480, 60, false⟩]

/-- The two mutable fields of a `Config`; every value the code stores there fits a byte. -/
structure Config where
  profile : UInt8
  level : UInt8
  deriving DecidableEq, Repr

/-- The `Config` objects, by type and index below 32. The constructor copies the arrays of
`RESOLUTION_TABLE` but not the objects in them, so all instances share one table. -/
abbrev Table := ResolutionType → ℕ → Config

/-- The table when the class is loaded. -/
def Table.initial : Table := fun _ _ => ⟨0, 0⟩

/-- The fields an instance has for itself. -/
structure Formats where
  mNativeType : ResolutionType
  mNativeIndex : ℕ
  mResolutionEnabled : ResolutionType → BitVec 32

/-- What a method works on: the shared table and its instance. -/
structure State where
  table : Table
  this : Formats

/-- An assignment to `mConfigs[type][index]`. -/
def Table.set (t : Table) (type : ResolutionType) (index : ℕ) (c : Config) : Table :=
  fun ty j => if ty = type ∧ j = index then c else t ty j

/-- An assignment to `mResolutionEnabled[type]`. -/
def Formats.enable (f : Formats) (type : ResolutionType) (mask : BitVec 32) :
    Formats :=
  { f with mResolutionEnabled := fun ty => if ty = type then mask else f.mResolutionEnabled ty }

def getConfiguration (type : ResolutionType) (index : ℤ) :
    Except JavaException (Option FormatConfig) :=
  if 32 ≤ index then .ok none
  else if index < 0 then .error .arrayIndexOutOfBounds
  else .ok (RESOLUTION_TABLE type)[index.toNat]?

/-- `CheckUtils.check(getConfiguration(type, index) != null)`. -/
def checkConfiguration (type : ResolutionType) (index : ℤ) : Except JavaException Unit := do
  match ← getConfiguration type index with
  | some _ => return ()
  | none => .error .runtime

/-- `1 << index` as a mask of resolutions. -/
def bit (index : ℕ) : BitVec 32 := 1#32 <<< index

def cbp31 : Config := ⟨1, 1⟩

def setResolutionEnabled (s : State) (type : ResolutionType) (index : ℤ) (enabled : Bool) :
    Except JavaException State := do
  checkConfiguration type index
  let mask := s.this.mResolutionEnabled type
  if enabled then
    return ⟨s.table.set type index.toNat cbp31, s.this.enable type (mask ||| bit index.toNat)⟩
  else
    return ⟨s.table.set type index.toNat ⟨0, 0⟩, s.this.enable type (mask &&& ~~~ bit index.toNat)⟩

def setNativeResolution (s : State) (type : ResolutionType) (index : ℤ) :
    Except JavaException State := do
  checkConfiguration type index
  let this := { s.this with mNativeType := type, mNativeIndex := index.toNat }
  setResolutionEnabled { s with this } type index true

/-- The constructor on the table as it is; the native resolution is 640x480 p60. -/
def construct (t : Table) : Except JavaException State :=
  setNativeResolution ⟨t, ⟨.RESOLUTION_CEA, 0, fun _ => 0⟩⟩ .RESOLUTION_CEA 0

/-- The assignment of one value to all `Config` objects. -/
def Table.fill (t : Table) (c : Config) : Table := fun type j => if j < 32 then c else t type j

def disableAll (s : State) : State :=
  ⟨s.table.fill ⟨0, 0⟩, { s.this with mResolutionEnabled := fun _ => 0 }⟩

def enableAll (s : State) : State :=
  ⟨s.table.fill cbp31, { s.this with mResolutionEnabled := fun _ => BitVec.allOnes 32 }⟩

def setProfileLevel (s : State) (type : ResolutionType) (index : ℤ) (profile : ProfileType)
    (level : LevelType) : Except JavaException State := do
  checkConfiguration type index
  return { s with
    table := s.table.set type index.toNat
      ⟨UInt8.ofNat (2 ^ profile.ordinal), UInt8.ofNat (2 ^ level.ordinal)⟩ }

/-- The positions of the two nested loops over types and indices. -/
def positions : List (ResolutionType × ℕ) :=
  ResolutionType.values.flatMap fun type => (List.range 32).map fun j => (type, j)

def FormatConfig.score (fc : FormatConfig) : ℕ :=
  fc.width * fc.height * fc.framesPerSecond * if fc.interlaced then 1 else 2

def enableResolutionUpto (s : State) (type : ResolutionType) (index : ℤ) (profile : ProfileType)
    (level : LevelType) : Except JavaException State := do
  match ← getConfiguration type index with
  | none => return s
  | some fc =>
      positions.foldlM (fun s (position : ResolutionType × ℕ) => do
        match ← getConfiguration position.1 position.2 with
        | none => return s
        | some fc' =>
            if fc'.score ≤ fc.score then do
              let s ← setResolutionEnabled s position.1 position.2 true
              setProfileLevel s position.1 position.2 profile level
            else return s) s

/-! ## Reading -/

/-- The highest of the first `n` bits that is set. -/
def highestBit (mask : UInt8) (n : ℕ) : Option ℕ :=
  ((List.range n).filter fun i => mask.toNat.testBit i).getLast?

def ProfileType.values : List ProfileType := [.PROFILE_CBP, .PROFILE_CHP]

def LevelType.values : List LevelType := [.LEVEL_31, .LEVEL_32, .LEVEL_40, .LEVEL_41, .LEVEL_42]

/-- The best profile and level of a `Config`, with CBP and 3.1 for one that is not set. -/
def Config.best (c : Config) : ProfileType × LevelType :=
  match highestBit c.profile 2, highestBit c.level 5 with
  | some bestProfile, some bestLevel =>
      (ProfileType.values.getD bestProfile .PROFILE_CBP, LevelType.values.getD bestLevel .LEVEL_31)
  | _, _ => (.PROFILE_CBP, .LEVEL_31)

def getProfileLevel (t : Table) (type : ResolutionType) (index : ℤ) :
    Except JavaException (ProfileType × LevelType) := do
  checkConfiguration type index
  return (t type index.toNat).best

def isResolutionEnabled (f : Formats) (type : ResolutionType) (index : ℤ) :
    Except JavaException Bool := do
  checkConfiguration type index
  return (f.mResolutionEnabled type).getLsbD index.toNat

/-- `%x` with `n` digits, for a number that has no more. -/
def hex : ℕ → ℕ → JString
  | 0, _ => []
  | n + 1, value =>
      let digit := value % 16
      hex n (value / 16) ++ [if digit < 10 then 48 + digit else 87 + digit]

def getFormatSpec (t : Table) (f : Formats) (forM4Message : Bool) : JString :=
  let native := if forM4Message then 0 else f.mNativeIndex * 8 + f.mNativeType.ordinal
  let config := t f.mNativeType f.mNativeIndex
  hex 2 native ++ jstr " 00 " ++ hex 2 config.profile.toNat ++ jstr " " ++
    hex 2 config.level.toNat ++ jstr " " ++ hex 8 (f.mResolutionEnabled .RESOLUTION_CEA).toNat ++
    jstr " " ++ hex 8 (f.mResolutionEnabled .RESOLUTION_VESA).toNat ++ jstr " " ++
    hex 8 (f.mResolutionEnabled .RESOLUTION_HH).toNat ++ jstr " 00 0000 0000 00 none none"

/-! ## Parsing -/

section Parsing

variable [CharData]

/-- The groups of a pattern of hexadecimal groups of the given sizes, with a blank between
two of them, if it matches right here, and what follows them. -/
def matchHere : List ℕ → JString → Option (List JString × JString)
  | [], s => some ([], s)
  | n :: ns, s =>
      match takeXDigits n s with
      | none => none
      | some (digits, rest) =>
          if ns = [] then some ([digits], rest)
          else
            match rest with
            | 0x20 :: rest => (matchHere ns rest).map fun (groups, rest) => (digits :: groups, rest)
            | _ => none

/-- `find()`: the groups of the first match. -/
def find (sizes : List ℕ) : JString → Option (List JString)
  | [] => (matchHere sizes []).map Prod.fst
  | c :: s => match matchHere sizes (c :: s) with
      | some (groups, _) => some groups
      | none => find sizes s

/-- One codec of a specification, as `parseH264Codec` reads it. -/
structure H264Codec where
  profile : ℕ
  level : ℕ
  res : ResolutionType → BitVec 32

def readCodec (spec : JString) : Except JavaException (Option H264Codec) :=
  match find [2, 2, 8, 8, 8] spec with
  | some [profile, level, cea, vesa, hh] => do
      let profile ← parseHex (2 ^ 31) profile
      let level ← parseHex (2 ^ 31) level
      let cea ← parseHex (2 ^ 32) cea
      let vesa ← parseHex (2 ^ 32) vesa
      let hh ← parseHex (2 ^ 32) hh
      return some ⟨profile, level, fun
        | .RESOLUTION_CEA => BitVec.ofNat 32 cea
        | .RESOLUTION_VESA => BitVec.ofNat 32 vesa
        | .RESOLUTION_HH => BitVec.ofNat 32 hh⟩
  | _ => .ok none

/-- What a codec makes of a `Config` for a resolution it has: a higher profile is preferred,
even if its level is lower. -/
def H264Codec.raise (codec : H264Codec) (c : Config) : Config :=
  if c.profile.toNat < codec.profile then
    ⟨UInt8.ofNat codec.profile, UInt8.ofNat codec.level⟩
  else if codec.profile = c.profile.toNat ∧ c.level.toNat < codec.level then
    { c with level := UInt8.ofNat codec.level }
  else c

/-- The loops of `parseH264Codec`, which treat every resolution for itself. -/
def H264Codec.merge (codec : H264Codec) (s : State) : State where
  table := fun type j =>
    if j < 32 ∧ (codec.res type).getLsbD j then codec.raise (s.table type j) else s.table type j
  this := { s.this with
    mResolutionEnabled := fun type => s.this.mResolutionEnabled type ||| codec.res type }

def parseH264Codec (s : State) (spec : JString) : Except JavaException State := do
  match ← readCodec spec with
  | some codec => return codec.merge s
  | none => return s

/-- The loop over the codecs, on what is left of the text from `offset` on; what was merged before
an exception stays. -/
def parseCodecs (s : State) (text : JString) : State × Except JavaException Unit :=
  if text = [] then (s, .ok ())
  else
    match parseH264Codec s text with
    | .ok s => parseCodecs s (text.drop 60)
    | .error e => (s, .error e)
termination_by text.length
decreasing_by
  rename_i h
  have hpos := List.length_pos_iff.mpr h
  rw [List.length_drop]
  omega

/-- `find()` on `(\p{XDigit}{2}) (\p{XDigit}{2}) `, with a blank at the end. -/
def findNative : JString → Option (JString × JString)
  | [] => none
  | c :: s => match matchHere [2, 2] (c :: s) with
      | some ([native, preferred], 0x20 :: _) => some (native, preferred)
      | _ => findNative s

/-- The numbers in front of the codecs, and the check of the size. -/
def parseNative (native preferred spec : JString) : Except JavaException ℕ := do
  let nativeInfo ← parseHex (2 ^ 31) native
  let _ ← parseHex (2 ^ 31) preferred
  if spec.length < 6 + 58 then .error .runtime else .ok nativeInfo

/-- The instance after the call, and what is returned. -/
def parseFormatSpec (s : State) (spec : JString) : State × Except JavaException Bool :=
  let s := disableAll s
  match findNative spec with
  | none => (s, .ok false)
  | some (native, preferred) =>
      match parseNative native preferred spec with
      | .error e => (s, .error e)
      | .ok nativeInfo =>
          match parseCodecs s (spec.drop 6) with
          | (s, .error e) => (s, .error e)
          | (s, .ok _) =>
              let mNativeType := ResolutionType.values.getD (nativeInfo % 8) s.this.mNativeType
              ({ s with this := { s.this with mNativeIndex := nativeInfo / 8, mNativeType } },
                .ok true)

end Parsing

/-! ## Choosing -/

/-- The best resolution found so far, with its score. -/
abbrev Best := Option (ℕ × ResolutionType × ℕ)

/-- The inner loop of `pickBestFormat`, over the rows of the table from `j` on. -/
def pickFrom (sink source : Formats) (type : ResolutionType) :
    List FormatConfig → ℕ → Best → Best
  | [], _, best => best
  | fc :: rows, j, best =>
      let best :=
        if (sink.mResolutionEnabled type).getLsbD j ∧ (source.mResolutionEnabled type).getLsbD j then
          match best with
          | none => some (fc.score, type, j)
          | some (bestScore, _, _) => if bestScore < fc.score then some (fc.score, type, j) else best
        else best
      pickFrom sink source type rows (j + 1) best

def bestResolution (sink source : Formats) : Best :=
  ResolutionType.values.foldl
    (fun best type => pickFrom sink source type (RESOLUTION_TABLE type) 0 best) none

def ProfileType.min (a b : ProfileType) : ProfileType := if a.ordinal < b.ordinal then a else b

def LevelType.min (a b : LevelType) : LevelType := if a.ordinal < b.ordinal then a else b

/-- What `pickBestFormat` chooses. -/
structure Choice where
  type : ResolutionType
  index : ℕ
  profile : ProfileType
  level : LevelType
  deriving DecidableEq, Repr

/-- `pickBestFormat`, where `none` stands for the result false. -/
def pickBestFormat (t : Table) (sinkSupported sourceSupported : Formats) :
    Except JavaException (Option Choice) :=
  match bestResolution sinkSupported sourceSupported with
  | none => .ok none
  | some (_, type, index) => do
      let src ← getProfileLevel t type index
      let sink ← getProfileLevel t type index
      return some ⟨type, index, src.1.min sink.1, src.2.min sink.2⟩

end MirrorCast.VideoFormats
