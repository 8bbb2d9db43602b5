import MirrorCast.Verification.Source.Matching
import MirrorCast.Verification.Video.Negotiation

/-! # What the response to M3 leads to -/

namespace MirrorCast.WifiDisplaySource

open Java
open ANetworkSession (OK)
open Errno (ERROR_MALFORMED ERROR_UNSUPPORTED)

/-! ## What has to hold before a call -/

theorem achieves_call {α : Type} {x : Except JavaException α} {s : WifiDisplaySource}
    {Q : α → WifiDisplaySource → Prop} : Achieves (call x) s Q ↔ ∃ a, x = .ok a ∧ Q a s := by
  unfold call
  cases x with
  | ok a =>
      rw [Achieves.pure_iff]
      constructor
      · exact fun h => ⟨a, rfl, h⟩
      · rintro ⟨_, ⟨⟩, h⟩
        exact h
  | error e => exact iff_of_false Achieves.not_throw nofun

theorem achieves_call_bind {α β : Type} {x : Except JavaException α} {f : α → Handler β}
    {s : WifiDisplaySource} {Q : β → WifiDisplaySource → Prop} :
    Achieves (call x >>= f) s Q ↔ ∃ a, x = .ok a ∧ Achieves (f a) s Q := by
  rw [Achieves.bind_iff, achieves_call]

theorem achieves_nonNull_bind {α β : Type} {x : Option α} {f : α → Handler β}
    {s : WifiDisplaySource} {Q : β → WifiDisplaySource → Prop} :
    Achieves (nonNull x >>= f) s Q ↔ ∃ a, x = some a ∧ Achieves (f a) s Q := by
  unfold nonNull
  cases x with
  | none => exact iff_of_false Achieves.not_throw_bind nofun
  | some a =>
      constructor
      · exact fun h => ⟨a, rfl, h⟩
      · rintro ⟨_, ⟨⟩, h⟩
        exact h

theorem achieves_withTable_bind {β : Type}
    {f : VideoFormats.State → Except JavaException VideoFormats.State} {this : VideoFormats.Formats}
    {g : VideoFormats.Formats → Handler β} {s : WifiDisplaySource}
    {Q : β → WifiDisplaySource → Prop} :
    Achieves (withTable f this >>= g) s Q ↔ ∃ formats, f ⟨s.table, this⟩ = .ok formats ∧
      Achieves (g formats.this) { s with table := formats.table } Q := by
  rw [Achieves.bind_iff, withTable, Achieves.get_bind_iff, achieves_call_bind]
  exact exists_congr fun formats => and_congr_right fun _ => Achieves.modify_bind_iff

/-! ## Sending M4 -/

/-- There are a port, a profile and a level, and a format if the sink supports video. -/
structure Complete (s : WifiDisplaySource) : Prop where
  port : 1 ≤ s.mChosenRTPPort ∧ s.mChosenRTPPort ≤ 65535
  profile : s.mChosenVideoProfile ≠ none
  level : s.mChosenVideoLevel ≠ none
  size : s.mSinkSupportsVideo = true → 0 < s.mChosenVideoConfig.width ∧
    0 < s.mChosenVideoConfig.height ∧ 0 < s.mChosenVideoConfig.framesPerSecond

/-- M4 was sent after these effects, with what it needs. -/
structure SentM4 (effects : List Effect) (sessionID : ℤ) (t : WifiDisplaySource) : Prop
    extends Complete t where
  sent : ∃ data cseq, t.effects = effects ++ [.sendRequest sessionID data,
    .registerResponseHandler sessionID cseq .onReceiveM4Response]

/-- An error is returned, or M4 was sent with what it needs. -/
def Validated (effects : List Effect) (sessionID err : ℤ) (t : WifiDisplaySource) : Prop :=
  err ≠ OK ∨ SentM4 effects sessionID t

/-- The chosen resolution is one of the table. -/
def HasRow (s : WifiDisplaySource) : Prop :=
  VideoFormats.checkConfiguration s.mChosenVideoResolutionType s.mChosenVideoResolutionIndex =
    .ok ()

/-- The sink has chosen profile, level and everything else of a format. -/
structure HasFormat (s : WifiDisplaySource) : Prop where
  video : s.mSinkSupportsVideo = true
  profile : s.mChosenVideoProfile ≠ none
  level : s.mChosenVideoLevel ≠ none
  profileType : s.mChosenVideoConfig.profileType ≠ none
  levelType : s.mChosenVideoConfig.levelType ≠ none

theorem setNativeResolution_eq_ok {formats : VideoFormats.State}
    {type : VideoFormats.ResolutionType} {index : ℤ} :
    (∃ formats', VideoFormats.setNativeResolution formats type index = .ok formats') ↔
      VideoFormats.checkConfiguration type index = .ok () := by
  unfold VideoFormats.setNativeResolution VideoFormats.setResolutionEnabled
  cases VideoFormats.checkConfiguration type index with
  | ok _ => exact iff_of_true ⟨_, rfl⟩ rfl
  | error e =>
      rw [error_bind]
      exact iff_of_false nofun nofun

theorem chosenVideoLines_achieves {s : WifiDisplaySource} (hformat : HasFormat s)
    (hrow : HasRow s) :
    Achieves chosenVideoLines s fun _ t => ∃ table, t = { s with table } := by
  obtain ⟨profile, hprofile⟩ := Option.ne_none_iff_exists'.mp hformat.profile
  obtain ⟨level, hlevel⟩ := Option.ne_none_iff_exists'.mp hformat.level
  obtain ⟨profileType, hprofileType⟩ := Option.ne_none_iff_exists'.mp hformat.profileType
  obtain ⟨levelType, hlevelType⟩ := Option.ne_none_iff_exists'.mp hformat.levelType
  unfold chosenVideoLines
  rw [Achieves.get_bind_iff, achieves_call_bind]
  refine ⟨_, Video.construct_eq _, Achieves.modify_bind_iff.mpr ?_⟩
  refine achieves_withTable_bind.mpr ⟨_, rfl, achieves_withTable_bind.mpr ?_⟩
  obtain ⟨formats, hnative⟩ := setNativeResolution_eq_ok.mpr hrow
  refine ⟨formats, hnative, achieves_nonNull_bind.mpr ⟨profile, hprofile, ?_⟩⟩
  refine achieves_nonNull_bind.mpr ⟨level, hlevel, achieves_withTable_bind.mpr ?_⟩
  refine ⟨_, by rw [VideoFormats.setProfileLevel, hrow, ok_bind]; rfl, ?_⟩
  refine Achieves.get_bind_iff.mpr (achieves_nonNull_bind.mpr ⟨profileType, hprofileType, ?_⟩)
  exact achieves_nonNull_bind.mpr ⟨levelType, hlevelType, _, rfl⟩

theorem hasRow_of_chosenVideoLines {s : WifiDisplaySource} {Q : JString → WifiDisplaySource → Prop}
    (h : Achieves chosenVideoLines s Q) : HasRow s := by
  unfold chosenVideoLines at h
  rw [Achieves.get_bind_iff, achieves_call_bind] at h
  obtain ⟨constructed, -, h⟩ := h
  obtain ⟨disabled, -, h⟩ := achieves_withTable_bind.mp (Achieves.modify_bind_iff.mp h)
  obtain ⟨formats, hnative, -⟩ := achieves_withTable_bind.mp h
  exact setNativeResolution_eq_ok.mp ⟨formats, hnative⟩

theorem sendAndRegister_validated {env : Env} {sessionID : ℤ} {line headers : JString}
    {s : WifiDisplaySource} :
    Achieves (sendAndRegister env sessionID line headers .onReceiveM4Response) s
      (Validated s.effects sessionID) ↔
        s.mNetSession sessionID = none ∨ s.CanSend sessionID ∧ Complete s := by
  unfold sendAndRegister sendRequest
  rw [Achieves.get_bind_iff]
  dsimp only
  rw [Achieves.bind_iff, Achieves.get_bind_iff]
  cases hsession : s.mNetSession sessionID with
  | none => exact iff_of_true (Or.inl (by decide)) (Or.inl rfl)
  | some mState =>
      dsimp only
      rw [Achieves.ite_iff]
      split
      · rename_i hstate
        have hcan : s.CanSend sessionID := by
          rcases hstate with rfl | rfl
          · exact .inl hsession
          · exact .inr hsession
        constructor
        · rintro (herr | hsent)
          · exact absurd rfl herr
          · exact .inr ⟨hcan, ⟨hsent.port, hsent.profile, hsent.level, hsent.size⟩⟩
        · rintro (hnone | ⟨-, hcomplete⟩)
          · cases hnone
          · exact .inr ⟨⟨hcomplete.port, hcomplete.profile, hcomplete.level, hcomplete.size⟩,
              _, _, List.append_assoc ..⟩
      · rename_i hstate
        refine iff_of_false Achieves.not_throw ?_
        rintro (hnone | ⟨hcan | hcan, -⟩)
        · cases hnone
        · exact hstate (.inl (Option.some.inj (hsession.symm.trans hcan)))
        · exact hstate (.inr (Option.some.inj (hsession.symm.trans hcan)))

/-- What M4 needs of the source when it is sent. -/
def CanSendM4 (sessionID : ℤ) (s : WifiDisplaySource) : Prop :=
  sessionID = s.mClientSessionID ∧ HasRow s ∧
    (s.mNetSession sessionID = none ∨ s.CanSend sessionID ∧ Complete s)

theorem sendM4_validated {env : Env} {sessionID : ℤ} {s : WifiDisplaySource}
    (hformat : HasFormat s) :
    Achieves (sendM4 env sessionID) s (Validated s.effects sessionID) ↔
      CanSendM4 sessionID s := by
  unfold sendM4 videoLines
  rw [Achieves.get_bind_iff, Achieves.ite_iff]
  split
  · rename_i hne
    exact iff_of_false Achieves.not_throw_bind fun h => hne h.1
  rename_i heq
  rw [Achieves.bind_iff, Achieves.get_bind_iff, if_pos hformat.video, ← Achieves.bind_iff]
  by_cases hrow : HasRow s
  · refine Iff.trans (b := s.mNetSession sessionID = none ∨ s.CanSend sessionID ∧ Complete s)
      (Achieves.bind_of_achieves (chosenVideoLines_achieves hformat hrow) ?_) ?_
    · rintro lines _ ⟨table, rfl⟩
      rw [Achieves.get_bind_iff]
      refine sendAndRegister_validated.trans (or_congr_right (and_congr_right fun _ => ?_))
      exact ⟨fun h => ⟨h.port, h.profile, h.level, h.size⟩,
        fun h => ⟨h.port, h.profile, h.level, h.size⟩⟩
    · exact ⟨fun h => ⟨not_not.mp heq, hrow, h⟩, fun h => h.2.2⟩
  · exact iff_of_false (fun h => hrow (hasRow_of_chosenVideoLines (Achieves.bind_iff.mp h)))
      fun h => hrow h.2.1

/-! ## The choices of the sink -/

variable [CharData]

/-- The audio codecs can be read, and if there is one that the source has then `p` holds. -/
def AudioFine (params : List (JString × JString)) (p : Prop) : Prop :=
  ∀ value, Parameters.getParameter params (jstr "wfd_audio_codecs") = some value →
    if value = jstr "none" then p
    else ∃ aac lpcm, getAudioModes value (jstr "AAC") = .ok aac ∧
      getAudioModes value (jstr "LPCM") = .ok lpcm ∧ (aac.testBit 0 ∨ lpcm.testBit 1 → p)

section

variable {s : WifiDisplaySource} {Q : ℤ → WifiDisplaySource → Prop} {rest : Handler ℤ} {p : Prop}
  (hQ : ∀ err t, err ≠ OK → Q err t)
include hQ

theorem chooseAudio_bind (params : List (JString × JString))
    (hrest : ∀ mUsingPCMAudio, Achieves rest
      { s with mSinkSupportsAudio := false, mUsingPCMAudio } Q ↔ p) :
    Achieves (do
      let err ← chooseAudio params
      if err ≠ OK then return err
      rest) s Q ↔ AudioFine params p := by
  unfold chooseAudio AudioFine
  rw [Achieves.bind_iff]
  cases Parameters.getParameter params (jstr "wfd_audio_codecs") with
  | none => exact iff_of_true (hQ _ _ (by decide)) nofun
  | some value =>
      dsimp only
      simp only [Achieves.modify_bind_iff, Option.some.injEq, forall_eq']
      by_cases hnone : value = jstr "none"
      · rw [if_pos hnone, if_pos hnone]
        exact hrest _
      rw [if_neg hnone, if_neg hnone, achieves_call_bind]
      refine exists_congr fun aac => ?_
      rw [achieves_call_bind, ← exists_and_left]
      refine exists_congr fun lpcm => and_congr_right fun _ => and_congr_right fun _ => ?_
      rw [Achieves.ite_iff]
      by_cases haac : aac.testBit 0
      · rw [if_pos haac]
        exact (hrest _).trans ⟨fun h _ => h, fun h => h (.inl haac)⟩
      rw [if_neg haac, Achieves.ite_iff]
      by_cases hlpcm : lpcm.testBit 1
      · rw [if_pos hlpcm]
        exact (hrest _).trans ⟨fun h _ => h, fun h => h (.inr hlpcm)⟩
      · rw [if_neg hlpcm]
        exact iff_of_true (hQ _ _ (by decide)) fun h => absurd h (not_or.mpr ⟨haac, hlpcm⟩)

end

/-- What is made of the audio and sent, once there is a format. -/
def finishM3 (env : Env) (sessionID : ℤ) (params : List (JString × JString)) : Handler ℤ := do
  let err ← chooseAudio params
  if err ≠ OK then return err
  let s ← get
  if s.mSinkSupportsVideo = false ∧ s.mSinkSupportsAudio = false then return ERROR_UNSUPPORTED
  sendM4 env sessionID

section

variable {env : Env} {sessionID : ℤ} {params : List (JString × JString)} {s : WifiDisplaySource}

theorem finishM3_validated (hformat : HasFormat s) :
    Achieves (finishM3 env sessionID params) s (Validated s.effects sessionID) ↔
      AudioFine params (CanSendM4 sessionID s) := by
  refine chooseAudio_bind (fun _ _ => Or.inl) params fun mUsingPCMAudio => ?_
  rw [Achieves.get_bind_iff, if_neg fun h => absurd h.1 (by rw [hformat.video]; decide)]
  have hformat' : HasFormat { s with mSinkSupportsAudio := false, mUsingPCMAudio } :=
    ⟨hformat.video, hformat.profile, hformat.level, hformat.profileType, hformat.levelType⟩
  refine (sendM4_validated hformat').trans ?_
  refine and_congr_right fun _ => and_congr_right fun _ => or_congr_right ?_
  exact and_congr_right fun _ => ⟨fun h => ⟨h.port, h.profile, h.level, h.size⟩,
    fun h => ⟨h.port, h.profile, h.level, h.size⟩⟩

/-- Without video nothing is sent. -/
theorem finishM3_validated_of_noVideo (hvideo : s.mSinkSupportsVideo = false) :
    Achieves (finishM3 env sessionID params) s (Validated s.effects sessionID) ↔
      AudioFine params True := by
  refine chooseAudio_bind (fun _ _ => Or.inl) params fun mUsingPCMAudio => ?_
  rw [Achieves.get_bind_iff, if_pos ⟨hvideo, rfl⟩]
  exact iff_true_intro (Or.inl (by decide))

/-- M4 goes to the client, and if the session is still there then `p` holds. -/
def Ready (s : WifiDisplaySource) (sessionID : ℤ) (p : Prop) : Prop :=
  sessionID = s.mClientSessionID ∧ (s.mNetSession sessionID = none ∨ s.CanSend sessionID ∧ p)

/-- The numbers of a custom format are in range, and M4 can be sent with them. -/
def CustomFine (s : WifiDisplaySource) (sessionID : ℤ) (params : List (JString × JString))
    (hasPort : Prop) (width height framesPerSecond profile level : JString) : Prop :=
  ∃ w h fps p l : ℤ, parseInt width = .ok w ∧ parseInt height = .ok h ∧
    parseInt framesPerSecond = .ok fps ∧ parseInt profile = .ok p ∧ (0 ≤ p ∧ p < 2) ∧
    parseInt level = .ok l ∧ (0 ≤ l ∧ l < 5) ∧
    AudioFine params (HasRow s ∧ Ready s sessionID (hasPort ∧ 0 < w ∧ 0 < h ∧ 0 < fps))

omit [CharData] in
theorem valueOf_eq_ok {α : Type} {values : List α} {index : ℤ} :
    (∃ value, valueOf values index = .ok value) ↔ 0 ≤ index ∧ index < values.length := by
  unfold valueOf
  by_cases hneg : index < 0
  · rw [if_pos hneg]
    exact iff_of_false nofun (by omega)
  rw [if_neg hneg]
  by_cases hlt : index < values.length
  · rw [List.getElem?_eq_getElem (by omega)]
    exact iff_of_true ⟨_, rfl⟩ (by omega)
  · rw [List.getElem?_eq_none (by omega)]
    exact iff_of_false nofun (by omega)

omit [CharData] in
theorem canSendM4_iff {t : WifiDisplaySource} (hformat : HasFormat t) :
    CanSendM4 sessionID t ↔ HasRow t ∧ Ready t sessionID
      ((1 ≤ t.mChosenRTPPort ∧ t.mChosenRTPPort ≤ 65535) ∧ 0 < t.mChosenVideoConfig.width ∧
        0 < t.mChosenVideoConfig.height ∧ 0 < t.mChosenVideoConfig.framesPerSecond) := by
  have hcomplete : Complete t ↔ (1 ≤ t.mChosenRTPPort ∧ t.mChosenRTPPort ≤ 65535) ∧
      0 < t.mChosenVideoConfig.width ∧ 0 < t.mChosenVideoConfig.height ∧
        0 < t.mChosenVideoConfig.framesPerSecond :=
    ⟨fun h => ⟨h.port, h.size hformat.video⟩,
      fun h => ⟨h.1, hformat.profile, hformat.level, fun _ => h.2⟩⟩
  rw [CanSendM4, Ready, hcomplete]
  exact and_left_comm

/-- With a resolution of the table only the port can be missing. -/
theorem finishM3_ready {t : WifiDisplaySource} {hasPort : Prop} (hformat : HasFormat t)
    (hrow : HasRow t) (hport : 1 ≤ t.mChosenRTPPort ∧ t.mChosenRTPPort ≤ 65535 ↔ hasPort)
    (hsize : 0 < t.mChosenVideoConfig.width ∧ 0 < t.mChosenVideoConfig.height ∧
      0 < t.mChosenVideoConfig.framesPerSecond) :
    Achieves (finishM3 env sessionID params) t (Validated t.effects sessionID) ↔
      AudioFine params (Ready t sessionID hasPort) := by
  have hsend : CanSendM4 sessionID t ↔ Ready t sessionID hasPort := by
    rw [canSendM4_iff hformat, and_iff_right hrow, and_iff_left hsize, hport]
  rw [finishM3_validated hformat, propext hsend]

/-- A custom format that the sink has chosen. -/
def customize (s : WifiDisplaySource) (width height framesPerSecond : ℤ)
    (profile : VideoFormats.ProfileType) (level : VideoFormats.LevelType) : WifiDisplaySource :=
  { s with
    mSinkSupportsVideo := true
    mChosenVideoProfile := some profile
    mChosenVideoLevel := some level
    mChosenVideoConfig := ⟨width, height, framesPerSecond, s.mChosenVideoConfig.interlaced,
      some profile, some level⟩ }

omit [CharData] in
theorem hasFormat_customize (s : WifiDisplaySource) (width height framesPerSecond : ℤ)
    (profile : VideoFormats.ProfileType) (level : VideoFormats.LevelType) :
    HasFormat (customize s width height framesPerSecond profile level) :=
  ⟨rfl, Option.some_ne_none _, Option.some_ne_none _, Option.some_ne_none _,
    Option.some_ne_none _⟩

theorem customFormat_validated {width height framesPerSecond profile level : JString}
    {hasPort : Prop} (hport : 1 ≤ s.mChosenRTPPort ∧ s.mChosenRTPPort ≤ 65535 ↔ hasPort) :
    Achieves (chooseCustomFormat width height framesPerSecond profile level >>= fun _ =>
      finishM3 env sessionID params) s (Validated s.effects sessionID) ↔
        CustomFine s sessionID params hasPort width height framesPerSecond profile level := by
  have hfinish : ∀ w h fps p l, Achieves (finishM3 env sessionID params)
      (customize s w h fps p l) (Validated s.effects sessionID) ↔
        AudioFine params (HasRow s ∧ Ready s sessionID (hasPort ∧ 0 < w ∧ 0 < h ∧ 0 < fps)) := by
    intro w h fps p l
    rw [← hport]
    exact (finishM3_validated (hasFormat_customize s w h fps p l)).trans
      (iff_of_eq (congrArg _ (propext (canSendM4_iff (hasFormat_customize s w h fps p l)))))
  unfold chooseCustomFormat modifyConfig CustomFine
  simp only [bind_assoc, achieves_call_bind, Achieves.modify_bind_iff]
  constructor
  · rintro ⟨w, hw, h, hh, fps, hfps, p, hp, profileType, hprofile, l, hl, levelType, hlevel, hrest⟩
    exact ⟨w, h, fps, p, l, hw, hh, hfps, hp, valueOf_eq_ok.mp ⟨_, hprofile⟩, hl,
      valueOf_eq_ok.mp ⟨_, hlevel⟩, (hfinish w h fps profileType levelType).mp hrest⟩
  · rintro ⟨w, h, fps, p, l, hw, hh, hfps, hp, hprofile, hl, hlevel, hrest⟩
    obtain ⟨profileType, hprofile⟩ :=
      (@valueOf_eq_ok _ VideoFormats.ProfileType.values p).mpr hprofile
    obtain ⟨levelType, hlevel⟩ := (@valueOf_eq_ok _ VideoFormats.LevelType.values l).mpr hlevel
    exact ⟨w, hw, h, hh, fps, hfps, p, hp, profileType, hprofile, l, hl, levelType, hlevel,
      (hfinish w h fps profileType levelType).mpr hrest⟩

theorem achieves_parseFormatSpec_bind {β : Type} {value : JString} {f : Bool → Handler β}
    {Q : β → WifiDisplaySource → Prop} :
    Achieves (parseFormatSpec value >>= f) s Q ↔ ∃ formats parsed,
      VideoFormats.parseFormatSpec ⟨s.table, s.mSupportedSinkVideoFormats⟩ value =
        (formats, .ok parsed) ∧
      Achieves (f parsed)
        { s with table := formats.table, mSupportedSinkVideoFormats := formats.this } Q := by
  rw [Achieves.bind_iff, parseFormatSpec, Achieves.get_bind_iff]
  cases VideoFormats.parseFormatSpec ⟨s.table, s.mSupportedSinkVideoFormats⟩ value with
  | mk formats result =>
      dsimp only
      rw [Achieves.modify_bind_iff, achieves_call]
      constructor
      · rintro ⟨parsed, rfl, h⟩
        exact ⟨formats, parsed, rfl, h⟩
      · rintro ⟨_, parsed, ⟨⟩, h⟩
        exact ⟨parsed, rfl, h⟩

/-- The hexadecimal digits make up a number below `bound`. -/
def IsHexBelow (bound : ℕ) (digits : JString) : Prop := ∃ n, parseHex bound digits = .ok n

/-- If a codec is found its numbers can be read. -/
def CodecFine (text : JString) : Prop :=
  ∀ profile level cea vesa hh,
    VideoFormats.find [2, 2, 8, 8, 8] text = some [profile, level, cea, vesa, hh] →
      IsHexBelow (2 ^ 31) profile ∧ IsHexBelow (2 ^ 31) level ∧ IsHexBelow (2 ^ 32) cea ∧
        IsHexBelow (2 ^ 32) vesa ∧ IsHexBelow (2 ^ 32) hh

/-- If the text starts like a specification it is long enough for one and its numbers can be
read. -/
def SpecFine (value : JString) : Prop :=
  ∀ native preferred, VideoFormats.findNative value = some (native, preferred) →
    (IsHexBelow (2 ^ 31) native ∧ IsHexBelow (2 ^ 31) preferred ∧ 64 ≤ value.length) ∧
      ∀ i, 60 * i < (value.drop 6).length → CodecFine ((value.drop 6).drop (60 * i))

theorem readCodec_eq_ok {text : JString} :
    (∃ codec, VideoFormats.readCodec text = .ok codec) ↔ CodecFine text := by
  unfold VideoFormats.readCodec CodecFine
  split
  · rename_i profile level cea vesa hh hfind
    simp only [hfind, Option.some.injEq, List.cons.injEq, and_true, bind_eq_ok, IsHexBelow]
    constructor
    · rintro ⟨codec, p, hp, l, hl, c, hc, v, hv, h, hh', -⟩ _ _ _ _ _ ⟨rfl, rfl, rfl, rfl, rfl⟩
      exact ⟨⟨p, hp⟩, ⟨l, hl⟩, ⟨c, hc⟩, ⟨v, hv⟩, ⟨h, hh'⟩⟩
    · intro h
      obtain ⟨⟨p, hp⟩, ⟨l, hl⟩, ⟨c, hc⟩, ⟨v, hv⟩, ⟨h, hh'⟩⟩ := h _ _ _ _ _ ⟨rfl, rfl, rfl, rfl, rfl⟩
      exact ⟨_, p, hp, l, hl, c, hc, v, hv, h, hh', rfl⟩
  · rename_i hother
    exact iff_of_true ⟨_, rfl⟩ fun _ _ _ _ _ hfind => absurd hfind (hother _ _ _ _ _)

theorem codecsResult_eq_ok {text : JString} :
    Video.codecsResult text = .ok () ↔
      ∀ i, 60 * i < text.length → CodecFine (text.drop (60 * i)) := by
  induction text using Video.codecsResult.induct with
  | case1 =>
      rw [Video.codecsResult_nil]
      exact iff_of_true rfl fun i hi => absurd hi (Nat.not_lt_zero _)
  | case2 text hne codec hread ih =>
      have hlength := List.length_pos_iff.mpr hne
      rw [(Video.readCodecs_cons hne hread).2, ih]
      simp only [List.drop_drop, List.length_drop]
      constructor
      · intro h i hi
        cases i with
        | zero => exact readCodec_eq_ok.mp ⟨codec, hread⟩
        | succ i =>
            rw [Nat.mul_add, Nat.add_comm]
            exact h i (by omega)
      · intro h i hi
        have hfine := h (i + 1) (by omega)
        rwa [Nat.mul_add, Nat.add_comm] at hfine
  | case3 text hne e hread =>
      have hlength := List.length_pos_iff.mpr hne
      rw [Video.codecsResult, if_neg hne, hread]
      refine iff_of_false (fun h => by cases h) fun h => ?_
      obtain ⟨codec, hok⟩ := readCodec_eq_ok.mpr (h 0 hlength)
      rw [List.drop_zero] at hok
      cases hread.symm.trans hok

theorem parseNative_eq_ok {native preferred value : JString} :
    (∃ n, VideoFormats.parseNative native preferred value = .ok n) ↔
      IsHexBelow (2 ^ 31) native ∧ IsHexBelow (2 ^ 31) preferred ∧ 64 ≤ value.length := by
  simp only [VideoFormats.parseNative, bind_eq_ok, IsHexBelow]
  constructor
  · rintro ⟨_, n, hn, p, hp, hlength⟩
    refine ⟨⟨n, hn⟩, ⟨p, hp⟩, ?_⟩
    split at hlength
    · cases hlength
    · omega
  · rintro ⟨⟨n, hn⟩, ⟨p, hp⟩, hlength⟩
    exact ⟨n, n, hn, p, hp, if_neg (by omega)⟩

theorem specFine_iff {native preferred value : JString}
    (h : VideoFormats.findNative value = some (native, preferred)) :
    SpecFine value ↔ (∃ n, VideoFormats.parseNative native preferred value = .ok n) ∧
      Video.codecsResult (value.drop 6) = .ok () := by
  rw [parseNative_eq_ok, codecsResult_eq_ok]
  constructor
  · exact fun hfine => hfine native preferred h
  · intro hfine native' preferred' h'
    cases h.symm.trans h'
    exact hfine

theorem parseFormatSpec_eq_ok {formats : VideoFormats.State} {value : JString} :
    (∃ formats' parsed, VideoFormats.parseFormatSpec formats value = (formats', .ok parsed)) ↔
      SpecFine value := by
  unfold VideoFormats.parseFormatSpec
  cases hfound : VideoFormats.findNative value with
  | none => exact iff_of_true ⟨_, _, rfl⟩ fun _ _ h => by cases hfound.symm.trans h
  | some groups =>
      obtain ⟨native, preferred⟩ := groups
      rw [specFine_iff hfound]
      dsimp only
      cases VideoFormats.parseNative native preferred value with
      | error e => exact iff_of_false (by rintro ⟨_, _, ⟨⟩⟩) (by rintro ⟨⟨_, ⟨⟩⟩, -⟩)
      | ok nativeInfo =>
          dsimp only
          rw [Video.parseCodecs_eq, and_iff_right ⟨_, rfl⟩]
          cases Video.codecsResult (value.drop 6) with
          | error e => exact iff_of_false (by rintro ⟨_, _, ⟨⟩⟩) (by rintro ⟨⟩)
          | ok _ => exact iff_of_true ⟨_, _, rfl⟩ rfl

/-- The specification is read, and source and sink have a resolution in common. -/
def SharesResolution (s : WifiDisplaySource) (value : JString) : Prop :=
  ∃ formats, VideoFormats.parseFormatSpec ⟨s.table, s.mSupportedSinkVideoFormats⟩ value =
    (formats, .ok true) ∧
    VideoFormats.bestResolution formats.this s.mSupportedSourceVideoFormats ≠ none

theorem videoFormat_validated {value : JString} {hasPort : Prop}
    (hport : 1 ≤ s.mChosenRTPPort ∧ s.mChosenRTPPort ≤ 65535 ↔ hasPort) :
    Achieves (chooseVideoFormat value >>= fun err =>
      if err ≠ OK then return err else finishM3 env sessionID params) s
        (Validated s.effects sessionID) ↔
      SpecFine value ∧
        (SharesResolution s value → AudioFine params (Ready s sessionID hasPort)) := by
  unfold chooseVideoFormat SharesResolution
  rw [bind_assoc, Achieves.modify_bind_iff, bind_assoc, achieves_parseFormatSpec_bind,
    ← @parseFormatSpec_eq_ok _ ⟨s.table, s.mSupportedSinkVideoFormats⟩]
  cases VideoFormats.parseFormatSpec ⟨s.table, s.mSupportedSinkVideoFormats⟩ value with
  | mk formats result =>
  cases result with
  | error e => exact iff_of_false (by rintro ⟨_, _, ⟨⟩, -⟩) (by rintro ⟨⟨_, _, ⟨⟩⟩, -⟩)
  | ok parsed =>
      rw [and_iff_right ⟨_, _, rfl⟩]
      simp only [Except.ok.injEq, Prod.mk.injEq, and_assoc, exists_and_left, exists_eq_left']
      cases parsed with
      | false => exact iff_of_true (Or.inl (by decide)) nofun
      | true =>
          rw [and_iff_right rfl, if_neg (Bool.false_ne_true ∘ Eq.symm), bind_assoc,
            Achieves.get_bind_iff, bind_assoc, achieves_call_bind]
          simp only [Video.pickBestFormat_ok, Except.ok.injEq, exists_eq_left']
          cases hbest : VideoFormats.bestResolution formats.this s.mSupportedSourceVideoFormats with
          | none => exact iff_of_true (Or.inl (by decide)) fun h => absurd rfl h
          | some best =>
              obtain ⟨score, type, index⟩ := best
              have hrow := Video.row_of_bestResolution hbest
              obtain ⟨fc, hfc⟩ := Option.isSome_iff_exists.mp hrow
              rw [forall_prop_of_true (Option.some_ne_none _)]
              have hconfiguration : VideoFormats.getConfiguration type index = .ok (some fc) := by
                have hlt := Video.lt_of_row hfc
                rw [VideoFormats.getConfiguration, if_neg (by omega), if_neg (by omega),
                  Int.toNat_natCast, hfc]
              rw [Video.chosen]
              dsimp only
              rw [bind_assoc, Achieves.modify_bind_iff, bind_assoc, achieves_call_bind]
              simp only [hconfiguration, Except.ok.injEq, exists_eq_left']
              rw [bind_assoc, Achieves.modify_bind_iff, Achieves.pure_bind_iff,
                if_neg (not_not.mpr rfl)]
              obtain ⟨hwidth, hheight, hrate⟩ := Video.size_pos type fc (List.mem_of_getElem? hfc)
              refine finishM3_ready ⟨rfl, Option.some_ne_none _, Option.some_ne_none _,
                Option.some_ne_none _, Option.some_ne_none _⟩
                (Video.checkConfiguration_of_row hrow) hport ?_
              exact ⟨Int.natCast_pos.mpr hwidth, Int.natCast_pos.mpr hheight,
                Int.natCast_pos.mpr hrate⟩

/-- What the choice of a format has to be for the rest to be fine. -/
def FormatsFine (s : WifiDisplaySource) (sessionID : ℤ) (params : List (JString × JString))
    (hasPort : Prop) : Prop :=
  match (Parameters.getParameter params (jstr "custom_video_formats")).bind matchCustomFormat with
  | some [width, height, framesPerSecond, profile, level] =>
      CustomFine s sessionID params hasPort width height framesPerSecond profile level
  | _ => ∀ value, Parameters.getParameter params (jstr "wfd_video_formats") = some value →
      if value = jstr "none" then AudioFine params True
      else SpecFine value ∧
        (SharesResolution s value → AudioFine params (Ready s sessionID hasPort))

theorem formats_validated {hasPort : Prop} (hvideo : s.mSinkSupportsVideo = false)
    (hport : 1 ≤ s.mChosenRTPPort ∧ s.mChosenRTPPort ≤ 65535 ↔ hasPort) :
    Achieves (chooseVideo params >>= fun err =>
      if err ≠ OK then return err else finishM3 env sessionID params) s
        (Validated s.effects sessionID) ↔ FormatsFine s sessionID params hasPort := by
  unfold chooseVideo
  split
  · rename_i hcustom
    rw [bind_assoc, FormatsFine, hcustom]
    exact customFormat_validated hport
  · rename_i hother
    have hfine : FormatsFine s sessionID params hasPort ↔
        ∀ value, Parameters.getParameter params (jstr "wfd_video_formats") = some value →
          if value = jstr "none" then AudioFine params True
          else SpecFine value ∧
            (SharesResolution s value → AudioFine params (Ready s sessionID hasPort)) := by
      unfold FormatsFine
      split
      · rename_i hcustom
        exact absurd hcustom (hother _ _ _ _ _)
      · rfl
    rw [hfine]
    cases Parameters.getParameter params (jstr "wfd_video_formats") with
    | none => exact iff_of_true (Or.inl (by decide)) fun _ h => by cases h
    | some value =>
        simp only [Option.some.injEq, forall_eq']
        by_cases hnone : value = jstr "none"
        · rw [if_pos hnone, if_pos hnone]
          exact finishM3_validated_of_noVideo hvideo
        · rw [if_neg hnone, if_neg hnone]
          exact videoFormat_validated hport

/-! ## The response -/

/-- A run of digits does not start with a sign. -/
theorem head_of_takeDigits {text group rest : JString} (h : takeDigits text = some (group, rest)) :
    group.head? ≠ some 45 := by
  unfold takeDigits at h
  split at h
  · cases h
  · rename_i hpos
    cases h
    intro hhead
    rw [List.head?_take, if_neg hpos] at hhead
    obtain ⟨text, rfl⟩ := List.head?_eq_some_iff.mp hhead
    have hsign : CharData.isDigit 45 = false := CharData.isDigit_ascii (by decide)
    cases text with
    | nil => exact hpos (by rw [digitsLength, hsign, if_neg Bool.false_ne_true])
    | cons d text =>
        exact hpos (by rw [digitsLength, if_neg (fun h => absurd h.1 (by decide)), hsign,
          if_neg Bool.false_ne_true])

theorem head_of_matchRtpPorts {value group1 group2 : JString}
    (h : matchRtpPorts value = some (group1, group2)) : group1.head? ≠ some 45 := by
  unfold matchRtpPorts at h
  simp only [Option.bind_eq_bind, Option.bind_eq_some_iff] at h
  obtain ⟨rest, -, ⟨port0, rest⟩, hfirst, rest, -, ⟨port1, rest⟩, -, h⟩ := h
  dsimp only at h
  split at h
  · cases h
    exact head_of_takeDigits hfirst
  · cases h

/-- What the choice of the ports has to be. -/
def PortsFine (s : WifiDisplaySource) (sessionID : ℤ) (params : List (JString × JString))
    (value : JString) : Prop :=
  match matchRtpPorts value with
  | some (group1, group2) => ∃ port0 port1 : ℤ, parseInt group1 = .ok port0 ∧
      parseInt group2 = .ok port1 ∧
      (port0 ≠ 0 ∧ port0 ≤ 65535 ∧ port1 = 0 → FormatsFine s sessionID params True)
  | none => value ≠ jstr "RTP/AVP/TCP;interleaved mode=play" →
      FormatsFine s sessionID params False

theorem ports_validated {value : JString} :
    Achieves (call (choosePort value) >>= fun choice =>
      match choice with
      | .error err => return err
      | .ok port0 => do
          modify fun s =>
            { s with mWfdClientRtpPorts := some value, mChosenRTPPort := port0,
                     mSinkSupportsVideo := false }
          let err ← chooseVideo params
          if err ≠ OK then return err
          finishM3 env sessionID params) s (Validated s.effects sessionID) ↔
      PortsFine s sessionID params value := by
  have hformats : ∀ {port0 : ℤ} {hasPort : Prop}, (1 ≤ port0 ∧ port0 ≤ 65535 ↔ hasPort) →
      (Achieves (chooseVideo params >>= fun err =>
        if err ≠ OK then return err else finishM3 env sessionID params)
        { s with mWfdClientRtpPorts := some value, mChosenRTPPort := port0,
                 mSinkSupportsVideo := false } (Validated s.effects sessionID) ↔
        FormatsFine s sessionID params hasPort) := fun hport => formats_validated rfl hport
  unfold choosePort PortsFine
  cases hmatch : matchRtpPorts value with
  | none =>
      rw [achieves_call_bind]
      simp only [Except.ok.injEq, exists_eq_left']
      by_cases hvalue : value = jstr "RTP/AVP/TCP;interleaved mode=play"
      · rw [if_pos hvalue]
        exact iff_of_true (Or.inl (by decide)) fun h => absurd hvalue h
      · rw [if_neg hvalue, forall_prop_of_true hvalue]
        exact hformats (iff_of_false (fun h => absurd h.1 (by decide)) not_false)
  | some groups =>
      obtain ⟨group1, group2⟩ := groups
      dsimp only
      rw [Achieves.bind_iff, achieves_call]
      simp only [bind_eq_ok]
      constructor
      · rintro ⟨choice, ⟨port0, hport0, port1, hport1, hchoice⟩, h⟩
        refine ⟨port0, port1, hport0, hport1, fun ⟨hzero, hlarge, hrtcp⟩ => ?_⟩
        rw [if_neg (by omega)] at hchoice
        cases hchoice
        have hnonneg := parseInt_nonneg (head_of_matchRtpPorts hmatch) hport0
        exact (hformats (iff_true_intro (by omega))).mp h
      · rintro ⟨port0, port1, hport0, hport1, hfine⟩
        refine ⟨_, ⟨port0, hport0, port1, hport1, rfl⟩, ?_⟩
        by_cases hpoor : port0 = 0 ∨ 65535 < port0 ∨ port1 ≠ 0
        · rw [if_pos hpoor]
          exact Or.inl (by decide)
        · rw [if_neg hpoor]
          have hnonneg := parseInt_nonneg (head_of_matchRtpPorts hmatch) hport0
          exact (hformats (iff_true_intro (by omega))).mpr (hfine (by omega))

/-- What a response to M3 has to be like to be refused without an exception or to be answered with
a complete M4. -/
def ResponseFine (s : WifiDisplaySource) (sessionID : ℤ) (msg : ParsedMessage) : Prop :=
  ∃ statusCode, msg.getStatusCode = .ok statusCode ∧
    (statusCode = 200 → ∀ params, Parameters.parse msg.mContent = some params →
      ∀ value, Parameters.getParameter params (jstr "wfd_client_rtp_ports") = some value →
        PortsFine s sessionID params value)

theorem onReceiveM3Response_validated_iff (env : Env) (sessionID : ℤ) (msg : ParsedMessage)
    (s : WifiDisplaySource) :
    Achieves (onReceiveM3Response env sessionID msg) s (Validated s.effects sessionID) ↔
      ResponseFine s sessionID msg := by
  unfold onReceiveM3Response ResponseFine
  rw [achieves_call_bind]
  refine exists_congr fun statusCode => and_congr_right fun _ => ?_
  by_cases hcode : statusCode = 200
  swap
  · have herror : ∃ err, statusError statusCode = some err ∧ err ≠ OK := by
      unfold statusError
      split
      · exact ⟨_, rfl, by decide⟩
      · exact ⟨_, rfl, by decide⟩
    obtain ⟨err, herror, herr⟩ := herror
    rw [herror]
    exact iff_of_true (Or.inl herr) fun h => absurd h hcode
  subst hcode
  rw [forall_prop_of_true rfl, show statusError 200 = none by decide]
  dsimp only
  cases Parameters.parse msg.mContent with
  | none => exact iff_of_true (Or.inl (by decide)) fun _ h => by cases h
  | some params =>
      simp only [Option.some.injEq, forall_eq']
      cases Parameters.getParameter params (jstr "wfd_client_rtp_ports") with
      | none => exact iff_of_true (Or.inl (by decide)) fun _ h => by cases h
      | some value =>
          simp only [Option.some.injEq, forall_eq']
          exact ports_validated

end

omit [CharData] in
/-- With a text for the ports that is not as expected M4 is sent with the port 0. -/
theorem response_without_port_accepted :
    ¬ ∀ s, @Reachable CharData.ascii s → ∀ env sessionID cseq msg,
      s.mResponseHandlers (sessionID, cseq) = some .onReceiveM3Response →
        Achieves (@onReceiveM3Response CharData.ascii env sessionID msg) s
          (Validated s.effects sessionID) := by
  let _ := CharData.ascii
  intro h
  let msg : ParsedMessage := ⟨[(jstr "_", jstr "RTSP/1.0 200 OK"), (jstr "cseq", jstr "2")],
    jstr ("wfd_client_rtp_ports: RTP/AVP/UDP;unicast 19000 mode=play\r\n" ++
      "custom_video_formats: 1280 720 30 1 1\r\n" ++ "wfd_audio_codecs: none\r\n"), 1⟩
  have hend : endsIn (setUpEvents.take 4) fun s =>
      decide (s.mResponseHandlers (2, 2) = some .onReceiveM3Response) &&
        match (onReceiveM3Response (quietEnv 0) 2 msg).run s with
        | (.ok err, t) => err = OK && t.mChosenRTPPort = 0
        | (.error _, _) => false := by
    decide +kernel
  obtain ⟨s, hs, hstate⟩ := exists_reachable hend
  rw [Bool.and_eq_true, decide_eq_true_eq] at hstate
  obtain ⟨hhandler, hrun⟩ := hstate
  obtain ⟨err, t, hreturns, hvalid⟩ :=
    Achieves.iff_exists.mp (h s hs (quietEnv 0) 2 2 msg hhandler)
  rw [hreturns, Bool.and_eq_true, decide_eq_true_eq, decide_eq_true_eq] at hrun
  obtain ⟨rfl, hport⟩ := hrun
  rcases hvalid with herr | hsent
  · exact herr rfl
  · exact absurd hsent.port.1 (by omega)

end MirrorCast.WifiDisplaySource
