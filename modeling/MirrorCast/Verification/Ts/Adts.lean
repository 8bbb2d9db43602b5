import MirrorCast.Library.Adts
import MirrorCast.Verification.Ts.Packetizing

/-! # The header in front of an AAC frame -/

namespace MirrorCast.Ts

open Java TSPacketizer

/-! ## The bits of the header -/

theorem first_config_byte : ∀ (c0 : UInt8) (h l : Fin 2),
    let b2 := toByte (((c0 >>> 3).toNat - 1 : ℤ) * 2 ^ 6) |||
      ((c0 &&& 7) <<< 1 ||| UInt8.ofNat h) <<< 2 ||| UInt8.ofNat l
    (b2 >>> 6).toNat = (c0.toNat / 8 + 3) % 4 ∧
      (b2 >>> 2 &&& 0x0f).toNat = c0.toNat % 8 * 2 + h ∧ (b2 &&& 1).toNat = l := by
  decide +kernel

theorem second_config_byte : ∀ c1 : UInt8,
    c1 >>> 7 = UInt8.ofNat (c1.toNat / 128) ∧
      (c1 >>> 3 &&& 0x0f) >>> 2 &&& 1 = UInt8.ofNat (c1.toNat / 8 % 16 / 4 % 2) ∧
      (c1 >>> 3 &&& 0x0f) &&& 3 = UInt8.ofNat (c1.toNat / 8 % 16 % 4) := by
  decide +kernel

theorem third_byte : ∀ (channel : Fin 4) (high : UInt8),
    ((UInt8.ofNat channel <<< 6 ||| high) &&& 3).toNat = high.toNat % 4 ∧
      (high.toNat < 4 → ((UInt8.ofNat channel <<< 6 ||| high) >>> 6).toNat = channel) := by
  decide +kernel

theorem last_byte : ∀ b : UInt8, (((b &&& 7) <<< 5) >>> 5).toNat = b.toNat % 8 := by
  decide +kernel

/-! ## The header as a whole -/

/-- What the header decodes to; its channels are right if the length does not spill over. -/
theorem parse_adtsHeader (c0 c1 : UInt8) (length : ℕ) (unit : List UInt8) :
    ∃ header, Adts.parse (Track.adtsHeader c0 c1 length ++ unit) = some (header, unit) ∧
      header.profile = (c0.toNat / 8 + 3) % 4 ∧
      header.samplingFrequencyIndex = (Adts.Config.ofBytes c0 c1).samplingFrequencyIndex ∧
      header.frameLength = length % 2 ^ 13 ∧
      (length < 2 ^ 13 → header.channelConfiguration =
        (Adts.Config.ofBytes c0 c1).channelConfiguration % 8) := by
  obtain ⟨hindex, hhigh, hlow⟩ := second_config_byte c1
  have hbyte := c1.toNat_lt
  have hindexLt : c1.toNat / 128 < 2 := by omega
  have hhighLt : c1.toNat / 8 % 16 / 4 % 2 < 2 := Nat.mod_lt _ (by decide)
  have hlowLt : c1.toNat / 8 % 16 % 4 < 4 := Nat.mod_lt _ (by decide)
  obtain ⟨hprofile, hfrequency, hfirst⟩ :=
    first_config_byte c0 ⟨_, hindexLt⟩ ⟨_, hhighLt⟩
  obtain ⟨htop, hrest⟩ :=
    third_byte ⟨_, hlowLt⟩ (toByte (length / 2 ^ 11 : ℕ))
  have hguard : ¬ ((0xff : UInt8) ≠ 0xff ∨ (0xf9 : UInt8) &&& 0xf7 ≠ 0xf1) := by decide
  have hlength : (toByte (length / 2 ^ 11 : ℕ)).toNat % 4 * 2 ^ 11 +
      (toByte (length / 2 ^ 3 : ℕ)).toNat * 2 ^ 3 + (toByte (length : ℕ)).toNat % 8 =
        length % 2 ^ 13 := by
    rw [toNat_toByte, toNat_toByte, toNat_toByte]
    omega
  have hparse : Adts.parse (Track.adtsHeader c0 c1 length ++ unit) =
      some (⟨(c0.toNat / 8 + 3) % 4, c0.toNat % 8 * 2 + c1.toNat / 128,
        c1.toNat / 8 % 16 / 4 % 2 * 4 + ((UInt8.ofNat (c1.toNat / 8 % 16 % 4) <<< 6 |||
          toByte (length / 2 ^ 11 : ℕ)) >>> 6).toNat, length % 2 ^ 13⟩, unit) := by
    unfold Track.adtsHeader
    simp only [List.cons_append, List.nil_append, Adts.parse]
    rw [if_neg hguard, hindex, hhigh, hlow, hprofile, hfrequency, hfirst, htop, last_byte, hlength]
  refine ⟨_, hparse, rfl, rfl, rfl, fun hshort => ?_⟩
  have hchannel := hrest (by rw [toNat_toByte]; omega)
  dsimp only at hchannel ⊢
  rw [hchannel, Adts.Config.ofBytes]
  dsimp only
  omega

/-- The header describes the configuration and the frame, and the unit is behind it. -/
def DescribesFrame (c0 c1 : UInt8) (unit frame : List UInt8) : Prop :=
  ∃ header, Adts.parse frame = some (header, unit) ∧ header.frameLength = unit.length + 7 ∧
    header.samplingFrequencyIndex = (Adts.Config.ofBytes c0 c1).samplingFrequencyIndex ∧
    header.channelConfiguration = (Adts.Config.ofBytes c0 c1).channelConfiguration ∧
    header.profile + 1 = (Adts.Config.ofBytes c0 c1).objectType

theorem describesFrame_iff (c0 c1 : UInt8) (unit : List UInt8) :
    DescribesFrame c0 c1 unit (Track.adtsHeader c0 c1 (unit.length + 7) ++ unit) ↔
      unit.length + 7 < 2 ^ 13 ∧ (Adts.Config.ofBytes c0 c1).channelConfiguration < 8 ∧
        1 ≤ (Adts.Config.ofBytes c0 c1).objectType ∧
        (Adts.Config.ofBytes c0 c1).objectType ≤ 4 := by
  obtain ⟨header, hparse, hprofile, hfrequency, hlength, hchannels⟩ :=
    parse_adtsHeader c0 c1 (unit.length + 7) unit
  have hobject : (Adts.Config.ofBytes c0 c1).objectType = c0.toNat / 8 := rfl
  have hbyte := c0.toNat_lt
  constructor
  · rintro ⟨header', hparse', hlength', -, hchannels', hprofile'⟩
    rw [hparse] at hparse'
    cases hparse'
    have hshort : unit.length + 7 < 2 ^ 13 := by omega
    have hchannel := hchannels hshort
    exact ⟨hshort, by omega, by omega, by omega⟩
  · rintro ⟨hshort, hchannel, hlow, hhigh⟩
    refine ⟨header, hparse, by omega, hfrequency, ?_, by omega⟩
    rw [hchannels hshort, Nat.mod_eq_of_lt hchannel]

theorem prependADTSHeader_eq {track : Track} {c0 c1 : UInt8} {unit : List UInt8}
    (hcsd : track.mCSD = [[c0, c1]]) :
    track.prependADTSHeader unit = (do
      let dup ← newABuffer ((Track.adtsHeader c0 c1 (unit.length + 7) ++ unit).length : ℤ)
      putAt dup 0 (Track.adtsHeader c0 c1 (unit.length + 7) ++ unit)) := by
  have hseven : (Track.adtsHeader c0 c1 (unit.length + 7) ++ unit).length = unit.length + 7 := by
    rw [List.length_append, Nat.add_comm]
    rfl
  rw [Track.prependADTSHeader, hcsd, hseven]

/-- A frame whose length is no `int` is refused, and every other one gets its header. -/
theorem prependADTSHeader_cases {track : Track} {c0 c1 : UInt8} (unit : List UInt8)
    (hcsd : track.mCSD = [[c0, c1]]) :
    unit.length + 7 < 2 ^ 31 ∧ track.prependADTSHeader unit =
        .ok (Track.adtsHeader c0 c1 (unit.length + 7) ++ unit) ∨
      2 ^ 31 ≤ unit.length + 7 ∧ ∃ e, track.prependADTSHeader unit = .error e := by
  have hseven : (Track.adtsHeader c0 c1 (unit.length + 7) ++ unit).length = unit.length + 7 := by
    rw [List.length_append, Nat.add_comm]
    rfl
  rw [prependADTSHeader_eq hcsd]
  by_cases hlength : unit.length + 7 < 2 ^ 31
  · rw [newABuffer_natCast (by omega), ok_bind, putAt_replicate]
    exact Or.inl ⟨hlength, rfl⟩
  · refine Or.inr ⟨Nat.le_of_not_lt hlength, ?_⟩
    generalize hcall : (do
      let dup ← newABuffer ((Track.adtsHeader c0 c1 (unit.length + 7) ++ unit).length : ℤ)
      putAt dup 0 (Track.adtsHeader c0 c1 (unit.length + 7) ++ unit)) = result
    cases result with
    | error e => exact ⟨e, rfl⟩
    | ok frame =>
        obtain ⟨dup, hdup, hput⟩ := bind_eq_ok.mp hcall
        have hfits := (putAt_eq_ok.mp hput).1
        have hshort := length_replicate_int32
          ((Track.adtsHeader c0 c1 (unit.length + 7) ++ unit).length : ℤ)
        rw [← newABuffer_eq_ok hdup] at hshort
        omega

/-- The header is refused or describes the frame exactly if the frame is too long for an `int`, or
its length has 13 bits, the channel configuration three, and the object type is 1 to 4. -/
theorem adtsHeader_describes_iff {track : Track} {c0 c1 : UInt8} (unit : List UInt8)
    (hcsd : track.mCSD = [[c0, c1]]) :
    ((∃ e, track.prependADTSHeader unit = .error e) ∨
        ∃ frame, track.prependADTSHeader unit = .ok frame ∧ DescribesFrame c0 c1 unit frame) ↔
      2 ^ 31 ≤ unit.length + 7 ∨
        unit.length + 7 < 2 ^ 13 ∧ (Adts.Config.ofBytes c0 c1).channelConfiguration < 8 ∧
          1 ≤ (Adts.Config.ofBytes c0 c1).objectType ∧
          (Adts.Config.ofBytes c0 c1).objectType ≤ 4 := by
  rcases prependADTSHeader_cases unit hcsd with ⟨hlength, hok⟩ | ⟨hlength, e, herror⟩
  · rw [hok, ← describesFrame_iff]
    constructor
    · rintro (⟨e, he⟩ | ⟨frame, hframe, hdescribes⟩)
      · cases he
      · cases hframe
        exact Or.inr hdescribes
    · rintro (hlong | hdescribes)
      · omega
      · exact Or.inr ⟨_, rfl, hdescribes⟩
  · rw [herror]
    exact ⟨fun _ => Or.inl hlength, fun _ => Or.inl ⟨e, rfl⟩⟩

/-! ## A frame of 8192 bytes -/

/-- A track with the configuration of AAC-LC with 48 kHz and two channels. -/
def aacTrack : Track :=
  { Track.new ⟨some MIMETYPE_AUDIO_AAC, [[0x11, 0x90]], none, none, none⟩ 0x1100 0x0f 0xc0 with
    mCSD := [[0x11, 0x90]] }

theorem adtsHeader_describes_fails : ¬ ∀ (track : Track) (c0 c1 : UInt8) (unit : List UInt8),
    track.mCSD = [[c0, c1]] → (∃ e, track.prependADTSHeader unit = .error e) ∨
      ∃ frame, track.prependADTSHeader unit = .ok frame ∧ DescribesFrame c0 c1 unit frame := by
  intro h
  have hlength : (List.replicate 8185 (0 : UInt8)).length = 8185 := List.length_replicate
  have hcsd : aacTrack.mCSD = [[0x11, 0x90]] := rfl
  rcases prependADTSHeader_cases (List.replicate 8185 0) hcsd with
    ⟨-, hok⟩ | ⟨hlong, -⟩
  · rcases h aacTrack 0x11 0x90 (List.replicate 8185 0) rfl with ⟨e, herror⟩ | ⟨frame, hframe, hd⟩
    · rw [hok] at herror
      cases herror
    · rw [hok] at hframe
      cases hframe
      have hshort := ((describesFrame_iff 0x11 0x90 (List.replicate 8185 0)).mp hd).1
      omega
  · omega

theorem adtsHeader_describes_twoBytes :
    (∃ e, aacTrack.prependADTSHeader [1, 2] = .error e) ∨
      ∃ frame, aacTrack.prependADTSHeader [1, 2] = .ok frame ∧
        DescribesFrame 0x11 0x90 [1, 2] frame :=
  (adtsHeader_describes_iff [1, 2] rfl).mpr (Or.inr (by decide))

end MirrorCast.Ts
