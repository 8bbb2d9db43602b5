import MirrorCast.Library.MpegTs
import MirrorCast.Program.TSPacketizer

/-! # What the packet and PES headers decode to -/

namespace MirrorCast.Ts

open Java MpegTs TSPacketizer

/-! ## Packets -/

theorem pid_bits (x : UInt8) : x < 32 →
    (((0x40 ||| x) &&& 0x40 != 0) = true ∧ ((0x00 ||| x) &&& 0x40 != 0) = false) ∧
      (0x40 ||| x) &&& 0x1f = x ∧ (0x00 ||| x) &&& 0x1f = x := by
  revert x
  decide +kernel

theorem counter_bits (c : UInt8) : c < 16 →
    ((0x30 ||| c) >>> 4 &&& 3 = 3 ∧ (0x10 ||| c) >>> 4 &&& 3 = 1) ∧
      (0x30 ||| c) &&& 0x0f = c ∧ (0x10 ||| c) &&& 0x0f = c := by
  revert c
  decide +kernel

/-- The first byte behind the sync byte, at the start of a unit or inside it. -/
def startByte (unitStart : Bool) : UInt8 := if unitStart then 0x40 else 0x00

theorem length_tsPacket (start : UInt8) (PID continuityCounter : ℕ) {numPaddingBytes : ℕ}
    {payload : List UInt8} (h : numPaddingBytes + payload.length = 184) :
    (tsPacket start PID continuityCounter numPaddingBytes payload).length = 188 := by
  unfold tsPacket
  split_ifs <;>
    simp only [List.length_append, List.length_cons, List.length_nil, List.length_replicate] <;>
    omega

/-- The payload is what lies behind the adaptation field. -/
theorem parsePayload_tsPacket {numPaddingBytes : ℕ} (payload : List UInt8) {c : UInt8}
    (hc : c < 16) (hpadding : numPaddingBytes ≤ 184) :
    parsePayload (((if 0 < numPaddingBytes then (0x30 : UInt8) else 0x10) ||| c) >>> 4 &&& 3)
      ((if 0 < numPaddingBytes then
        toByte (numPaddingBytes - 1 : ℕ) ::
          if 2 ≤ numPaddingBytes then 0x00 :: List.replicate (numPaddingBytes - 2) 0xff else []
        else []) ++ payload) = some payload := by
  obtain ⟨⟨hboth, hpayload⟩, -⟩ := counter_bits c hc
  by_cases hpos : 0 < numPaddingBytes
  · have hlength : (toByte (numPaddingBytes - 1 : ℕ)).toNat = numPaddingBytes - 1 := by
      rw [toNat_toByte]
      omega
    have hfield : (if 2 ≤ numPaddingBytes then
        (0x00 : UInt8) :: List.replicate (numPaddingBytes - 2) 0xff else []).length =
          numPaddingBytes - 1 := by
      split_ifs
      · rw [List.length_cons, List.length_replicate]
        omega
      · rw [List.length_nil]
        omega
    rw [if_pos hpos, if_pos hpos, hboth, List.cons_append]
    simp only [parsePayload, hlength, List.length_append, hfield]
    rw [if_neg (by decide), if_pos (by decide), if_neg (by omega), if_pos trivial,
      List.drop_left' hfield]
  · rw [if_neg hpos, if_neg hpos, hpayload, List.nil_append]
    rfl

theorem parse_tsPacket (unitStart : Bool) {PID continuityCounter numPaddingBytes : ℕ}
    {payload : List UInt8} (hPID : PID < 2 ^ 13) (hcounter : continuityCounter < 16)
    (h : numPaddingBytes + payload.length = 184) :
    parse (tsPacket (startByte unitStart) PID continuityCounter numPaddingBytes payload) =
      some ⟨unitStart, PID, continuityCounter, payload⟩ := by
  have hlength := length_tsPacket (startByte unitStart) PID continuityCounter h
  have hhigh : toByte (PID / 2 ^ 8 : ℕ) < 32 := by
    rw [UInt8.lt_iff_toNat_lt, toNat_toByte]
    simp only [UInt8.toNat_ofNat]
    omega
  have hlow : toByte (continuityCounter : ℕ) < 16 := by
    rw [UInt8.lt_iff_toNat_lt, toNat_toByte]
    simp only [UInt8.toNat_ofNat]
    omega
  have hpayload := parsePayload_tsPacket payload hlow
    (show numPaddingBytes ≤ 184 by omega)
  have hpid := pid_bits _ hhigh
  have hbits := counter_bits _ hlow
  have hstart : ((startByte unitStart ||| toByte (PID / 2 ^ 8 : ℕ)) &&& 0x40 != 0) = unitStart ∧
      (startByte unitStart ||| toByte (PID / 2 ^ 8 : ℕ)) &&& 0x1f = toByte (PID / 2 ^ 8 : ℕ) := by
    cases unitStart
    · exact ⟨hpid.1.2, hpid.2.2⟩
    · exact ⟨hpid.1.1, hpid.2.1⟩
  have hcc : ((if 0 < numPaddingBytes then (0x30 : UInt8) else 0x10) |||
      toByte (continuityCounter : ℕ)) &&& 0x0f = toByte (continuityCounter : ℕ) := by
    split_ifs
    · exact hbits.2.1
    · exact hbits.2.2
  unfold tsPacket at hlength ⊢
  simp only [List.cons_append, List.nil_append] at hlength ⊢
  simp only [parse, hlength, hpayload]
  rw [if_neg (by decide), Option.map_some, hstart.1, hstart.2, hcc, toNat_toByte, toNat_toByte,
    toNat_toByte]
  congr 2
  · omega
  · omega

/-! ## PES headers -/

theorem header_flags_bits : (0x84 : UInt8) &&& 0xc0 = 0x80 ∧ (0x81 : UInt8) &&& 0x80 ≠ 0 ∧
    (0x80 : UInt8) &&& 0x80 ≠ 0 := by decide

theorem pts_bits (b : UInt8) :
    ((((0x20 : UInt8) ||| (b &&& 7) <<< 1 ||| 1) >>> 1 &&& 7).toNat = b.toNat % 8) ∧
      ((((b &&& 0x7f) <<< 1 ||| 1) >>> 1).toNat = b.toNat % 128) := by
  revert b
  decide +kernel

/-- The low 33 bits, taken apart at bits 7, 15, 22 and 30. -/
theorem pts_parts (PTS : ℤ) : PTS % 2 ^ 33 =
    PTS / 2 ^ 30 % 8 * 2 ^ 30 + PTS / 2 ^ 22 % 256 * 2 ^ 22 + PTS / 2 ^ 15 % 128 * 2 ^ 15 +
      PTS / 2 ^ 7 % 256 * 2 ^ 7 + PTS % 128 := by
  have h33 : PTS % 2 ^ 33 = PTS / 2 ^ 30 % 8 * 2 ^ 30 + PTS % 2 ^ 30 := by omega
  have h30 : PTS % 2 ^ 30 = PTS / 2 ^ 22 % 256 * 2 ^ 22 + PTS % 2 ^ 22 := by omega
  have h22 : PTS % 2 ^ 22 = PTS / 2 ^ 15 % 128 * 2 ^ 15 + PTS % 2 ^ 15 := by omega
  have h15 : PTS % 2 ^ 15 = PTS / 2 ^ 7 % 256 * 2 ^ 7 + PTS % 128 := by omega
  rw [h33, h30, h22, h15]
  ring

theorem emod_toNat_emod {x m n : ℤ} (hm : 0 < m) (hn : 0 < n) (h : n ∣ m) :
    ((x % m).toNat % n.toNat : ℕ) = (x % n).toNat := by
  have hlow : 0 ≤ x % m := Int.emod_nonneg x hm.ne'
  have hlow' : 0 ≤ x % n := Int.emod_nonneg x hn.ne'
  apply Int.ofNat_inj.mp
  rw [Int.natCast_mod, Int.toNat_of_nonneg hlow, Int.toNat_of_nonneg hn.le,
    Int.toNat_of_nonneg hlow', Int.emod_emod_of_dvd x h]

/-- The five bytes decode to the low 33 bits. -/
theorem parsePts_PTSBytes (PTS : ℤ) (rest : List UInt8) :
    parsePts (PTSBytes PTS ++ rest) = some (PTS % 2 ^ 33).toNat := by
  have h30 := (pts_bits (toByte (PTS / 2 ^ 30))).1
  have h15 := (pts_bits (toByte (PTS / 2 ^ 15))).2
  have h0 := (pts_bits (toByte PTS)).2
  rw [toNat_toByte] at h30 h15 h0
  have h8 : ((8 : ℤ).toNat : ℕ) = 8 := rfl
  have h128 : ((128 : ℤ).toNat : ℕ) = 128 := rfl
  rw [← h8, emod_toNat_emod (by decide) (by decide) (by decide)] at h30
  rw [← h128, emod_toNat_emod (by decide) (by decide) (by decide)] at h15 h0
  simp only [PTSBytes, List.cons_append, List.nil_append, parsePts, h30, h15, h0, toNat_toByte]
  rw [pts_parts]
  congr 1
  have e1 := Int.emod_nonneg (PTS / 2 ^ 30) (show (8 : ℤ) ≠ 0 by decide)
  have e2 := Int.emod_nonneg (PTS / 2 ^ 22) (show (256 : ℤ) ≠ 0 by decide)
  have e3 := Int.emod_nonneg (PTS / 2 ^ 15) (show (128 : ℤ) ≠ 0 by decide)
  have e4 := Int.emod_nonneg (PTS / 2 ^ 7) (show (256 : ℤ) ≠ 0 by decide)
  have e5 := Int.emod_nonneg PTS (show (128 : ℤ) ≠ 0 by decide)
  generalize PTS / 2 ^ 30 % 8 = x1 at *
  generalize PTS / 2 ^ 22 % 256 = x2 at *
  generalize PTS / 2 ^ 15 % 128 = x3 at *
  generalize PTS / 2 ^ 7 % 256 = x4 at *
  generalize PTS % 128 = x5 at *
  omega

/-- The private data can be read where there is any. -/
def PrivateDataFits (a : Args) : Prop :=
  0 < a.PES_private_data_len →
    ∃ bytes, a.PES_private_data = some bytes ∧ a.PES_private_data_len ≤ bytes.length

/-- `PES_packet_length` before it is cut off at 16 bits. -/
def pesLength (a : Args) (unit : List UInt8) : ℕ := unit.length + a.headerSize - 6

theorem privateBytes_eq_ok {a : Args} {bytes : List UInt8}
    (h : privateBytes a.PES_private_data a.PES_private_data_len = .ok bytes) :
    bytes.length = if 0 < a.PES_private_data_len then a.PES_private_data_len + 1 else 0 := by
  unfold privateBytes at h
  split at h
  · rename_i hpos
    rw [if_pos hpos]
    split at h
    · cases h
    · split at h
      · cases h
      · rename_i hfits
        cases h
        rw [List.length_cons, List.length_take, Nat.min_eq_left (Nat.le_of_not_lt hfits)]
  · rename_i hpos
    cases h
    rw [if_neg hpos]
    rfl

theorem exists_privateBytes {a : Args} (h : PrivateDataFits a) :
    ∃ bytes, privateBytes a.PES_private_data a.PES_private_data_len = .ok bytes := by
  unfold privateBytes
  split
  · rename_i hpos
    obtain ⟨bytes, hsome, hle⟩ := h hpos
    rw [hsome]
    exact ⟨_, if_neg (Nat.not_lt_of_le hle)⟩
  · exact ⟨_, rfl⟩

theorem pesHeader_eq_ok {track : Track} {a : Args} {unit header : List UInt8} :
    pesHeader track a unit = .ok header ↔
      (65536 ≤ pesLength a unit → track.isVideo = true) ∧
      ∃ privateData, privateBytes a.PES_private_data a.PES_private_data_len = .ok privateData ∧
        header = [0x00, 0x00, 0x01, toByte track.mStreamID,
          toByte ((if 65536 ≤ pesLength a unit then 0 else pesLength a unit) / 2 ^ 8 : ℕ),
          toByte (if 65536 ≤ pesLength a unit then 0 else pesLength a unit : ℕ), 0x84,
          if 0 < a.PES_private_data_len then 0x81 else 0x80,
          toByte (a.headerSize - 9 : ℕ)] ++ PTSBytes a.PTS ++ privateData ++
            List.replicate a.numStuffingBytes 0xff := by
  have hlength : unit.length + 8 + a.numStuffingBytes +
      (if 0 < a.PES_private_data_len then a.PES_private_data_len + 1 else 0) =
        pesLength a unit := by
    simp only [pesLength, Args.headerSize, PES_header_size]
    omega
  have hheader : 0x05 + a.numStuffingBytes +
      (if 0 < a.PES_private_data_len then a.PES_private_data_len + 1 else 0) =
        a.headerSize - 9 := by
    simp only [Args.headerSize, PES_header_size]
    omega
  simp only [pesHeader, hlength, hheader]
  by_cases hvideo : 65536 ≤ pesLength a unit → track.isVideo = true
  · rw [if_neg (by tauto), bind_eq_ok]
    constructor
    · rintro ⟨privateData, hprivate, h⟩
      exact ⟨hvideo, privateData, hprivate, (Except.ok.inj h).symm⟩
    · rintro ⟨-, privateData, hprivate, rfl⟩
      exact ⟨privateData, hprivate, rfl⟩
  · rw [if_pos (by tauto)]
    constructor
    · intro h
      cases h
    · rintro ⟨h, -⟩
      exact absurd h hvideo

/-- A PES header decodes to the values it was made from, with the unit behind it. -/
theorem parsePes_pesHeader {track : Track} {a : Args} {unit header : List UInt8}
    (hstream : track.mStreamID < 256) (hsize : a.headerSize ≤ 184)
    (h : pesHeader track a unit = .ok header) :
    header.length = a.headerSize ∧
      parsePes (header ++ unit) = some
        { streamId := track.mStreamID
          length := if 65536 ≤ pesLength a unit then 0 else pesLength a unit
          following := pesLength a unit
          pts := some (a.PTS % 2 ^ 33).toNat
          payload := unit } := by
  obtain ⟨-, privateData, hprivate, hheader⟩ := pesHeader_eq_ok.mp h
  have hprivateLength := privateBytes_eq_ok hprivate
  have hpts : (PTSBytes a.PTS).length = 5 := rfl
  have hheaderSize : 5 + privateData.length + a.numStuffingBytes = a.headerSize - 9 ∧
      14 ≤ a.headerSize := by
    simp only [hprivateLength, Args.headerSize, PES_header_size]
    omega
  have hheaderLength : (toByte (a.headerSize - 9 : ℕ)).toNat = a.headerSize - 9 := by
    rw [toNat_toByte]
    omega
  have hflags : (if 0 < a.PES_private_data_len then (0x81 : UInt8) else 0x80) &&& 0x80 ≠ 0 := by
    split_ifs
    · exact header_flags_bits.2.1
    · exact header_flags_bits.2.2
  set rest := PTSBytes a.PTS ++ privateData ++ List.replicate a.numStuffingBytes 0xff with hrest
  have hrestLength : rest.length = a.headerSize - 9 := by
    rw [hrest, List.length_append, List.length_append, hpts, List.length_replicate]
    omega
  have hdecode : parsePts rest = some (a.PTS % 2 ^ 33).toNat := by
    rw [hrest, List.append_assoc]
    exact parsePts_PTSBytes a.PTS _
  set length := if 65536 ≤ pesLength a unit then 0 else pesLength a unit with hlength
  have hlengthBytes : (toByte (length / 2 ^ 8 : ℕ)).toNat * 256 + (toByte (length : ℕ)).toNat =
      length := by
    have hlt : length < 65536 := by
      rw [hlength]
      split_ifs <;> omega
    rw [toNat_toByte, toNat_toByte]
    omega
  have hstreamByte : (toByte (track.mStreamID : ℕ)).toNat = track.mStreamID := by
    rw [toNat_toByte]
    omega
  rw [hheader, List.append_assoc, List.append_assoc, ← List.append_assoc (PTSBytes a.PTS), ← hrest]
  constructor
  · rw [List.length_append, hrestLength]
    simp only [List.length_cons, List.length_nil]
    omega
  · simp only [List.cons_append, List.nil_append, parsePes]
    rw [if_neg, hstreamByte, hlengthBytes, if_pos hflags, hheaderLength,
      List.take_left' hrestLength, List.drop_left' hrestLength, hdecode, List.length_append,
      hrestLength]
    · congr 2
      simp only [pesLength]
      omega
    · rw [hheaderLength, List.length_append, hrestLength]
      rintro (hne | hlt)
      · exact hne header_flags_bits.1
      · omega

end MirrorCast.Ts
