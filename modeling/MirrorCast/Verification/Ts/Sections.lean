import MirrorCast.Library.Psi
import MirrorCast.Verification.Ts.Continuity

/-! # The sections of the PAT and the PMT -/

namespace MirrorCast.Ts

open Java MpegTs TSPacketizer Psi

/-! ## The checksum -/

theorem and_high_ne_zero (x : BitVec 32) : x &&& 0x80000000#32 ≠ 0 ↔ x.msb = true := by
  have htwoPow : 0x80000000#32 = BitVec.twoPow 32 31 := by decide
  rw [htwoPow, BitVec.and_twoPow, BitVec.msb_eq_getLsbD_last]
  cases x.getLsbD 31 with
  | false => simp
  | true => simp

theorem CRC_TABLE_eq (i : BitVec 8) : CRC_TABLE i = Crc.table 0x04C11DB7#32 i := by
  have hshift : (fun crc : BitVec 32 =>
      (crc <<< 1) ^^^ (if crc &&& 0x80000000#32 ≠ 0 then 0x04C11DB7#32 else 0)) =
        Crc.shift 0x04C11DB7#32 := by
    funext crc
    simp only [and_high_ne_zero, Crc.shift]
  unfold CRC_TABLE Crc.table
  dsimp only
  rw [hshift]

/-- The loop over the table computes the CRC of the standard. -/
theorem crc32_eq (bytes : List UInt8) : crc32 bytes = Psi.crc bytes := by
  have hstep (crc : BitVec 32) (content : UInt8) :
      (crc <<< 8) ^^^ CRC_TABLE (((crc >>> 24) ^^^ content.toBitVec.setWidth 32).setWidth 8) =
        (Crc.bits content).foldl (Crc.bit 0x04C11DB7#32) crc := by
    rw [Crc.foldl_bits _ (by decide), Crc.tableStep, CRC_TABLE_eq, BitVec.setWidth_xor,
      BitVec.setWidth_setWidth_of_le _ (by decide), BitVec.setWidth_eq]
  unfold crc32 Psi.crc Crc.remainder
  rw [List.foldl_flatMap]
  congr 1
  funext crc content
  exact hstep crc content

theorem bits_toByte (v : BitVec 32) (j : ℕ) (hj : j < 4) :
    Crc.bits (toByte (v.toNat / 2 ^ (24 - 8 * j) : ℕ)) =
      (List.range 8).map fun i => v.getMsbD (8 * j + i) := by
  apply List.map_congr_left
  intro i hi
  rw [List.mem_range] at hi
  have hbyte : (toByte (v.toNat / 2 ^ (24 - 8 * j) : ℕ)).toBitVec.toNat =
      v.toNat / 2 ^ (24 - 8 * j) % 2 ^ 8 := by
    rw [UInt8.toNat_toBitVec, toNat_toByte]
    omega
  rw [BitVec.getMsbD_eq_getLsbD, BitVec.getMsbD_eq_getLsbD, BitVec.getLsbD, BitVec.getLsbD, hbyte,
    Nat.testBit_mod_two_pow, Nat.testBit_div_two_pow]
  simp only [hi, show 8 * j + i < 32 by omega, show 8 - 1 - i < 8 by omega, decide_true,
    Bool.true_and]
  congr 1
  omega

theorem bits_putInt (v : BitVec 32) :
    (putInt v).flatMap Crc.bits = (List.range 32).map v.getMsbD := by
  have h0 := bits_toByte v 0 (by decide)
  have h1 := bits_toByte v 1 (by decide)
  have h2 := bits_toByte v 2 (by decide)
  have h3 := bits_toByte v 3 (by decide)
  rw [Nat.mul_zero, Nat.sub_zero] at h0
  simp only [Nat.reduceMul, Nat.reduceSub, pow_zero, Nat.div_one] at h1 h2 h3
  simp only [putInt, List.flatMap_cons, List.flatMap_nil, h0, h1, h2, h3]
  rfl

/-- With its checksum behind it, the CRC of the data is zero. -/
theorem crc_withCRC (data : List UInt8) : Psi.crc (withCRC data) = 0 := by
  rw [withCRC, crc32_eq]
  exact Crc.remainder_append_self _ (bits_putInt _)

/-! ## Header fields -/

theorem length_bits (x : UInt8) : x < 16 →
    (0xb0 ||| x) &&& 0x80 ≠ 0 ∧ (0xb0 ||| x) &&& 0x0f = x ∧ (0xf0 ||| x) &&& 0x0f = x := by
  revert x
  decide +kernel

theorem reserved_bits (x : UInt8) : x < 32 → (0xe0 ||| x) &&& 0x1f = x := by
  revert x
  decide +kernel

theorem toNat_toByte_high {n : ℕ} (h : n < 2 ^ 16) :
    (toByte (n / 2 ^ 8 : ℕ)).toNat = n / 2 ^ 8 := by
  rw [toNat_toByte]
  omega

theorem toByte_high_lt {n : ℕ} (h : n < 2 ^ 12) : toByte (n / 2 ^ 8 : ℕ) < 16 := by
  rw [UInt8.lt_iff_toNat_lt, toNat_toByte_high (by omega)]
  simp only [UInt8.toNat_ofNat]
  omega

theorem high_add_low (n : ℕ) : n / 2 ^ 8 * 256 + (toByte (n : ℕ)).toNat = n := by
  rw [toNat_toByte]
  omega

theorem length12_eq {n : ℕ} (h : n < 2 ^ 12) :
    length12 (0xb0 ||| toByte (n / 2 ^ 8 : ℕ)) (toByte n) = n ∧
      length12 (0xf0 ||| toByte (n / 2 ^ 8 : ℕ)) (toByte n) = n := by
  obtain ⟨-, hsection, hinfo⟩ := length_bits _ (toByte_high_lt h)
  rw [length12, length12, hsection, hinfo, toNat_toByte_high (by omega), high_add_low]
  exact ⟨rfl, rfl⟩

theorem pid13_eq {n : ℕ} (h : n < 2 ^ 13) :
    pid13 (0xe0 ||| toByte (n / 2 ^ 8 : ℕ)) (toByte n) = n := by
  have hlt : toByte (n / 2 ^ 8 : ℕ) < 32 := by
    rw [UInt8.lt_iff_toNat_lt, toNat_toByte_high (by omega)]
    simp only [UInt8.toNat_ofNat]
    omega
  rw [pid13, reserved_bits _ hlt, toNat_toByte_high (by omega), high_add_low]

/-! ## Sections in packets -/

theorem tablePayload_cons (rest : List UInt8) :
    tablePayload (0x00 :: rest) =
      0x00 :: (rest ++ List.replicate (183 - rest.length) 0xff).take 183 := by
  have hfilled : 184 - (0x00 :: rest).length = 183 - rest.length := by
    rw [List.length_cons]
    omega
  rw [tablePayload, hfilled, List.cons_append, List.take_succ_cons]

/-- A section that fits into a packet is read out of it. -/
theorem sectionOf_table (pid counter : ℕ) {bytes : List UInt8} (h : bytes.length ≤ 183) :
    sectionOf ⟨true, pid, counter, tablePayload (0x00 :: bytes)⟩ =
      parseSection (bytes ++ List.replicate (183 - bytes.length) 0xff) := by
  rw [tablePayload_cons, List.take_of_length_le (by
    rw [List.length_append, List.length_replicate]
    omega)]
  rfl

/-- Of a longer one, only the beginning is there. -/
theorem sectionOf_longTable (pid counter : ℕ) {bytes : List UInt8}
    (h : 183 < bytes.length) :
    sectionOf ⟨true, pid, counter, tablePayload (0x00 :: bytes)⟩ =
      parseSection (bytes.take 183) := by
  rw [tablePayload_cons, List.take_append_of_le_length (by omega)]
  rfl

theorem parseSection_withCRC {tableId b1 b2 n1 n0 v1 v2 v3 : UInt8} {contents : List UInt8}
    (hindicator : b1 &&& 0x80 ≠ 0) (hlength : length12 b1 b2 = contents.length + 9)
    (rest : List UInt8) :
    parseSection (withCRC ([tableId, b1, b2, n1, n0, v1, v2, v3] ++ contents) ++ rest) =
      some ⟨tableId, n1.toNat * 256 + n0.toNat, contents⟩ :=
  parseSection_eq_some hindicator hlength rfl (crc_withCRC _)

/-! ## The PAT -/

/-- The PAT reads as one program with its map. -/
theorem parsePat_PAT (counter c : ℕ) :
    parsePat ⟨true, 0, c, tablePayload ((PAT counter).drop 4)⟩ = some [(1, PID_PMT)] := by
  have hdrop : (PAT counter).drop 4 =
      0x00 :: withCRC ([0x00, 0xb0, 0x0d, 0x00, 0x00, 0xc3, 0x00, 0x00] ++ [0x00, 0x01,
        0xe0 ||| toByte (PID_PMT / 2 ^ 8 : ℕ), toByte PID_PMT]) := rfl
  have hfits : (withCRC ([0x00, 0xb0, 0x0d, 0x00, 0x00, 0xc3, 0x00, 0x00] ++ [0x00, 0x01,
      0xe0 ||| toByte (PID_PMT / 2 ^ 8 : ℕ), toByte PID_PMT])).length ≤ 183 :=
    show 16 ≤ 183 by decide
  have hsection := sectionOf_table 0 c hfits
  rw [parseSection_withCRC (by decide) (by decide)] at hsection
  rw [parsePat, if_neg (by simp), hdrop, hsection]
  rfl

/-! ## Descriptors and streams -/

/-- A descriptor as the code keeps it: tag, length and data. -/
def descriptorOf : List UInt8 → Descriptor
  | tag :: _ :: data => ⟨tag, data⟩
  | _ => ⟨0, []⟩

/-- What the PMT says about a track. -/
def streamOf (t : Track) : Stream :=
  ⟨t.mStreamType, t.mPID, t.mDescriptors.map descriptorOf⟩

/-- The length bytes of the descriptors are right. -/
def WellDescribed (descriptors : List (List UInt8)) : Prop :=
  ∀ d ∈ descriptors, Describes d (descriptorOf d)

theorem WellDescribed.parse {descriptors : List (List UInt8)} (h : WellDescribed descriptors) :
    parseDescriptors descriptors.flatten = some (descriptors.map descriptorOf) := by
  apply parseDescriptors_flatten
  rw [List.forall₂_map_right_iff, List.forall₂_same]
  exact h

/-- The fields of a track fit into its description. -/
structure Listable (t : Track) : Prop where
  streamType_lt : t.mStreamType < 256
  pid_lt : t.mPID < 2 ^ 13
  described : WellDescribed t.mDescriptors

theorem parseStreams_flatten {tracks : List Track} {streams : List (List UInt8)}
    (h : tracks.mapM Track.streamInfo = .ok streams) (htracks : ∀ t ∈ tracks, Listable t) :
    parseStreams streams.flatten = some (tracks.map streamOf) := by
  induction tracks generalizing streams with
  | nil =>
      cases h
      change parseStreams [] = some []
      rw [parseStreams]
  | cons t tracks ih =>
      rw [List.mapM_cons] at h
      obtain ⟨bytes, hbytes, h⟩ := bind_eq_ok.mp h
      obtain ⟨rest, hrest, h⟩ := bind_eq_ok.mp h
      cases h
      have ht := htracks t List.mem_cons_self
      have hstreams := ih hrest fun t' ht' => htracks t' (List.mem_cons_of_mem t ht')
      unfold Track.streamInfo at hbytes
      dsimp only at hbytes
      split at hbytes
      · cases hbytes
      rename_i hlength
      cases hbytes
      have htype : (toByte (t.mStreamType : ℕ)).toNat = t.mStreamType := by
        have hlt := ht.streamType_lt
        rw [toNat_toByte]
        omega
      have hinfo := (length12_eq (show t.mDescriptors.flatten.length < 2 ^ 12 by omega)).2
      rw [List.flatten_cons, List.append_assoc]
      simp only [List.cons_append, List.nil_append]
      rw [parseStreams_cons hinfo.symm ht.described.parse, hstreams, htype, pid13_eq ht.pid_lt]
      rfl

/-! ## The PMT -/

/-- What lies between the header of the section and its CRC. -/
def mapContents (info streams : List UInt8) : List UInt8 :=
  [0xe0 ||| toByte (PID_PCR / 2 ^ 8 : ℕ), toByte PID_PCR,
    0xf0 ||| toByte (info.length / 2 ^ 8 : ℕ), toByte info.length] ++ info ++ streams

/-- The section of a PMT with the contents. -/
def mapSection (contents : List UInt8) : List UInt8 :=
  withCRC ([0x02, 0xb0 ||| toByte ((contents.length + 9) / 2 ^ 8 : ℕ),
    toByte (contents.length + 9 : ℕ), 0x00, 0x01, 0xc3, 0x00, 0x00] ++ contents)

theorem length_mapSection (contents : List UInt8) :
    (mapSection contents).length = 12 + contents.length := by
  simp only [mapSection, withCRC, putInt, List.length_append, List.length_cons, List.length_nil]
  omega

theorem PMT_eq_ok {counter : ℕ} {info : List (List UInt8)} {tracks : List Track}
    {table : List UInt8} (h : PMT counter info tracks = .ok table) :
    info.flatten.length < 0x400 ∧ ∃ streams, tracks.mapM Track.streamInfo = .ok streams ∧
      table.length = 5 + (mapSection (mapContents info.flatten streams.flatten)).length ∧
      table.drop 4 = 0x00 :: mapSection (mapContents info.flatten streams.flatten) := by
  unfold PMT at h
  dsimp only at h
  split at h
  · cases h
  rename_i hinfo
  obtain ⟨streams, hstreams, h⟩ := bind_eq_ok.mp h
  cases h
  refine ⟨Nat.lt_of_not_le hinfo, streams, hstreams, ?_, ?_⟩
  · rw [length_mapSection]
    simp only [mapContents, withCRC, putInt, List.length_append, List.length_cons,
      List.length_nil]
    omega
  · rfl

section Map

variable {counter : ℕ} {info : List (List UInt8)} {tracks : List Track} {table : List UInt8}

/-- A PMT that fits into its packet reads as the descriptors and the tracks. -/
theorem parsePmt_PMT (h : PMT counter info tracks = .ok table) (hinfo : WellDescribed info)
    (htracks : ∀ t ∈ tracks, Listable t) (hfits : table.length ≤ 188) (c : ℕ) :
    parsePmt PID_PMT ⟨true, PID_PMT, c, tablePayload (table.drop 4)⟩ =
      some ⟨1, PID_PCR, info.map descriptorOf, tracks.map streamOf⟩ := by
  obtain ⟨hinfoLength, streams, hstreams, hlength, hdrop⟩ := PMT_eq_ok h
  have hsectionLength := length_mapSection (mapContents info.flatten streams.flatten)
  have hlengthField := (length12_eq
    (show (mapContents info.flatten streams.flatten).length + 9 < 2 ^ 12 by omega)).1
  have hhigh := toByte_high_lt
    (show (mapContents info.flatten streams.flatten).length + 9 < 2 ^ 12 by omega)
  have hsection := sectionOf_table PID_PMT c (show
    (mapSection (mapContents info.flatten streams.flatten)).length ≤ 183 by omega)
  rw [mapSection, parseSection_withCRC (length_bits _ hhigh).1 hlengthField, ← mapSection]
    at hsection
  have hmap : parseMap 1 (mapContents info.flatten streams.flatten) =
      some ⟨1, PID_PCR, info.map descriptorOf, tracks.map streamOf⟩ := by
    have hpcr : pid13 (0xe0 ||| toByte (PID_PCR / 2 ^ 8 : ℕ)) (toByte PID_PCR) = PID_PCR :=
      pid13_eq (by decide)
    rw [mapContents, List.append_assoc]
    simp only [List.cons_append, List.nil_append]
    rw [parseMap_eq_some (length12_eq (show info.flatten.length < 2 ^ 12 by omega)).2.symm
      hinfo.parse (parseStreams_flatten hstreams htracks), hpcr]
  rw [parsePmt, if_neg (by simp), hdrop, hsection]
  exact hmap

/-- A longer one cannot be read: its section does not end in the packet. -/
theorem parsePmt_PMT_long (h : PMT counter info tracks = .ok table)
    (hlong : 188 < table.length) (hlt : table.length < 2 ^ 12) (c : ℕ) :
    parsePmt PID_PMT ⟨true, PID_PMT, c, tablePayload (table.drop 4)⟩ = none := by
  obtain ⟨-, streams, -, hlength, hdrop⟩ := PMT_eq_ok h
  have hsectionLength := length_mapSection (mapContents info.flatten streams.flatten)
  have hlengthField := (length12_eq
    (show (mapContents info.flatten streams.flatten).length + 9 < 2 ^ 12 by omega)).1
  have hsection := sectionOf_longTable PID_PMT c (show
    183 < (mapSection (mapContents info.flatten streams.flatten)).length by omega)
  have hnone : parseSection ((mapSection (mapContents info.flatten streams.flatten)).take 183) =
      none := by
    apply parseSection_eq_none
    rw [hlengthField]
    simp only [List.length_cons, List.length_take]
    omega
  rw [hnone] at hsection
  rw [parsePmt, if_neg (by simp), hdrop, hsection]

end Map

end MirrorCast.Ts
