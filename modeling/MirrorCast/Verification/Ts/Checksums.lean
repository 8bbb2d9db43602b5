import MirrorCast.Program.TSPacketizer.Checksum
import MirrorCast.Verification.Ts.Sections

/-! # The checksum, from the table to the residue -/

namespace MirrorCast.Ts

open Java TSPacketizer

/-! ## The table -/

/-- A loop that sets one element after the other. -/
theorem foldl_set {α : Type} (f : ℕ → α) (xs : List α) {n : ℕ} (hn : n ≤ xs.length) :
    (List.range n).foldl (fun xs i => xs.set i (f i)) xs = (List.range n).map f ++ xs.drop n := by
  induction n with
  | zero => rfl
  | succ n ih =>
      have hcons : xs.drop n = xs[n] :: xs.drop (n + 1) := List.drop_eq_getElem_cons (by omega)
      have hlength : ((List.range n).map f).length = n := by simp
      rw [List.range_succ, List.foldl_append, ih (by omega), List.foldl_cons, List.foldl_nil,
        List.set_append_right _ _ hlength.le, hlength, Nat.sub_self, hcons, List.set_cons_zero]
      simp

/-- The array that `TSPacketizer` is loaded with. -/
def crcTable : List (BitVec 32) := initCrcTable (List.replicate 256 0)

/-- The loop over `j` is the eightfold step of the model. -/
theorem entry_eq (i : ℕ) (hi : i < 256) :
    (List.range 8).foldl (fun (crc : BitVec 32) _ =>
      (crc <<< 1) ^^^ (if crc &&& 0x80000000#32 ≠ 0 then 0x04C11DB7#32 else 0))
      (BitVec.ofNat 32 i <<< 24) = CRC_TABLE (BitVec.ofNat 8 i) := by
  have hbyte : (BitVec.ofNat 8 i).setWidth 32 = BitVec.ofNat 32 i := by
    apply BitVec.eq_of_toNat_eq
    rw [BitVec.toNat_setWidth, BitVec.toNat_ofNat, BitVec.toNat_ofNat]
    omega
  rw [CRC_TABLE, hbyte]
  rfl

theorem crcTable_eq : crcTable = (List.range 256).map fun i => CRC_TABLE (BitVec.ofNat 8 i) := by
  have hlength : (List.replicate 256 (0 : BitVec 32)).length = 256 := List.length_replicate
  rw [crcTable, initCrcTable]
  dsimp only
  rw [foldl_set _ _ hlength.ge, List.drop_of_length_le hlength.le, List.append_nil]
  apply List.map_congr_left
  intro i hi
  exact entry_eq i (List.mem_range.mp hi)

theorem element_crcTable (x : BitVec 32) :
    element crcTable (x &&& 0xFF#32).toNat = .ok (CRC_TABLE (x.setWidth 8)) := by
  have hindex : (x &&& 0xFF#32).toNat = x.toNat % 256 := by
    rw [BitVec.toNat_and]
    exact Nat.and_two_pow_sub_one_eq_mod x.toNat 8
  have hlt : x.toNat % 256 < 256 := Nat.mod_lt _ (by decide)
  have hbyte : BitVec.ofNat 8 (x.toNat % 256) = x.setWidth 8 := by
    apply BitVec.eq_of_toNat_eq
    rw [BitVec.toNat_setWidth, BitVec.toNat_ofNat]
    omega
  rw [hindex, element, crcTable_eq, List.getElem?_map, List.getElem?_range hlt, Option.map_some,
    hbyte]

/-! ## The loop -/

theorem crc32_concat (data : List UInt8) (content : UInt8) :
    crc32 (data ++ [content]) = (crc32 data <<< 8) ^^^
      CRC_TABLE (((crc32 data >>> 24) ^^^ content.toBitVec.setWidth 32).setWidth 8) := by
  rw [crc32, List.foldl_append]
  rfl

theorem crc32OfTable_take (data : List UInt8) {n : ℕ} (hn : n ≤ data.length) :
    crc32OfTable crcTable data n = .ok (crc32 (data.take n)) := by
  induction n with
  | zero => rfl
  | succ n ih =>
      have hcontent : element data n = .ok data[n] := by
        rw [element, List.getElem?_eq_getElem (by omega)]
      rw [crc32OfTable, List.range_succ, List.foldlM_append, ← crc32OfTable, ih (by omega), ok_bind,
        List.take_add_one, List.getElem?_eq_getElem (by omega), List.foldlM_cons, hcontent, ok_bind,
        element_crcTable, ok_bind, Option.toList_some, crc32_concat]
      rfl

/-- The table gives the CRC of MPEG-2, and behind the data that makes the CRC of the whole zero. -/
theorem crc32_mpeg2 (data : List UInt8) :
    crc32OfTable crcTable data data.length = .ok (crc32 data) ∧
      crc32 data = Crc.remainder 0x04C11DB7#32 0xFFFFFFFF#32 data ∧
      crc32 (data ++ putInt (crc32 data)) = 0 := by
  have htable := crc32OfTable_take data (Nat.le_refl _)
  rw [List.take_length] at htable
  refine ⟨htable, crc32_eq data, ?_⟩
  rw [crc32_eq]
  exact crc_withCRC data

end MirrorCast.Ts
