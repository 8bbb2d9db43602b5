import MirrorCast.Library.Rbsp
import MirrorCast.Program.NALBitReader
import MirrorCast.Verification.Bits.Reading

/-! # The reservoirs of the two readers

`ABitReader` takes the bytes as they come, `NALBitReader` those of the payload. -/

namespace MirrorCast.Bits

open BitString ABitReader

/-- The bytes of the buffer that are still to be read. -/
def unread (r : ABitReader) : List UInt8 := (r.mData.drop r.mDataIndex).take r.mSize

@[simp] theorem unread_push (r : ABitReader) (b : UInt8) : unread (r.push b) = unread r := rfl

theorem unread_of_empty {r : ABitReader} (h : r.mSize = 0) : unread r = [] := by
  rw [unread, h, List.take_zero]

theorem unread_cons (r : ABitReader) (h : 0 < r.mSize) :
    unread r = r.content h :: unread (r.advance h) := by
  have hindex := r.index_le
  have hsize : r.mSize = r.mSize - 1 + 1 := by omega
  rw [unread, List.drop_eq_getElem_cons (by omega), hsize, List.take_succ_cons]
  rfl

/-- Behind the bytes `before` the reservoir has taken in `bytes`. -/
structure Filled (before : List UInt8) (r : ABitReader) (bytes : List UInt8) (r' : ABitReader)
    (i : Fin 5) : Prop where
  count : (i : ℕ) = before.length + bytes.length
  reservoir : r'.mReservoir = word 32 (ofBytes (before ++ bytes))
  overRead_eq : r'.mOverRead = r.mOverRead

theorem reservoir_push {r : ABitReader} {before : List UInt8} (b : UInt8)
    (h : r.mReservoir = word 32 (ofBytes before)) :
    (r.push b).mReservoir = word 32 (ofBytes (before ++ [b])) := by
  rw [push, h, word_push, ofBytes_append, ofBytes_cons, ofBytes_nil, List.append_nil]

theorem Filled.cons {before bytes : List UInt8} {b : UInt8} {r r' : ABitReader} {i : Fin 5}
    (h : Filled (before ++ [b]) r bytes r' i) : Filled before r (b :: bytes) r' i where
  count := by
    rw [h.count, List.length_append, List.length_singleton, List.length_cons]
    omega
  reservoir := by rw [h.reservoir, List.append_assoc, List.singleton_append]
  overRead_eq := h.overRead_eq

theorem held_align {r r' : ABitReader} {bytes : List UInt8} {i : Fin 5}
    (h : Filled [] r bytes r' i) : held (r'.align i) = ofBytes bytes := by
  have hcount : (i : ℕ) = bytes.length := by simpa using h.count
  have hlength := length_ofBytes bytes
  by_cases hzero : (i : ℕ) = 0
  · have hnil : bytes = [] := List.eq_nil_of_length_eq_zero (by omega)
    rw [hnil, ofBytes_nil]
    apply held_of_empty
    rw [mNumBitsLeft_align, hzero]
  · have haligned := take_ofWord_aligned (w := 32) (ofBytes bytes) (by omega)
    rw [hlength, ← hcount] at haligned
    rw [held, mNumBitsLeft_align, align, Nat.mod_eq_of_lt (by omega), h.reservoir,
      List.nil_append, haligned]

theorem reservoir_align {r r' : ABitReader} {bytes : List UInt8} {i : Fin 5}
    (h : Filled [] r bytes r' i) (hempty : (r'.align i).mNumBitsLeft = 0) :
    (r'.align i).mReservoir = 0 := by
  have hzero : (i : ℕ) = 0 := by
    rw [mNumBitsLeft_align] at hempty
    omega
  have hcount := h.count
  have hnil : bytes = [] := List.eq_nil_of_length_eq_zero (by omega)
  rw [mReservoir_align, h.reservoir, hnil, hzero]
  rfl

/-! ## `ABitReader` -/

theorem fill_filled (r : ABitReader) (i : Fin 5) (before : List UInt8)
    (hcount : (i : ℕ) = before.length) (hreservoir : r.mReservoir = word 32 (ofBytes before)) :
    ∃ bytes, unread r = bytes ++ unread (fill r i).1 ∧
      Filled before r bytes (fill r i).1 (fill r i).2 := by
  fun_induction fill r i generalizing before with
  | case1 r i h ih =>
      have hpushed := reservoir_push (r := r.advance h.1) (r.content h.1) hreservoir
      obtain ⟨bytes, hunread, hfilled⟩ := ih _ (by simp [hcount]) hpushed
      refine ⟨r.content h.1 :: bytes, ?_, ⟨hfilled.cons.count, hfilled.cons.reservoir, ?_⟩⟩
      · rw [unread_cons r h.1, List.cons_append, ← hunread, unread_push]
      · rw [hfilled.overRead_eq]
        rfl
  | case2 r i h => exact ⟨[], rfl, ⟨hcount, by rw [hreservoir, List.append_nil], rfl⟩⟩

theorem fillReservoir_of_pos {r : ABitReader} (h : 0 < r.mSize) :
    fillReservoir r = (true, (fill r.clear 0).1.align (fill r.clear 0).2) :=
  if_neg (Nat.ne_of_gt h)

instance : Refills ABitReader where
  ahead := unread
  ahead_consume _ _ := rfl
  atEnd r h := by
    have hfill : BitReader.fillReservoir r = (false, { r with mOverRead := true }) := if_pos h
    rw [hfill]
    exact ⟨unread_of_empty h, rfl, unread_of_empty h, rfl, rfl⟩
  refilled r h := by
    have hfill : BitReader.fillReservoir r = _ := fillReservoir_of_pos h
    obtain ⟨bytes, hunread, hfilled⟩ := fill_filled r.clear 0 [] rfl rfl
    have hahead : unread r = bytes ++ unread (fill r.clear 0).1 := hunread
    rw [hfill, hahead, ofBytes_append, ← held_align hfilled]
    exact ⟨rfl, rfl, reservoir_align hfilled, hfilled.overRead_eq⟩

theorem bits_new (data : List UInt8) :
    bits (ABitReader.new data data.length (Nat.le_refl _)) = ofBytes data := by
  have hunread : unread (ABitReader.new data data.length (Nat.le_refl _)) = data := by
    simp [unread, ABitReader.new]
  rw [bits, held_of_empty (by rfl)]
  exact congrArg ofBytes hunread

/-! ## `NALBitReader` -/

/-- The bytes of the payload that are still to be read. -/
def unreadPayload (r : NALBitReader) : List UInt8 :=
  Rbsp.payloadAfter r.mNumZeros (unread r.toABitReader)

theorem isEmulationPreventionByte_iff {numZeros : ℕ} {content : UInt8} :
    NALBitReader.isEmulationPreventionByte numZeros content = true ↔
      2 ≤ numZeros ∧ content = 3 := by
  simp [NALBitReader.isEmulationPreventionByte]

theorem unreadPayload_skip {r : NALBitReader} (h : 0 < r.mSize)
    (hskip : NALBitReader.isEmulationPreventionByte r.mNumZeros (r.content h) = true) :
    unreadPayload r = unreadPayload (r.skip h) := by
  have hthree := isEmulationPreventionByte_iff.mp hskip
  have hzeros : (r.skip h).mNumZeros = 0 := by
    have hne : r.content h ≠ 0 := by
      rw [hthree.2]
      decide
    exact if_neg hne
  rw [unreadPayload, unread_cons r.toABitReader h, Rbsp.payloadAfter, if_pos hthree, ← hzeros]
  rfl

theorem unreadPayload_take {r : NALBitReader} (h : 0 < r.mSize)
    (htake : ¬ NALBitReader.isEmulationPreventionByte r.mNumZeros (r.content h) = true) :
    unreadPayload r = r.content h :: unreadPayload (r.take h) := by
  rw [isEmulationPreventionByte_iff] at htake
  rw [unreadPayload, unread_cons r.toABitReader h, Rbsp.payloadAfter, if_neg htake]
  rfl

theorem nal_fill_filled (r : NALBitReader) (i : Fin 5) (before : List UInt8)
    (hcount : (i : ℕ) = before.length) (hreservoir : r.mReservoir = word 32 (ofBytes before)) :
    ∃ bytes, unreadPayload r = bytes ++ unreadPayload (NALBitReader.fill r i).1 ∧
      Filled before r.toABitReader bytes (NALBitReader.fill r i).1.toABitReader
        (NALBitReader.fill r i).2 := by
  fun_induction NALBitReader.fill r i generalizing before with
  | case1 r i h hskip ih =>
      obtain ⟨bytes, hunread, hfilled⟩ := ih before hcount hreservoir
      refine ⟨bytes, ?_, ⟨hfilled.count, hfilled.reservoir, hfilled.overRead_eq⟩⟩
      rw [unreadPayload_skip h.1 hskip, hunread]
  | case2 r i h htake ih =>
      have hpushed := reservoir_push (r := r.toABitReader.advance h.1) (r.content h.1) hreservoir
      obtain ⟨bytes, hunread, hfilled⟩ := ih _ (by simp [hcount]) hpushed
      refine ⟨r.content h.1 :: bytes, ?_,
        ⟨hfilled.cons.count, hfilled.cons.reservoir, hfilled.overRead_eq⟩⟩
      rw [unreadPayload_take h.1 htake, List.cons_append, ← hunread]
  | case3 r i h => exact ⟨[], rfl, ⟨hcount, by rw [hreservoir, List.append_nil], rfl⟩⟩

theorem nal_fillReservoir_of_pos {r : NALBitReader} (h : 0 < r.mSize) :
    NALBitReader.fillReservoir r = (true,
      ⟨(NALBitReader.fill r.clear 0).1.toABitReader.align (NALBitReader.fill r.clear 0).2,
        (NALBitReader.fill r.clear 0).1.mNumZeros⟩) :=
  if_neg (Nat.ne_of_gt h)

instance : Refills NALBitReader where
  ahead := unreadPayload
  ahead_consume _ _ := rfl
  atEnd r h := by
    have hfill : BitReader.fillReservoir r = (false, { r with mOverRead := true }) := if_pos h
    have hnil : unreadPayload r = [] := by
      rw [unreadPayload, unread_of_empty (r := r.toABitReader) h]
      rfl
    rw [hfill]
    exact ⟨hnil, rfl, hnil, rfl, rfl⟩
  refilled r h := by
    have hfill : BitReader.fillReservoir r = _ := nal_fillReservoir_of_pos h
    obtain ⟨bytes, hunread, hfilled⟩ := nal_fill_filled r.clear 0 [] rfl rfl
    have hahead : unreadPayload r = bytes ++ unreadPayload (NALBitReader.fill r.clear 0).1 :=
      hunread
    rw [hfill, hahead, ofBytes_append, ← held_align hfilled]
    exact ⟨rfl, rfl, reservoir_align hfilled, hfilled.overRead_eq⟩

theorem nal_bits_new (data : List UInt8) :
    bits (NALBitReader.new data data.length (Nat.le_refl _)) = ofBytes (Rbsp.payload data) := by
  have hunread : unread (ABitReader.new data data.length (Nat.le_refl _)) = data := by
    simp [unread, ABitReader.new]
  have hahead : unreadPayload (NALBitReader.new data data.length (Nat.le_refl _)) =
      Rbsp.payload data := by
    rw [unreadPayload, ← Rbsp.payloadAfter_zero]
    exact congrArg (Rbsp.payloadAfter 0) hunread
  rw [bits, held_of_empty (by rfl), ← hahead]
  rfl

end MirrorCast.Bits
