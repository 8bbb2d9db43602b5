import MirrorCast.Program.StringUtils

/-! # Decoding well-formed UTF-8 -/

namespace MirrorCast

open Java StringUtils

namespace Net

def utf8 (cs : List Char) : List UInt8 := cs.flatMap String.utf8EncodeChar

/-! ## One byte -/

theorem firstByte_one : ∀ b < 128, firstByte b = ([b], .start) := by decide

theorem firstByte_two : ∀ b < 256, 0xc2 ≤ b → b < 0xe0 →
    firstByte b = ([], ⟨b % 32, 0, 1, 0x80, 0xbf⟩) := by decide +kernel

theorem firstByte_three : ∀ b < 256, 0xe0 ≤ b → b < 0xf0 →
    firstByte b = ([], ⟨b % 16, 0, 2, if b = 0xe0 then 0xa0 else 0x80,
      if b = 0xed then 0x9f else 0xbf⟩) := by decide +kernel

theorem firstByte_four : ∀ b < 256, 0xf0 ≤ b → b < 0xf5 →
    firstByte b = ([], ⟨b % 8, 0, 3, if b = 0xf0 then 0x90 else 0x80,
      if b = 0xf4 then 0x8f else 0xbf⟩) := by decide +kernel

theorem tail_and : ∀ x < 64, (0x80 + x) &&& 0x3f = x := by decide

theorem nextByte_start (b : ℕ) : nextByte .start b = firstByte b := by
  rw [nextByte]
  exact if_pos rfl

/-- A continuation byte adds its six bits. -/
theorem nextByte_tail {d : Decoder} {x : ℕ} (hneeded : d.utf8BytesNeeded ≠ 0) (hx : x < 64)
    (hlower : d.lowerBound ≤ 0x80 + x) (hupper : 0x80 + x ≤ d.upperBound) :
    nextByte d (0x80 + x) =
      if d.utf8BytesNeeded ≠ d.utf8BytesSeen + 1 then
        ([], ⟨d.codePoint * 64 + x, d.utf8BytesSeen + 1, d.utf8BytesNeeded, 0x80, 0xbf⟩)
      else if d.codePoint * 64 + x < 0x10000 then ([d.codePoint * 64 + x], .start)
      else ([(d.codePoint * 64 + x) / 0x400 + 0xd7c0, (d.codePoint * 64 + x) % 0x400 + 0xdc00],
        .start) := by
  have hor : d.codePoint <<< 6 ||| x = d.codePoint * 64 + x := by
    rw [← Nat.shiftLeft_add_eq_or_of_lt (by omega : x < 2 ^ 6), Nat.shiftLeft_eq]
  have hmod : ∀ n : ℕ, n &&& 0x3ff = n % 0x400 := fun n => Nat.and_two_pow_sub_one_eq_mod n 10
  rw [nextByte, if_neg hneeded, if_neg (by omega)]
  simp only [tail_and x hx, hor, Nat.shiftRight_eq_div_pow, hmod]

@[simp] theorem toNat_ofNat {n : ℕ} (h : n < 256) : (UInt8.ofNat n).toNat = n := by
  rw [UInt8.toNat_ofNat', Nat.mod_eq_of_lt h]

theorem decode_cons_of_lt {d : Decoder} {n : ℕ} (h : n < 256) (bs : List UInt8) :
    decode d (UInt8.ofNat n :: bs) = (nextByte d n).1 ++ decode (nextByte d n).2 bs := by
  rw [decode, toNat_ofNat h]

/-! ## One character -/

theorem decode_one {v : ℕ} (h : v < 128) (bs : List UInt8) :
    decode .start (UInt8.ofNat v :: bs) = v :: decode .start bs := by
  rw [decode_cons_of_lt (by omega), nextByte_start, firstByte_one v h]
  rfl

theorem decode_two {v : ℕ} (hlo : 0x80 ≤ v) (hhi : v < 0x800) (bs : List UInt8) :
    decode .start (UInt8.ofNat (v / 64 % 0x20 + 0xc0) :: UInt8.ofNat (v % 0x40 + 0x80) :: bs) =
      v :: decode .start bs := by
  rw [decode_cons_of_lt (by omega), nextByte_start,
    firstByte_two _ (by omega) (by omega) (by omega), List.nil_append, Nat.add_comm (v % 0x40),
    decode_cons_of_lt (by omega), nextByte_tail (by simp) (by omega) (by simp) (by simp; omega)]
  have hv : (v / 64 % 0x20 + 0xc0) % 32 * 64 + v % 0x40 = v := by omega
  simp only [hv]
  rw [if_neg (by simp), if_pos (by omega)]
  rfl

theorem decode_three {v : ℕ} (hlo : 0x800 ≤ v) (hhi : v < 0x10000)
    (hsurrogate : v < 0xd800 ∨ 0xdfff < v) (bs : List UInt8) :
    decode .start (UInt8.ofNat (v / 4096 % 0x10 + 0xe0) :: UInt8.ofNat (v / 64 % 0x40 + 0x80) ::
      UInt8.ofNat (v % 0x40 + 0x80) :: bs) = v :: decode .start bs := by
  rw [decode_cons_of_lt (by omega), nextByte_start,
    firstByte_three _ (by omega) (by omega) (by omega), List.nil_append,
    Nat.add_comm (v / 64 % 0x40), decode_cons_of_lt (by omega),
    nextByte_tail (by simp) (by omega) (by dsimp only; split <;> omega)
      (by dsimp only; split <;> omega)]
  rw [if_pos (by simp), List.nil_append, Nat.add_comm (v % 0x40), decode_cons_of_lt (by omega),
    nextByte_tail (by simp) (by omega) (by simp) (by simp; omega)]
  have hv : ((v / 4096 % 0x10 + 0xe0) % 16 * 64 + v / 64 % 0x40) * 64 + v % 0x40 = v := by omega
  simp only [hv]
  rw [if_neg (by simp), if_pos (by omega)]
  rfl

theorem decode_four {v : ℕ} (hlo : 0x10000 ≤ v) (hhi : v < 0x110000) (bs : List UInt8) :
    decode .start (UInt8.ofNat (v / 262144 % 0x08 + 0xf0) ::
      UInt8.ofNat (v / 4096 % 0x40 + 0x80) :: UInt8.ofNat (v / 64 % 0x40 + 0x80) ::
      UInt8.ofNat (v % 0x40 + 0x80) :: bs) =
      (v / 0x400 + 0xd7c0) :: (v % 0x400 + 0xdc00) :: decode .start bs := by
  rw [decode_cons_of_lt (by omega), nextByte_start,
    firstByte_four _ (by omega) (by omega) (by omega), List.nil_append,
    Nat.add_comm (v / 4096 % 0x40), decode_cons_of_lt (by omega),
    nextByte_tail (by simp) (by omega) (by dsimp only; split <;> omega)
      (by dsimp only; split <;> omega)]
  rw [if_pos (by simp), List.nil_append, Nat.add_comm (v / 64 % 0x40),
    decode_cons_of_lt (by omega), nextByte_tail (by simp) (by omega) (by simp) (by simp; omega)]
  rw [if_pos (by simp), List.nil_append, Nat.add_comm (v % 0x40),
    decode_cons_of_lt (by omega), nextByte_tail (by simp) (by omega) (by simp) (by simp; omega)]
  have hv : (((v / 262144 % 0x08 + 0xf0) % 8 * 64 + v / 4096 % 0x40) * 64 + v / 64 % 0x40) * 64 +
      v % 0x40 = v := by omega
  simp only [hv]
  rw [if_neg (by simp), if_neg (by omega)]
  rfl

theorem decode_utf8EncodeChar (c : Char) (bs : List UInt8) :
    decode .start (String.utf8EncodeChar c ++ bs) = utf16Char c ++ decode .start bs := by
  have hvalid : c.val.toNat < 0xd800 ∨ 0xdfff < c.val.toNat ∧ c.val.toNat < 0x110000 := c.valid
  unfold String.utf8EncodeChar utf16Char
  dsimp only [Char.toNat]
  split
  · rw [if_pos (by omega)]
    exact decode_one (by omega) bs
  split
  · rw [if_pos (by omega)]
    exact decode_two (by omega) (by omega) bs
  split
  · rw [if_pos (by omega)]
    exact decode_three (by omega) (by omega) (by omega) bs
  · rw [if_neg (by omega)]
    exact decode_four (by omega) (by omega) bs

/-- Well-formed text decodes to its code units, whatever comes next. -/
theorem decode_utf8 (cs : List Char) (bs : List UInt8) :
    decode .start (utf8 cs ++ bs) = utf16 cs ++ decode .start bs := by
  induction cs with
  | nil => rfl
  | cons c cs ih =>
      rw [utf8, utf16, List.flatMap_cons, List.flatMap_cons, List.append_assoc, List.append_assoc,
        decode_utf8EncodeChar]
      exact congrArg (utf16Char c ++ ·) ih

@[simp] theorem utf8_append (cs ds : List Char) : utf8 (cs ++ ds) = utf8 cs ++ utf8 ds :=
  List.flatMap_append

@[simp] theorem utf16_append (cs ds : List Char) : utf16 (cs ++ ds) = utf16 cs ++ utf16 ds :=
  List.flatMap_append

/-! ## Code units and bytes -/

/-- Text of seven-bit characters, the only one with as many code units as bytes. -/
def Ascii (cs : List Char) : Prop := ∀ c ∈ cs, c.toNat < 128

instance (cs : List Char) : Decidable (Ascii cs) :=
  List.decidableBAll (fun c : Char => c.toNat < 128) cs

theorem length_utf16Char (c : Char) :
    (utf16Char c).length ≤ (String.utf8EncodeChar c).length ∧
      ((utf16Char c).length = (String.utf8EncodeChar c).length ↔ c.toNat < 128) := by
  have hutf16 : (utf16Char c).length = if c.toNat < 0x10000 then 1 else 2 := by
    unfold utf16Char
    split <;> rfl
  have hutf8 : (String.utf8EncodeChar c).length =
      if c.toNat ≤ 0x7f then 1 else if c.toNat ≤ 0x7ff then 2 else if c.toNat ≤ 0xffff then 3
      else 4 := by
    unfold String.utf8EncodeChar
    dsimp only [Char.toNat]
    split
    · rfl
    split
    · rfl
    split <;> rfl
  rw [hutf16, hutf8]
  split_ifs <;> omega

theorem length_utf16 (cs : List Char) :
    (utf16 cs).length ≤ (utf8 cs).length ∧
      ((utf16 cs).length = (utf8 cs).length ↔ Ascii cs) := by
  induction cs with
  | nil => simp [utf16, utf8, Ascii]
  | cons c cs ih =>
      obtain ⟨hle, heq⟩ := ih
      obtain ⟨hle', heq'⟩ := length_utf16Char c
      have hascii : Ascii (c :: cs) ↔ c.toNat < 128 ∧ Ascii cs := by simp [Ascii]
      have h16 : utf16 (c :: cs) = utf16Char c ++ utf16 cs := List.flatMap_cons
      have h8 : utf8 (c :: cs) = String.utf8EncodeChar c ++ utf8 cs := List.flatMap_cons
      rw [h16, h8, List.length_append, List.length_append, hascii, ← heq', ← heq]
      omega

theorem mem_utf16_of_lt {cs : List Char} {u : ℕ} (hu : u < 0xd800) (h : u ∈ utf16 cs) :
    ∃ c ∈ cs, c.toNat = u := by
  obtain ⟨c, hc, hmem⟩ := List.mem_flatMap.mp h
  refine ⟨c, hc, ?_⟩
  unfold utf16Char at hmem
  split at hmem
  · exact (List.mem_singleton.mp hmem).symm
  · simp only [List.mem_cons, List.not_mem_nil, or_false] at hmem
    omega

end Net

end MirrorCast
