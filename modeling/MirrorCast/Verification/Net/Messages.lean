import MirrorCast.Program.ANetworkSession

/-! # Length-prefixed messages on a stream -/

namespace MirrorCast

open Java Framing RTPUtils ANetworkSession

namespace Net

/-! ## Big-endian integers -/

/-- The last `n` bytes of `v`. -/
def bigEndian : ℕ → ℕ → List UInt8
  | 0, _ => []
  | n + 1, v => UInt8.ofNat (v / 256 ^ n) :: bigEndian n v

@[simp] theorem length_bigEndian (n v : ℕ) : (bigEndian n v).length = n := by
  induction n with
  | zero => rfl
  | succ n ih => rw [bigEndian, List.length_cons, ih]

theorem foldl_bigEndian (n v acc : ℕ) :
    (bigEndian n v).foldl (fun v b => v * 256 + b.toNat) acc = acc * 256 ^ n + v % 256 ^ n := by
  induction n generalizing acc with
  | zero => simp [bigEndian, Nat.mod_one]
  | succ n ih =>
      have hmod : v % (256 ^ n * 256) = v % 256 ^ n + 256 ^ n * (v / 256 ^ n % 256) := Nat.mod_mul
      rw [bigEndian, List.foldl_cons, ih, UInt8.toNat_ofNat', pow_succ 256 n, hmod]
      norm_num only
      ring

theorem unsignedAt_bigEndian (before rest : List UInt8) {n v : ℕ} (h : v < 256 ^ n) :
    unsignedAt (before ++ (bigEndian n v ++ rest)) before.length n = v := by
  rw [unsignedAt, List.drop_left, List.take_left' (length_bigEndian n v), foldl_bigEndian,
    Nat.mod_eq_of_lt h, Nat.zero_mul, Nat.zero_add]

theorem U16_AT_bigEndian (before rest : List UInt8) {v : ℕ} (h : v < 65536) :
    U16_AT (before ++ (bigEndian 2 v ++ rest)) before.length =
      if v < 32768 then (v : ℤ) else v - 65536 := by
  have hvalue : unsignedAt (before ++ (bigEndian 2 v ++ rest)) before.length 2 = v :=
    unsignedAt_bigEndian before rest (Nat.lt_of_lt_of_eq h (by norm_num))
  have hread : U16_AT (before ++ (bigEndian 2 v ++ rest)) before.length =
      (v : ℤ).bmod (2 ^ 16) := congrArg (fun n : ℕ => (n : ℤ).bmod (2 ^ 16)) hvalue
  rw [hread]
  split
  · exact Int.bmod_eq_of_le (by omega) (by omega)
  · have hmod : (v : ℤ) % ((2 ^ 16 : ℕ) : ℤ) = v := Int.emod_eq_of_lt (by omega) (by omega)
    rw [Int.bmod_eq_emod, hmod, if_pos (by omega)]
    rfl

/-! ## Datagrams -/

def datagramBytes (data : List UInt8) : List UInt8 := bigEndian 2 data.length ++ data

@[simp] theorem length_datagramBytes (data : List UInt8) :
    (datagramBytes data).length = data.length + 2 := by
  rw [datagramBytes, List.length_append, length_bigEndian, Nat.add_comm]

/-- The length is read as a signed value. -/
theorem datagramTurn_append {data : List UInt8} (h : data.length < 65536) (rest : List UInt8) :
    Session.datagramTurn (datagramBytes data ++ rest) =
      if data.length < 32768 then .took (.datagram data) (datagramBytes data).length
      else .stop [] (some .illegalArgument) := by
  have hsize := U16_AT_bigEndian [] (data ++ rest) h
  rw [List.nil_append, List.length_nil, ← List.append_assoc] at hsize
  have htake : ((datagramBytes data ++ rest).drop 2).take data.length = data := by
    rw [datagramBytes, List.append_assoc, List.drop_left' (length_bigEndian 2 _),
      List.take_left' rfl]
  rw [Session.datagramTurn, if_neg (by rw [List.length_append, length_datagramBytes]; omega)]
  dsimp only
  rw [← datagramBytes] at hsize
  rw [hsize]
  split
  · rw [if_neg (by rw [List.length_append, length_datagramBytes]; omega), if_neg (by omega),
      Int.toNat_natCast, htake, length_datagramBytes]
  · rw [if_neg (by rw [List.length_append, length_datagramBytes]; omega), if_pos (by omega)]

theorem datagramTurn_of_lt {data : List UInt8} (h : data.length < 32768) (rest : List UInt8) :
    Session.datagramTurn (datagramBytes data ++ rest) =
      .took (.datagram data) (datagramBytes data).length := by
  rw [datagramTurn_append (Nat.lt_trans h (by decide)), if_pos h]

/-! ## Interleaved packets -/

def binaryBytes (channel : UInt8) (data : List UInt8) : List UInt8 :=
  [0x24, channel] ++ (bigEndian 2 data.length ++ data)

@[simp] theorem length_binaryBytes (channel : UInt8) (data : List UInt8) :
    (binaryBytes channel data).length = data.length + 4 := by
  simp only [binaryBytes, List.length_append, List.length_cons, List.length_nil, length_bigEndian]
  omega

theorem rtspTurn_binary [CharData] (err : ℤ) (channel : UInt8) {data : List UInt8}
    (h : data.length < 65536) (rest : List UInt8) :
    Session.rtspTurn err (binaryBytes channel data ++ rest) =
      if data.length < 32768 then
        .took (.binaryData channel.toNat data) (binaryBytes channel data).length
      else .stop [] (some .illegalArgument) := by
  have hsize := U16_AT_bigEndian [0x24, channel] (data ++ rest) h
  rw [← List.append_assoc, ← List.append_assoc, List.append_assoc [0x24, channel],
    ← binaryBytes, show [0x24, channel].length = 2 from rfl] at hsize
  have htake : ((binaryBytes channel data ++ rest).drop 4).take data.length = data := by
    rw [binaryBytes, ← List.append_assoc, List.append_assoc, List.drop_left'
      (by rw [List.length_append, length_bigEndian]; rfl), List.take_left' rfl]
  have hhead : (binaryBytes channel data ++ rest).head? = some 0x24 := rfl
  rw [Session.rtspTurn, if_pos hhead, Session.binaryTurn,
    if_neg (by rw [List.length_append, length_binaryBytes]; omega)]
  dsimp only
  rw [hsize]
  split
  · rw [if_neg (by rw [List.length_append, length_binaryBytes]; omega), if_neg (by omega),
      Int.toNat_natCast, htake, length_binaryBytes, Nat.add_comm 4]
    rfl
  · rw [if_neg (by rw [List.length_append, length_binaryBytes]; omega), if_pos (by omega)]

theorem rtspTurn_binary_of_lt [CharData] (err : ℤ) (channel : UInt8) {data : List UInt8}
    (h : data.length < 32768) (rest : List UInt8) :
    Session.rtspTurn err (binaryBytes channel data ++ rest) =
      .took (.binaryData channel.toNat data) (binaryBytes channel data).length := by
  rw [rtspTurn_binary err channel (Nat.lt_trans h (by decide)), if_pos h]

/-! ## WebSocket frames -/

/-- How a frame states the length of its payload. -/
inductive LengthForm where
  | short
  | medium
  | long
  deriving DecidableEq, Repr

namespace LengthForm

/-- One more than the greatest length. -/
def bound : LengthForm → ℕ
  | short => 126
  | medium => 65536
  | long => 2 ^ 63

/-- The seven bits behind the mask bit. -/
def code (length : ℕ) : LengthForm → ℕ
  | short => length
  | medium => 126
  | long => 127

def extended (length : ℕ) : LengthForm → List UInt8
  | short => []
  | medium => bigEndian 2 length
  | long => bigEndian 8 length

end LengthForm

/-- A frame; `key` is the masking key, if there is one. -/
structure Frame where
  headerByte : UInt8
  payload : List UInt8
  form : LengthForm
  key : Option ℕ
  fits : payload.length < form.bound
  key_lt : ∀ k ∈ key, k < 2 ^ 32

/-- Every byte combined with that of the key whose turn it is. -/
def masked (key : ℕ) (payload : List UInt8) : List UInt8 :=
  payload.mapIdx fun i b => b ^^^ UInt8.ofNat (key / 2 ^ (8 * (3 - i % 4)))

theorem masked_masked (key : ℕ) (payload : List UInt8) :
    masked key (masked key payload) = payload := by
  rw [masked, List.mapIdx_eq_iff]
  intro i
  rw [masked, List.getElem?_mapIdx, Option.map_map]
  have hxor : ∀ b k : UInt8, b ^^^ k ^^^ k = b := fun b k => by
    rw [UInt8.xor_assoc, UInt8.xor_self, UInt8.xor_zero]
  simp [Function.comp_def, hxor]

theorem masked_zero (payload : List UInt8) : masked 0 payload = payload := by
  rw [masked, List.mapIdx_eq_iff]
  intro i
  simp

@[simp] theorem length_masked (key : ℕ) (payload : List UInt8) :
    (masked key payload).length = payload.length := by
  rw [masked, List.length_mapIdx]

theorem unmask_int32 {key : ℕ} (h : key < 2 ^ 32) (payload : List UInt8) :
    Session.unmask (int32 key) payload = masked key payload := by
  have hvalue : (BitVec.ofInt 32 (int32 key)).toNat = key := by
    rw [BitVec.toNat_ofInt, int32, Int.bmod_emod]
    omega
  unfold Session.unmask masked
  apply congrArg (List.mapIdx · payload)
  funext i b
  rw [BitVec.toNat_ushiftRight, hvalue, Nat.shiftRight_eq_div_pow]

theorem int32_eq_zero_iff {n : ℕ} (h : n < 2 ^ 32) : int32 n = 0 ↔ n = 0 := by
  rw [int32, Int.bmod_def]
  split <;> omega

namespace Frame

def keyBytes (f : Frame) : List UInt8 :=
  match f.key with
  | none => []
  | some key => bigEndian 4 key

def maskedPayload (f : Frame) : List UInt8 :=
  match f.key with
  | none => f.payload
  | some key => masked key f.payload

def maskBit (f : Frame) : ℕ := if f.key.isSome then 128 else 0

def bytes (f : Frame) : List UInt8 :=
  [f.headerByte, UInt8.ofNat (f.maskBit + f.form.code f.payload.length)] ++
    (f.form.extended f.payload.length ++ (f.keyBytes ++ f.maskedPayload))

def post (f : Frame) : Notification := .webSocketMessage f.payload f.headerByte.toNat

@[simp] theorem length_maskedPayload (f : Frame) : f.maskedPayload.length = f.payload.length := by
  unfold maskedPayload
  split
  · rfl
  · exact length_masked _ _

theorem length_bytes (f : Frame) : f.bytes.length =
    2 + (f.form.extended f.payload.length).length + f.keyBytes.length + f.payload.length := by
  simp only [bytes, List.length_append, List.length_cons, List.length_nil, length_maskedPayload]
  omega

theorem code_lt (f : Frame) : f.form.code f.payload.length < 128 := by
  have := f.fits
  cases hform : f.form with
  | short =>
      rw [hform] at this
      exact Nat.lt_trans this (by decide)
  | medium => exact (by decide : 126 < 128)
  | long => exact (by decide : 127 < 128)

end Frame

theorem byte1_and : ∀ c < 128, UInt8.ofNat (128 + c) &&& 0x7f = UInt8.ofNat c ∧
    UInt8.ofNat (0 + c) &&& 0x7f = UInt8.ofNat c ∧ UInt8.ofNat (128 + c) &&& 0x80 ≠ 0 ∧
    UInt8.ofNat (0 + c) &&& 0x80 = 0 := by decide

theorem payloadLength_frame (f : Frame) (hmedium : f.form = .medium → f.payload.length < 32768)
    (rest : List UInt8) :
    Session.payloadLength (f.bytes ++ rest) =
      some ((f.payload.length : ℤ), 2 + (f.form.extended f.payload.length).length) := by
  have hcode := byte1_and _ f.code_lt
  have hbits : UInt8.ofNat (f.maskBit + f.form.code f.payload.length) &&& 0x7f =
      UInt8.ofNat (f.form.code f.payload.length) := by
    unfold Frame.maskBit
    split
    · exact hcode.1
    · exact hcode.2.1
  have hget : (f.bytes ++ rest).getD 1 0 =
      UInt8.ofNat (f.maskBit + f.form.code f.payload.length) := rfl
  have hlength := f.length_bytes
  have hfits := f.fits
  rw [Session.payloadLength, hget, hbits]
  cases hform : f.form with
  | short =>
      have hlt : f.payload.length < 126 := by rwa [hform] at hfits
      have htoNat : (UInt8.ofNat f.payload.length).toNat = f.payload.length := by
        rw [UInt8.toNat_ofNat', Nat.mod_eq_of_lt (by omega)]
      have hne : ∀ k, 126 ≤ k → k < 256 → UInt8.ofNat f.payload.length ≠ UInt8.ofNat k := by
        intro k hlo hhi heq
        have heq' := congrArg UInt8.toNat heq
        rw [htoNat, UInt8.toNat_ofNat', Nat.mod_eq_of_lt hhi] at heq'
        omega
      have h126 : UInt8.ofNat f.payload.length ≠ 126 := hne 126 (by decide) (by decide)
      have h127 : UInt8.ofNat f.payload.length ≠ 127 := hne 127 (by decide) (by decide)
      rw [LengthForm.code, if_neg h126, if_neg h127, htoNat]
      rfl
  | medium =>
      have hvalue := U16_AT_bigEndian [f.headerByte, UInt8.ofNat (f.maskBit + 126)]
        (f.keyBytes ++ f.maskedPayload ++ rest) (Nat.lt_trans (hmedium hform) (by decide))
      rw [if_pos (hmedium hform)] at hvalue
      have hbytes : f.bytes ++ rest = [f.headerByte, UInt8.ofNat (f.maskBit + 126)] ++
          (bigEndian 2 f.payload.length ++ (f.keyBytes ++ f.maskedPayload ++ rest)) := by
        simp [Frame.bytes, hform, LengthForm.code, LengthForm.extended]
      rw [← hbytes] at hvalue
      rw [hform, LengthForm.extended, length_bigEndian] at hlength
      have h126 : UInt8.ofNat 126 = 126 := rfl
      rw [LengthForm.code, if_pos h126, if_neg (by rw [List.length_append]; omega),
        LengthForm.extended, length_bigEndian]
      exact congrArg (fun v => some (v, 4)) hvalue
  | long =>
      have hlt : f.payload.length < 2 ^ 63 := by rwa [hform] at hfits
      have hvalue := unsignedAt_bigEndian [f.headerByte, UInt8.ofNat (f.maskBit + 127)]
        (f.keyBytes ++ f.maskedPayload ++ rest) (Nat.lt_trans hlt (by norm_num) :
          f.payload.length < 256 ^ 8)
      have hbytes : f.bytes ++ rest = [f.headerByte, UInt8.ofNat (f.maskBit + 127)] ++
          (bigEndian 8 f.payload.length ++ (f.keyBytes ++ f.maskedPayload ++ rest)) := by
        simp [Frame.bytes, hform, LengthForm.code, LengthForm.extended]
      rw [← hbytes] at hvalue
      have hU64 : U64_AT (f.bytes ++ rest) 2 = f.payload.length := by
        rw [U64_AT]
        refine (congrArg (fun v : ℕ => int64 v) hvalue).trans (int64_eq (by omega) (by omega))
      rw [hform, LengthForm.extended, length_bigEndian] at hlength
      have h126 : UInt8.ofNat 127 ≠ 126 := by decide
      have h127 : UInt8.ofNat 127 = 127 := rfl
      rw [LengthForm.code, if_neg h126, if_pos h127,
        if_neg (by rw [List.length_append]; omega), LengthForm.extended, length_bigEndian, hU64]

/-- The key as the `int` that `readMore` holds it in. -/
def Frame.mask (f : Frame) : ℤ :=
  match f.key with
  | none => 0
  | some key => int32 key

theorem maskingKey_frame (f : Frame) (rest : List UInt8) :
    Session.maskingKey (f.bytes ++ rest) (2 + (f.form.extended f.payload.length).length) =
      some (f.mask, 2 + (f.form.extended f.payload.length).length + f.keyBytes.length) := by
  have hcode := byte1_and _ f.code_lt
  have hget : (f.bytes ++ rest).getD 1 0 =
      UInt8.ofNat (f.maskBit + f.form.code f.payload.length) := rfl
  have hlength := f.length_bytes
  rw [Session.maskingKey, hget]
  cases hkey : f.key with
  | none =>
      rw [Frame.maskBit, hkey, if_neg (by simpa using hcode.2.2.2), Frame.mask, Frame.keyBytes, hkey]
      rfl
  | some key =>
      have hvalue := unsignedAt_bigEndian ([f.headerByte,
        UInt8.ofNat (f.maskBit + f.form.code f.payload.length)] ++
          f.form.extended f.payload.length) (f.maskedPayload ++ rest)
        (Nat.lt_of_lt_of_eq (f.key_lt key hkey) (by norm_num) : key < 256 ^ 4)
      have hkeyBytes : f.keyBytes = bigEndian 4 key := by rw [Frame.keyBytes, hkey]
      have hbytes : f.bytes ++ rest = [f.headerByte,
          UInt8.ofNat (f.maskBit + f.form.code f.payload.length)] ++
          f.form.extended f.payload.length ++ (bigEndian 4 key ++ (f.maskedPayload ++ rest)) := by
        simp [Frame.bytes, hkeyBytes]
      rw [← hbytes, List.length_append] at hvalue
      rw [hkeyBytes, length_bigEndian] at hlength
      rw [Frame.maskBit, hkey, if_pos (by simpa using hcode.2.2.1),
        if_neg (by rw [List.length_append]; omega), hkeyBytes, length_bigEndian, Frame.mask, hkey]
      exact congrArg (fun v : ℕ => some (int32 v, _)) hvalue

theorem unmask_frame (f : Frame) :
    (if f.mask ≠ 0 ∧ (0 : ℤ) < f.payload.length then Session.unmask f.mask f.maskedPayload
      else f.maskedPayload) = f.payload := by
  unfold Frame.mask Frame.maskedPayload
  cases hkey : f.key with
  | none => simp
  | some key =>
      have hlt := f.key_lt key hkey
      dsimp only
      split
      · rw [unmask_int32 hlt, masked_masked]
      · rename_i hmask
        by_cases hzero : key = 0
        · rw [hzero, masked_zero]
        · have hnil : f.payload = [] := by
            rw [Ne, int32_eq_zero_iff hlt, not_and] at hmask
            exact List.length_eq_zero_iff.mp (by have := hmask hzero; omega)
          rw [hnil]
          rfl

/-- A frame is taken off at its size, if a 16-bit length is below `2 ^ 15`. -/
theorem webSocketTurn_append (f : Frame) (hmedium : f.form = .medium → f.payload.length < 32768)
    (hpayload : f.payload.length < 2 ^ 31 - 1) (rest : List UInt8)
    (hsize : (f.bytes ++ rest).length < 2 ^ 63) :
    Session.webSocketTurn (f.bytes ++ rest) = .took f.post f.bytes.length := by
  have hlength := f.length_bytes
  have hdrop : ((f.bytes ++ rest).drop (2 + (f.form.extended f.payload.length).length +
      f.keyBytes.length)).take f.payload.length = f.maskedPayload := by
    have hbytes : f.bytes ++ rest = ([f.headerByte,
        UInt8.ofNat (f.maskBit + f.form.code f.payload.length)] ++
        f.form.extended f.payload.length ++ f.keyBytes) ++ (f.maskedPayload ++ rest) := by
      simp [Frame.bytes]
    rw [hbytes, List.drop_left' (by simp; omega), List.take_left' f.length_maskedPayload]
  rw [List.length_append] at hsize
  rw [Session.webSocketTurn, if_neg (by rw [List.length_append]; omega),
    payloadLength_frame f hmedium]
  dsimp only
  rw [maskingKey_frame]
  dsimp only
  rw [int64_eq (by rw [List.length_append]; omega) (by rw [List.length_append]; omega),
    if_neg (by rw [List.length_append]; omega), if_neg (by omega),
    int32_natCast (by omega), if_neg (by rw [List.length_append]; omega), Int.toNat_natCast,
    hdrop, unmask_frame, hlength]
  rfl

end Net

end MirrorCast
