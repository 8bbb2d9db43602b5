import MirrorCast.Library.Pieces
import MirrorCast.Program.MediaServer

/-! # The datagrams of a frame -/

namespace MirrorCast.Udp

open Java Pieces MediaClient MediaServer

/-- A datagram as it crosses the network: the eight header bytes, the payload and
the zeros left in the send buffer. -/
def packet (sizeInBytes : ℤ) (isPortrait : Bool) (flags count : ℤ) (payload : List UInt8) :
    List UInt8 :=
  [toByte sizeInBytes, toByte (sizeInBytes / 2 ^ 8), toByte (sizeInBytes / 2 ^ 16),
    toByte (sizeInBytes / 2 ^ 24), orientation isPortrait, toByte flags,
    toByte count, toByte (count / 2 ^ 8)] ++
  (payload ++ List.replicate (LIMIT_DATA - payload.length) 0)

theorem header_eq (sizeInBytes : ℤ) (isPortrait : Bool) (flags count : ℤ) :
    header sizeInBytes isPortrait flags count = packet sizeInBytes isPortrait flags count [] := by
  have hzero : List.replicate LIMIT (0 : UInt8) =
      [0, 0, 0, 0, 0, 0, 0, 0] ++ List.replicate LIMIT_DATA 0 :=
    List.replicate_add 8 LIMIT_DATA 0
  simp [header, int2Bytes, int2Bytes2, packet, hzero]

/-- Copying a piece of the data behind the header gives the datagram with that payload. -/
theorem arraycopy_header (data : List UInt8) (pos len : ℕ) (sizeInBytes : ℤ)
    (isPortrait : Bool) (flags count : ℤ) (hpos : pos + len ≤ data.length)
    (hlen : len ≤ LIMIT_DATA) :
    arraycopy data pos (header sizeInBytes isPortrait flags count) OFFSET len =
      .ok (packet sizeInBytes isPortrait flags count ((data.drop pos).take len)) := by
  have htake : ((data.drop pos).take len).length = len := by
    simp only [List.length_take, List.length_drop]
    omega
  have hroom : (packet sizeInBytes isPortrait flags count []).length = OFFSET + LIMIT_DATA := by
    simp only [packet, List.length_append, List.length_cons, List.length_nil,
      List.length_replicate, OFFSET]
    omega
  rw [header_eq, arraycopy_ok hpos (by rw [hroom]; omega)]
  congr 1
  have happend := blit_append (show [toByte sizeInBytes, toByte (sizeInBytes / 2 ^ 8),
    toByte (sizeInBytes / 2 ^ 16), toByte (sizeInBytes / 2 ^ 24), orientation isPortrait,
    toByte flags, toByte count, toByte (count / 2 ^ 8)].length = OFFSET from rfl)
    ((data.drop pos).take len) (List.replicate LIMIT_DATA 0)
  rw [htake, List.drop_replicate] at happend
  simpa only [packet, htake, List.length_nil, Nat.sub_zero, List.nil_append,
    List.append_assoc] using happend

/-! ## Reading the fields back -/

section Fields

variable (sizeInBytes : ℤ) (isPortrait : Bool) (flags count : ℤ) (payload : List UInt8)

theorem bytesToInt_packet (h0 : 0 ≤ sizeInBytes) (h : sizeInBytes < 2 ^ 31) :
    bytesToInt (packet sizeInBytes isPortrait flags count payload) = sizeInBytes := by
  have hsum : ((toByte sizeInBytes).toNat + (toByte (sizeInBytes / 2 ^ 8)).toNat * 2 ^ 8 +
      (toByte (sizeInBytes / 2 ^ 16)).toNat * 2 ^ 16 +
      (toByte (sizeInBytes / 2 ^ 24)).toNat * 2 ^ 24 : ℤ) = sizeInBytes := by
    simp only [toNat_toByte]
    omega
  simp only [bytesToInt, packet, List.cons_append, List.getD_cons_zero, List.getD_cons_succ]
  rw [hsum, int32_eq (by omega) h]

theorem bytesToInt2_packet :
    bytesToInt2 (packet sizeInBytes isPortrait flags count payload) = count % 2 ^ 16 := by
  simp only [bytesToInt2, packet, List.cons_append, List.getD_cons_zero, List.getD_cons_succ,
    toNat_toByte]
  omega

@[simp] theorem getD_four_packet :
    (packet sizeInBytes isPortrait flags count payload).getD 4 0 = orientation isPortrait := rfl

@[simp] theorem getD_five_packet :
    (packet sizeInBytes isPortrait flags count payload).getD 5 0 = toByte flags := rfl

theorem length_packet (h : payload.length ≤ LIMIT_DATA) :
    (packet sizeInBytes isPortrait flags count payload).length = OFFSET + LIMIT_DATA := by
  simp only [packet, List.length_append, List.length_cons, List.length_nil,
    List.length_replicate, OFFSET]
  omega

theorem drop_packet :
    (packet sizeInBytes isPortrait flags count payload).drop OFFSET =
      payload ++ List.replicate (LIMIT_DATA - payload.length) 0 := rfl

end Fields

/-! ## Fragments -/

/-- The number of datagrams `sendDataForUDP` cuts a frame into. -/
def fragmentCount (f : Frame) : ℕ :=
  if f.data.length ≤ LIMIT_DATA then 1 else Pieces.count LIMIT_DATA f.data.length

/-- Fragment `number`, counted from one, of the frame at `position` in the stream. -/
structure Fragment where
  position : ℕ
  frame : Frame
  number : ℕ
  deriving DecidableEq

namespace Fragment

/-- The frame fits into one datagram. -/
def Whole (g : Fragment) : Prop := g.frame.data.length ≤ LIMIT_DATA

instance (g : Fragment) : Decidable g.Whole := inferInstanceAs (Decidable (_ ≤ _))

/-- The number written into the header, before it is cut to 16 bits. -/
def counter (g : Fragment) : ℕ := if g.Whole then 60040 else g.number

def payload (g : Fragment) : List UInt8 :=
  if g.Whole then g.frame.data else piece LIMIT_DATA g.frame.data (g.number - 1)

def datagram (g : Fragment) : List UInt8 :=
  packet g.frame.data.length g.frame.isPortrait g.frame.flags g.counter g.payload

end Fragment

/-- The fragments of the frame at `position`, in sending order. -/
def fragmentsOf (position : ℕ) (f : Frame) : List Fragment :=
  (List.range (fragmentCount f)).map fun i => ⟨position, f, i + 1⟩

/-- The fragments of a stream of frames whose first frame has the given position. -/
def fragmentsFrom : ℕ → List Frame → List Fragment
  | _, [] => []
  | position, f :: fs => fragmentsOf position f ++ fragmentsFrom (position + 1) fs

/-- The fragments of a stream of frames. -/
def fragments (fs : List Frame) : List Fragment := fragmentsFrom 0 fs

/-- `sendDataForUDP` throws nothing and sends exactly the fragments of its frame. -/
theorem send_eq (position : ℕ) (f : Frame) :
    f.send = .ok ((fragmentsOf position f).map Fragment.datagram) := by
  unfold Frame.send sendDataForUDP fragmentsOf fragmentCount
  by_cases h : f.data.length ≤ LIMIT_DATA
  · rw [if_pos (by omega), if_pos h]
    have hcopy := arraycopy_header f.data 0 f.data.length f.data.length f.isPortrait
      f.flags 60040 (by omega) h
    rw [Nat.cast_zero] at hcopy
    rw [hcopy]
    simp [Fragment.datagram, Fragment.counter, Fragment.payload, Fragment.Whole, h]
  · have hn : (0 : ℕ) < LIMIT_DATA := by decide
    rw [if_neg (by omega), if_neg h, List.map_map]
    simp only [tdiv_add_tmod, Int.toNat_natCast]
    apply mapM_ok
    intro i hi
    rw [List.mem_range] at hi
    have hcounter : (Fragment.mk position f (i + 1)).counter = i + 1 := by
      simp [Fragment.counter, Fragment.Whole, h]
    have hpayload : (Fragment.mk position f (i + 1)).payload = piece LIMIT_DATA f.data i := by
      simp [Fragment.payload, Fragment.Whole, h]
    simp only [Function.comp_apply, Fragment.datagram, hcounter, hpayload]
    have hlength := length_piece LIMIT_DATA f.data i
    by_cases hlast : i + 1 < Pieces.count LIMIT_DATA f.data.length
    · have hfull := length_piece_of_lt hn hlast
      rw [if_pos (by omega)]
      exact_mod_cast arraycopy_header f.data (i * LIMIT_DATA) LIMIT_DATA f.data.length
        f.isPortrait f.flags (i + 1 : ℕ) (by omega) le_rfl
    · have hcount : Pieces.count LIMIT_DATA f.data.length = i + 1 := by omega
      have hbounds := count_bounds hn (show 0 < f.data.length by omega)
      rw [hcount, Nat.add_sub_cancel] at hbounds
      have hrest : f.data.length - i * LIMIT_DATA ≤ LIMIT_DATA := by
        rw [Nat.add_mul] at hbounds
        omega
      have hcopy := arraycopy_header f.data (i * LIMIT_DATA) (f.data.length - i * LIMIT_DATA)
        f.data.length f.isPortrait f.flags (i + 1 : ℕ) (by omega) hrest
      have hpiece : piece LIMIT_DATA f.data i =
          (f.data.drop (i * LIMIT_DATA)).take (f.data.length - i * LIMIT_DATA) := by
        rw [piece, List.take_of_length_le, List.take_of_length_le] <;>
          simp only [List.length_drop] <;> omega
      have hsize : ((f.data.length : ℤ) - ((i : ℤ) + 1 - 1) * LIMIT_DATA) =
          ((f.data.length - i * LIMIT_DATA : ℕ) : ℤ) := by
        rw [Nat.cast_sub (by omega)]
        push_cast
        ring
      rw [if_neg (by omega), hsize, hpiece]
      exact_mod_cast hcopy

end MirrorCast.Udp
