import Mathlib.Data.List.Basic
import Mathlib.Tactic.Ring

/-! # RTCP compound packets as RFC 3550 defines them -/

namespace Rfc3550

/-- An RTCP packet. The count in its header says how many blocks or chunks it has. -/
structure RtcpPacket where
  version : ℕ
  padding : Bool
  count : ℕ
  packetType : UInt8
  body : List UInt8
  deriving DecidableEq, Repr

/-- The first packet of a compound packet, as long as its length field says, and the rest. -/
def read : List UInt8 → Option (RtcpPacket × List UInt8)
  | first :: packetType :: hi :: lo :: rest =>
      let size := 4 * (hi.toNat * 2 ^ 8 + lo.toNat)
      if rest.length < size then none
      else some
        ({ version := first.toNat / 64
           padding := first &&& 0x20 != 0
           count := (first &&& 0x1f).toNat
           packetType
           body := rest.take size },
          rest.drop size)
  | _ => none

/-- The packet is read back if the length field is its size in words minus one. -/
theorem read_append (first packetType : UInt8) {hi lo : UInt8} {body : List UInt8}
    (hsize : body.length = 4 * (hi.toNat * 2 ^ 8 + lo.toNat)) (rest : List UInt8) :
    read (first :: packetType :: hi :: lo :: (body ++ rest)) =
      some (⟨first.toNat / 64, first &&& 0x20 != 0, (first &&& 0x1f).toNat, packetType, body⟩,
        rest) := by
  rw [read, ← hsize, if_neg (by rw [List.length_append]; omega), List.take_left, List.drop_left]

/-- A receiver report: the SSRC of its sender, then `count` blocks of 24 bytes. -/
structure RtcpPacket.IsReceiverReport (p : RtcpPacket) : Prop where
  version : p.version = 2
  padding : p.padding = false
  packetType : p.packetType = 201
  blocks : ∃ ssrc blocks, p.body = ssrc ++ List.flatten blocks ∧ ssrc.length = 4 ∧
    (∀ block ∈ blocks, block.length = 24) ∧ blocks.length = p.count ∧ blocks.length ≤ 31

/-- A receiver report, and behind it an SDES packet that is the end of the compound packet. -/
def IsReport (datagram : List UInt8) : Prop :=
  ∃ rr rest sdes, read datagram = some (rr, rest) ∧ rr.IsReceiverReport ∧
    read rest = some (sdes, []) ∧ sdes.version = 2 ∧ sdes.packetType = 202

/-- The three high bits of the first byte say that there is no padding. -/
theorem IsReport.padding {first : UInt8} {rest : List UInt8} (h : IsReport (first :: rest)) :
    first &&& 0x20 = 0 := by
  obtain ⟨rr, rest', -, hread, hrr, -⟩ := h
  unfold read at hread
  split at hread
  · rename_i heq
    obtain ⟨rfl, -⟩ := List.cons.inj heq
    dsimp only at hread
    split at hread
    · cases hread
    · cases hread
      simpa using hrr.padding
  · cases hread

end Rfc3550
