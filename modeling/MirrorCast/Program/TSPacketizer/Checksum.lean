import MirrorCast.Program.TSPacketizer

/-! # `TSPacketizer`: the table of the CRC -/

namespace MirrorCast.TSPacketizer

open Java

/-- The array `CRC_TABLE` after `initCrcTable()`. -/
def initCrcTable (table : List (BitVec 32)) : List (BitVec 32) :=
  let poly := 0x04C11DB7#32
  (List.range 256).foldl (fun table i =>
    let crc := (List.range 8).foldl (fun (crc : BitVec 32) _ =>
      (crc <<< 1) ^^^ (if crc &&& 0x80000000#32 ≠ 0 then poly else 0)) (BitVec.ofNat 32 i <<< 24)
    table.set i crc) table

/-- `xs[i]`, or `xs.get(i)` for a buffer. -/
def element {α : Type} (xs : List α) (i : ℕ) : Except JavaException α :=
  match xs[i]? with
  | some x => .ok x
  | none => .error .arrayIndexOutOfBounds

/-- `crc32(crcData, size)` with the array in `CRC_TABLE`. -/
def crc32OfTable (table : List (BitVec 32)) (crcData : List UInt8) (size : ℕ) :
    Except JavaException (BitVec 32) :=
  (List.range size).foldlM (fun crc p => do
    let content ← element crcData p
    let entry ← element table (((crc >>> 24) ^^^ content.toBitVec.setWidth 32) &&& 0xFF#32).toNat
    return (crc <<< 8) ^^^ entry) 0xFFFFFFFF#32

end MirrorCast.TSPacketizer
