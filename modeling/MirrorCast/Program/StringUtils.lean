import MirrorCast.Library.JavaString

/-! # `StringUtils`: decoding UTF-8 -/

namespace MirrorCast

open Java

namespace StringUtils

def REPLACEMENT_CHAR : ℕ := 0xfffd

/-- `TABLE_UTF8_NEEDED`, for the first bytes from `0xc0` on. -/
def TABLE_UTF8_NEEDED : List ℕ :=
  [0, 0, 1, 1, 1, 1, 1, 1, 1, 1, 1, 1, 1, 1, 1, 1,
   1, 1, 1, 1, 1, 1, 1, 1, 1, 1, 1, 1, 1, 1, 1, 1,
   2, 2, 2, 2, 2, 2, 2, 2, 2, 2, 2, 2, 2, 2, 2, 2,
   3, 3, 3, 3, 3, 0, 0, 0, 0, 0, 0, 0, 0, 0, 0, 0]

structure Decoder where
  codePoint : ℕ
  utf8BytesSeen : ℕ
  utf8BytesNeeded : ℕ
  lowerBound : ℕ
  upperBound : ℕ
  deriving DecidableEq, Repr

def Decoder.start : Decoder := ⟨0, 0, 0, 0x80, 0xbf⟩

/-- The branch for `utf8BytesNeeded == 0`; the other variables still have their first values. -/
def firstByte (b : ℕ) : JString × Decoder :=
  if b &&& 0x80 = 0 then ([b], .start)
  else if b &&& 0x40 = 0 then ([REPLACEMENT_CHAR], .start)
  else
    let utf8BytesNeeded := TABLE_UTF8_NEEDED.getD (b &&& 0x3f) 0
    if utf8BytesNeeded = 0 then ([REPLACEMENT_CHAR], .start)
    else
      ([], { codePoint := b &&& (0x3f >>> utf8BytesNeeded)
             utf8BytesSeen := 0
             utf8BytesNeeded
             lowerBound := if b = 0xe0 then 0xa0 else if b = 0xf0 then 0x90 else 0x80
             upperBound := if b = 0xed then 0x9f else if b = 0xf4 then 0x8f else 0xbf })

/-- One byte, with what it appends; a byte that does not continue the sequence is read again
as a first byte. -/
def nextByte (d : Decoder) (b : ℕ) : JString × Decoder :=
  if d.utf8BytesNeeded = 0 then firstByte b
  else if b < d.lowerBound ∨ d.upperBound < b then
    let (s, d') := firstByte b
    (REPLACEMENT_CHAR :: s, d')
  else
    let codePoint := d.codePoint <<< 6 ||| b &&& 0x3f
    let utf8BytesSeen := d.utf8BytesSeen + 1
    if d.utf8BytesNeeded ≠ utf8BytesSeen then
      ([], ⟨codePoint, utf8BytesSeen, d.utf8BytesNeeded, 0x80, 0xbf⟩)
    else if codePoint < 0x10000 then ([codePoint], .start)
    else ([(codePoint >>> 10) + 0xd7c0, (codePoint &&& 0x3ff) + 0xdc00], .start)

def decode (d : Decoder) : List UInt8 → JString
  | [] => if d.utf8BytesNeeded ≠ 0 then [REPLACEMENT_CHAR] else []
  | b :: bs => (nextByte d b.toNat).1 ++ decode (nextByte d b.toNat).2 bs

/-- `newStringFromBytes` with the default charset. -/
def newStringFromBytes (data : List UInt8) : JString := decode .start data

end StringUtils

end MirrorCast
