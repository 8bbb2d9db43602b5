import Mathlib.Algebra.Ring.Nat
import Mathlib.Tactic.Common

/-! # ADTS frames and `AudioSpecificConfig`, read as ISO 13818-7 and 14496-3 define them -/

namespace Adts

/-- The fields of the header that describe the frame. -/
structure Header where
  profile : ℕ
  samplingFrequencyIndex : ℕ
  channelConfiguration : ℕ
  frameLength : ℕ
  deriving DecidableEq, Repr

/-- The header of seven bytes, without a CRC, and what follows it. -/
def parse : List UInt8 → Option (Header × List UInt8)
  | sync :: b1 :: b2 :: b3 :: b4 :: b5 :: _ :: rest =>
      if sync ≠ 0xff ∨ b1 &&& 0xf7 ≠ 0xf1 then none
      else
        some ({
          profile := (b2 >>> 6).toNat
          samplingFrequencyIndex := (b2 >>> 2 &&& 0x0f).toNat
          channelConfiguration := (b2 &&& 1).toNat * 4 + (b3 >>> 6).toNat
          frameLength := (b3 &&& 3).toNat * 2 ^ 11 + b4.toNat * 2 ^ 3 + (b5 >>> 5).toNat }, rest)
  | _ => none

/-- The fields of a configuration. -/
structure Config where
  objectType : ℕ
  samplingFrequencyIndex : ℕ
  channelConfiguration : ℕ
  deriving DecidableEq, Repr

/-- Five, four and four bits. -/
def Config.ofBytes (c0 c1 : UInt8) : Config where
  objectType := c0.toNat / 8
  samplingFrequencyIndex := c0.toNat % 8 * 2 + c1.toNat / 128
  channelConfiguration := c1.toNat / 8 % 16

end Adts
