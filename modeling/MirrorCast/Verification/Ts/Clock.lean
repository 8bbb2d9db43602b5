import MirrorCast.Verification.Ts.Continuity

/-! # The program clock reference -/

namespace MirrorCast.Ts

open Java MpegTs TSPacketizer

/-! ## Arithmetic -/

/-- The low 33 bits, taken apart at bits 9, 17 and 25. -/
theorem base_parts (base : ℕ) : base % 2 ^ 33 =
    base / 2 ^ 25 % 256 * 2 ^ 25 + base / 2 ^ 17 % 256 * 2 ^ 17 + base / 2 ^ 9 % 256 * 2 ^ 9 +
      base % 512 := by
  have h33 : base % 2 ^ 33 = base / 2 ^ 25 % 256 * 2 ^ 25 + base % 2 ^ 25 := by omega
  have h25 : base % 2 ^ 25 = base / 2 ^ 17 % 256 * 2 ^ 17 + base % 2 ^ 17 := by omega
  have h17 : base % 2 ^ 17 = base / 2 ^ 9 % 256 * 2 ^ 9 + base % 512 := by omega
  rw [h33, h25, h17, Nat.add_assoc, Nat.add_assoc]

theorem ticks_mod {ticks base ext : ℕ} (h : ticks = base * 300 + ext) (hext : ext < 300) :
    ticks % (300 * 2 ^ 33) = (base % 2 ^ 33) * 300 + ext := by
  have hquot : ticks / 300 = base := by omega
  have hrem : ticks % 300 = ext := by omega
  rw [Nat.mod_mul, hquot, hrem]
  omega

/-- The low bits could only agree for an extension of 211, where the ticks are no multiple
of 27; the high ones are those of the base. -/
theorem shifted_ne {nowUs base ext high low read extRead : ℕ}
    (hticks : nowUs * 27 = base * 300 + ext) (hones : read / 2 % 128 = 126 + ext / 256)
    (hbit : read % 2 = ext % 256 / 128) (hextRead : extRead = ext % 2 * 256 + 255) :
    ((high + read) * 300 + extRead) % (300 * 2 ^ 33) ≠ (high + low) * 300 + ext := by
  omega

theorem ones_read {base ext : ℕ} (hext : ext < 300) :
    ((base % 2 * 128 + 126 + ext / 256) * 2 + ext % 256 / 128) / 2 % 128 = 126 + ext / 256 := by
  have hhalf (middle last : ℕ) (hlast : last < 2) : (middle * 2 + last) / 2 = middle := by omega
  rw [hhalf _ _ (by omega)]
  omega

/-! ## The bytes of the packet -/

theorem low_bit (b : UInt8) :
    (b &&& 1 = 0 ∧ b.toNat % 2 = 0 ∨ b &&& 1 = 1 ∧ b.toNat % 2 = 1) ∧
      (b >>> 7).toNat = b.toNat / 128 := by
  revert b
  decide +kernel

/-- The byte with the last bit of the base, the reserved ones and the first bit of the
extension. -/
theorem toNat_middle (base ext : UInt8) :
    ((base &&& 1) <<< 7 ||| 0x7e ||| (ext &&& 1)).toNat =
      base.toNat % 2 * 128 + 126 + ext.toNat % 2 := by
  rcases (low_bit base).1 with ⟨hb, hb'⟩ | ⟨hb, hb'⟩
  · rcases (low_bit ext).1 with ⟨he, he'⟩ | ⟨he, he'⟩ <;> rw [hb, hb', he, he'] <;> rfl
  · rcases (low_bit ext).1 with ⟨he, he'⟩ | ⟨he, he'⟩ <;> rw [hb, hb', he, he'] <;> rfl

theorem toNat_low_bit (b : UInt8) : (b &&& 1).toNat = b.toNat % 2 := by
  rcases (low_bit b).1 with ⟨hb, hb'⟩ | ⟨hb, hb'⟩ <;> rw [hb, hb'] <;> rfl

theorem toNat_toByte_natCast (n : ℕ) : (toByte (n : ℤ)).toNat = n % 256 := by
  rw [toNat_toByte]
  omega

section Packet

variable {nowUs : ℕ}

/-- Base and extension of a clock that does not overflow. -/
theorem clock_eq (hnow : nowUs * 27 < 2 ^ 63) :
    (int64 (nowUs * 27)).tdiv 300 = (nowUs * 27 / 300 : ℕ) ∧
      (int64 (nowUs * 27)).tmod 300 = (nowUs * 27 % 300 : ℕ) := by
  rw [int64_eq (by omega) (by omega), Int.tdiv_eq_ediv_of_nonneg (by omega),
    Int.tmod_eq_emod_of_nonneg (by omega)]
  omega

/-- What the five bytes and the filler behind them decode to. -/
theorem parsePcr_pcrPacket (hnow : nowUs * 27 < 2 ^ 63) (rest : List UInt8) :
    parsePcr (pcrPacket nowUs ++ 0xff :: rest) =
      some (nowUs * 27 / 300 / 2 ^ 25 % 256 * 2 ^ 25 + nowUs * 27 / 300 / 2 ^ 17 % 256 * 2 ^ 17 +
          nowUs * 27 / 300 / 2 ^ 9 % 256 * 2 ^ 9 +
          (nowUs * 27 / 300 % 2 * 128 + 126 + nowUs * 27 % 300 / 256) * 2 +
          nowUs * 27 % 300 % 256 / 128,
        nowUs * 27 % 300 % 2 * 256 + 255) := by
  obtain ⟨hbase, hext⟩ := clock_eq hnow
  have hbyte (n k : ℕ) : (toByte ((n : ℤ) / 2 ^ k)).toNat = n / 2 ^ k % 256 := by
    rw [← toNat_toByte_natCast]
    push_cast
    rfl
  have hguard : ¬ ((0x20 : UInt8) >>> 4 &&& 2 = 0 ∨ (0xb7 : UInt8) < 7 ∨
      (0x10 : UInt8) &&& 0x10 = 0) := by decide
  have hhalf : nowUs * 27 / 300 % 256 % 2 = nowUs * 27 / 300 % 2 := by omega
  have hbit : nowUs * 27 % 300 / 2 ^ 8 % 256 % 2 = nowUs * 27 % 300 / 256 := by omega
  have hlow : nowUs * 27 % 300 % 256 % 2 = nowUs * 27 % 300 % 2 := by omega
  unfold pcrPacket
  simp only [hbase, hext, List.cons_append, List.nil_append, parsePcr]
  rw [if_neg hguard, hbyte, hbyte, hbyte, toNat_middle, (low_bit _).2, toNat_low_bit,
    toNat_toByte_natCast, toNat_toByte_natCast, hbyte, hhalf, hbit, hlow]
  rfl

/-- The value is not the one that went in. -/
theorem parsePcr_fillUp (hnow : nowUs * 27 < 2 ^ 63) :
    ∃ pcr, parsePcr ((fillUp (pcrPacket nowUs)).take 188) = some pcr ∧
      clockTicks pcr % (300 * 2 ^ 33) ≠ nowUs * 27 % (300 * 2 ^ 33) := by
  have hfilled : (fillUp (pcrPacket nowUs)).take 188 =
      pcrPacket nowUs ++ 0xff :: List.replicate 176 0xff := rfl
  rw [hfilled, parsePcr_pcrPacket hnow]
  refine ⟨_, rfl, ?_⟩
  have hticks : nowUs * 27 = nowUs * 27 / 300 * 300 + nowUs * 27 % 300 := by omega
  have hlt : nowUs * 27 % 300 < 300 := Nat.mod_lt _ (by decide)
  rw [ticks_mod hticks hlt, base_parts, clockTicks]
  dsimp only
  generalize nowUs * 27 / 300 = base at hticks ⊢
  generalize nowUs * 27 % 300 = ext at hticks hlt ⊢
  rw [Nat.add_assoc _ (_ * 2)]
  exact shifted_ne hticks (ones_read hlt) (by omega) rfl

end Packet

/-! ## The clock reference of a call -/

/-- The packet with the clock reference, behind those of the tables. -/
def clockPacket (a : Args) (bytes : List UInt8) : List UInt8 :=
  (bytes.drop (188 * if a.emitsTables then 2 else 0)).take 188

/-- The clock reference decodes to the time the call has read, in ticks of 27 MHz. -/
def ClockExact (a : Args) (bytes : List UInt8) : Prop :=
  ∃ pcr, parsePcr (clockPacket a bytes) = some pcr ∧
    clockTicks pcr % (300 * 2 ^ 33) = (a.nowUs * 27).toNat % (300 * 2 ^ 33)

theorem clockPacket_eq {s : TSPacketizer} {a : Args} {r : Packetized} {bytes : List UInt8}
    (hs : Reachable s) (hpcr : a.emitsPCR) (hr : s.packetize a = .ok r)
    (hbytes : r.packets = some bytes) :
    clockPacket a bytes = (fillUp (pcrPacket a.nowUs)).take 188 := by
  have hrange : ∀ t ∈ s.mTracks, TrackInRange t :=
    fun t ht => ((sound_of_reachable hs).tracks t ht).range
  cases result_packetize hrange hr with
  | rejected => cases hbytes
  | @emitted s' track carrier unit header tables packets ts _ _ _ _ htables _ hleading =>
      cases hbytes
      have hcount : tables.length = if a.emitsTables then 2 else 0 := by
        cases htables with
        | omitted hnot => rw [if_neg hnot]; rfl
        | written hyes => rw [if_pos hyes]; rfl
      have hfront : tables.flatten.length = 188 * if a.emitsTables then 2 else 0 := by
        rw [length_flatten_packets fun p hp => (hleading p (List.mem_append_left _ hp)).1, hcount]
      rw [clockPacket, clockPackets, if_pos hpcr, List.append_assoc, List.flatten_append,
        List.drop_left' hfront, List.flatten_append, List.flatten_singleton,
        List.take_left' (length_take_fillUp _)]

/-- The clock reference is never right: bits 8 to 1 of its base are missing. -/
theorem clock_never_exact {s : TSPacketizer} {a : Args} {r : Packetized} {bytes : List UInt8}
    (hs : Reachable s) (hpcr : a.emitsPCR) (hr : s.packetize a = .ok r)
    (hbytes : r.packets = some bytes) (hlo : 0 ≤ a.nowUs) (hhi : a.nowUs * 27 < 2 ^ 63) :
    ¬ ClockExact a bytes := by
  rintro ⟨pcr, hparse, hexact⟩
  obtain ⟨nowUs, hnow⟩ := Int.eq_ofNat_of_zero_le hlo
  rw [clockPacket_eq hs hpcr hr hbytes, hnow] at hparse
  obtain ⟨pcr', hparse', hne⟩ := parsePcr_fillUp (show nowUs * 27 < 2 ^ 63 by omega)
  rw [hparse] at hparse'
  cases hparse'
  apply hne
  rw [hexact, hnow]
  rfl

def clockArgs : Args := ⟨0, ⟨[7], 0, false⟩, EMIT_PCR, none, 0, 0, 1000000⟩

theorem exists_clock : ∃ r bytes, avcPacketizer.packetize clockArgs = .ok r ∧
    r.packets = some bytes := by
  have hsome : ((avcPacketizer.packetize clockArgs).toOption.bind
    Packetized.packets).isSome = true := by decide +kernel
  cases hr : avcPacketizer.packetize clockArgs with
  | error e =>
      rw [hr] at hsome
      cases hsome
  | ok r =>
      rw [hr] at hsome
      obtain ⟨bytes, hbytes⟩ := Option.isSome_iff_exists.mp hsome
      exact ⟨r, bytes, rfl, hbytes⟩

theorem clock_never_exact_oneSecond :
    ∃ r bytes, avcPacketizer.packetize clockArgs = .ok r ∧ r.packets = some bytes ∧
      ¬ ClockExact clockArgs bytes := by
  obtain ⟨r, bytes, hr, hbytes⟩ := exists_clock
  exact ⟨r, bytes, hr, hbytes, clock_never_exact (admissible_zeros 0).reachable (by decide) hr
    hbytes (by decide) (by decide)⟩

theorem clock_exact_fails : ¬ ∀ (s : TSPacketizer) (a : Args) (r : Packetized)
    (bytes : List UInt8), Reachable s → a.emitsPCR → s.packetize a = .ok r →
      r.packets = some bytes → 0 ≤ a.nowUs → a.nowUs * 27 < 2 ^ 63 → ClockExact a bytes := by
  intro h
  obtain ⟨r, bytes, hr, hbytes⟩ := exists_clock
  obtain ⟨pcr, hparse, hexact⟩ := h _ _ r bytes (admissible_zeros 0).reachable (by decide) hr
    hbytes (by decide) (by decide)
  rw [clockPacket_eq (admissible_zeros 0).reachable (by decide) hr hbytes] at hparse
  have hread : parsePcr ((fillUp (pcrPacket clockArgs.nowUs)).take 188) =
      some (89852, 255) := by decide +kernel
  rw [hread] at hparse
  cases hparse
  revert hexact
  decide

end MirrorCast.Ts
