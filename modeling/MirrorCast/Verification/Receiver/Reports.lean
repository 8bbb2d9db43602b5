import MirrorCast.Library.Rfc3550
import MirrorCast.Program.RTPReceiver.Reports
import Mathlib.Algebra.BigOperators.Group.List.Basic
import Mathlib.Algebra.Group.Action.Defs

/-! # Receiver reports that can be read -/

namespace MirrorCast.RTPReceiver

open Java

/-! ## Writing into buffers -/

theorem blit_set {data : List UInt8} {index : ℕ} (h : index < data.length) (b : UInt8)
    (bytes : List UInt8) :
    blit (data.set index b) (index + 1) bytes = blit data index (b :: bytes) := by
  have htake : (data.set index b).take (index + 1) = data.take index ++ [b] := by
    rw [List.take_succ_eq_append_getElem (by rwa [List.length_set]), List.getElem_set_self,
      List.take_set_of_le le_rfl]
  have hdrop : (data.set index b).drop (index + 1 + bytes.length) =
      data.drop (index + (bytes.length + 1)) := by
    rw [List.drop_set_of_lt (by omega)]
    congr 1
    omega
  simp [blit, htake, hdrop]

theorem putIndices_eq {data : List UInt8} {index : ℕ} {bytes : List UInt8}
    (h : index + bytes.length ≤ data.length) :
    putIndices data index bytes = .ok (blit data index bytes) := by
  induction bytes generalizing data index with
  | nil => simp [putIndices, blit]
  | cons b bytes ih =>
      rw [List.length_cons] at h
      have hlt : index < data.length := by omega
      rw [putIndices, putIndex, if_pos hlt, ok_bind,
        ih (by rw [List.length_set]; omega), blit_set hlt]

theorem putIndices_append {pos : ℕ} {done rest bytes : List UInt8} (hpos : done.length = pos)
    (h : bytes.length ≤ rest.length) :
    putIndices (done ++ rest) pos bytes = .ok (done ++ bytes ++ rest.drop bytes.length) := by
  rw [putIndices_eq (by rw [List.length_append]; omega), blit_append hpos]

theorem putAt_append {pos : ℕ} {done rest bytes : List UInt8} (hpos : done.length = pos)
    (h : bytes.length ≤ rest.length) :
    putAt (done ++ rest) pos bytes = .ok (done ++ bytes ++ rest.drop bytes.length) :=
  putAt_eq_ok.mpr ⟨by rw [List.length_append]; omega, (blit_append hpos bytes rest).symm⟩

/-- What is done to the tail leaves the range as it is. -/
theorem onTail_eq {f : List UInt8 → Except JavaException (List UInt8)} {rest out : List UInt8}
    (h : f rest = .ok out) (done : List UInt8) :
    onTail ⟨done ++ rest, 0, done.length⟩ f = .ok ⟨done ++ out, 0, done.length⟩ := by
  have hfits : ¬ (done ++ rest).length < done.length := by
    rw [List.length_append]
    omega
  simp only [onTail, Nat.zero_add, if_neg hfits, List.drop_left, List.take_left, h]
  rfl

theorem setRange_eq {buf : ANetworkSession.ABuffer} {offset size : ℕ}
    (h : offset + size ≤ buf.mData.length) :
    buf.setRange offset size = .ok ⟨buf.mData, offset, size⟩ := by
  rw [ANetworkSession.ABuffer.setRange, if_neg (by omega)]

/-! ## Report blocks -/

/-- Without expected packets there is no division. -/
theorem fractionLost_ok (s : Source) : ∃ b, s.fractionLost = .ok b := by
  unfold Source.fractionLost
  dsimp only
  split
  · exact ⟨0, rfl⟩
  · rename_i h
    rw [not_or] at h
    rw [divide, if_neg h.1]
    exact ⟨_, rfl⟩

theorem length_reportBlock (s : Source) (ssrc : ℤ) (b : UInt8) :
    (s.reportBlock ssrc b).length = 24 := rfl

theorem addReportBlock_ok (s : Source) (ssrc : ℤ) (done : List UInt8) {rest : List UInt8}
    (h : 24 ≤ rest.length) :
    ∃ s' block, s.addReportBlock ssrc ⟨done ++ rest, 0, done.length⟩ =
        .ok (s', ⟨done ++ block ++ rest.drop 24, 0, done.length + 24⟩) ∧ block.length = 24 := by
  obtain ⟨b, hb⟩ := fractionLost_ok s
  have hlength := length_reportBlock s ssrc b
  have hput : onTail ⟨done ++ rest, 0, done.length⟩
      (fun bufData => putIndices bufData 0 (s.reportBlock ssrc b)) =
      .ok ⟨done ++ (s.reportBlock ssrc b ++ rest.drop 24), 0, done.length⟩ :=
    onTail_eq (by rw [putIndices_eq (by omega), blit_zero, hlength]) done
  refine ⟨{ s with mExpectedPrior := s.expected, mReceivedPrior := s.mReceived },
    s.reportBlock ssrc b, ?_, hlength⟩
  rw [Source.addReportBlock, hb, ok_bind, hput, ok_bind, setRange_eq (by simp [hlength]),
    ok_bind, List.append_assoc]
  rfl

/-- As many blocks are added as there are sources, up to the 32nd. -/
theorem addReportBlocks_ok {n : ℕ} (hn : n ≤ 32) {done rest : List UInt8}
    (hdone : done.length = 8 + 24 * n) (hrest : done.length + rest.length = 1472)
    (mSources : List (ℤ × Source)) :
    ∃ mSources' blocks rest', addReportBlocks n ⟨done ++ rest, 0, done.length⟩ mSources =
        .ok (mSources', n + blocks.length,
          ⟨done ++ List.flatten blocks ++ rest', 0, 8 + 24 * (n + blocks.length)⟩) ∧
      (∀ block ∈ blocks, block.length = 24) ∧ blocks.length = min mSources.length (32 - n) ∧
      8 + 24 * (n + blocks.length) + rest'.length = 1472 := by
  induction mSources generalizing n done rest with
  | nil => exact ⟨[], [], rest, by simp [addReportBlocks, hdone], by simp, by simp, by simp; omega⟩
  | cons entry mSources ih =>
      obtain ⟨ssrc, source⟩ := entry
      by_cases hfull : n = 32
      · subst hfull
        exact ⟨(ssrc, source) :: mSources, [], rest, by simp [addReportBlocks, hdone], by simp,
          by simp, by simp; omega⟩
      · have hroom : ¬ (31 < n ∨ (done ++ rest).length < done.length + 24) := by
          rw [List.length_append]
          omega
        obtain ⟨source', block, hadd, hblock⟩ :=
          addReportBlock_ok source ssrc done (show 24 ≤ rest.length by omega)
        have hdone' : (done ++ block).length = 8 + 24 * (n + 1) := by
          rw [List.length_append]
          omega
        have hsize : done.length + 24 = (done ++ block).length := by omega
        have hrest' : (done ++ block).length + (rest.drop 24).length = 1472 := by
          rw [List.length_drop]
          omega
        obtain ⟨mSources', blocks, rest', hloop, hblocks, hcount, hlength⟩ :=
          ih (by omega) hdone' hrest'
        have hnum : n + (block :: blocks).length = n + 1 + blocks.length := by
          rw [List.length_cons]
          omega
        refine ⟨(ssrc, source') :: mSources', block :: blocks, rest', ?_, ?_, ?_, ?_⟩
        · rw [addReportBlocks, if_neg hroom, hadd, ok_bind, hsize]
          dsimp only
          rw [hloop, ok_bind, hnum, List.flatten_cons, List.append_assoc done]
          rfl
        · intro b hb
          rcases List.mem_cons.mp hb with rfl | hb
          · exact hblock
          · exact hblocks b hb
        · simp only [List.length_cons, hcount]
          omega
        · rw [hnum]
          exact hlength

/-! ## The compound packet -/

/-- What follows the header of the SDES packet. -/
def sdesBody : List UInt8 := intBytes SOURCE_ID ++ sdesChunk

theorem length_sdesChunk : sdesChunk.length = 44 := by decide

theorem length_sdesBody : sdesBody.length = 48 := by decide

/-- The two bytes of the length field are left out first. -/
theorem putSDES_ok {rest : List UInt8} (h : 52 ≤ rest.length) :
    putSDES rest = .ok ((0x81 :: 202 :: 0 :: 12 :: sdesBody) ++ rest.drop 52) := by
  have hsplit : rest.drop 2 = (rest.drop 2).take 2 ++ rest.drop 4 := by
    rw [← List.drop_drop (i := 2) (j := 2), List.take_append_drop]
  have hgap : ((rest.drop 2).take 2).length = 2 := by
    rw [List.length_take, List.length_drop]
    omega
  generalize (rest.drop 2).take 2 = gap at hsplit hgap
  have hfirst : putIndices rest 0 [0x80 ||| 1, 202] =
      .ok ([0x81, 202] ++ gap ++ rest.drop 4) := by
    rw [putIndices_eq (by simp; omega), blit_zero, List.append_assoc, ← hsplit]
    rfl
  have hssrc : putIndices ([0x81, 202] ++ gap ++ rest.drop 4) 4 (intBytes SOURCE_ID) =
      .ok ([0x81, 202] ++ gap ++ intBytes SOURCE_ID ++ rest.drop 8) := by
    rw [putIndices_append (by simp [hgap]) (by simp [intBytes]; omega), List.drop_drop]
    rfl
  have hchunk : putAt ([0x81, 202] ++ gap ++ intBytes SOURCE_ID ++ rest.drop 8) 8 sdesChunk =
      .ok ([0x81, 202] ++ (gap ++ (sdesBody ++ rest.drop 52))) := by
    have hfits : sdesChunk.length ≤ (rest.drop 8).length := by
      rw [length_sdesChunk, List.length_drop]
      omega
    rw [putAt_append (by simp [hgap, intBytes]) hfits, length_sdesChunk, List.drop_drop]
    simp [sdesBody]
  have hwords : putIndices ([0x81, 202] ++ (gap ++ (sdesBody ++ rest.drop 52))) 2 [0, 12] =
      .ok ([0x81, 202] ++ [0, 12] ++ (sdesBody ++ rest.drop 52)) := by
    have hdrop : (gap ++ (sdesBody ++ rest.drop 52)).drop 2 = sdesBody ++ rest.drop 52 :=
      List.drop_left' hgap
    rw [putIndices_append (by rfl) (by simp [hgap])]
    exact congrArg (fun tail => Except.ok ([0x81, 202] ++ [0, 12] ++ tail)) hdrop
  rw [putSDES, hfirst, ok_bind, hssrc, ok_bind, hchunk, ok_bind]
  exact hwords

theorem addSDES_ok (done : List UInt8) {rest : List UInt8} (h : 52 ≤ rest.length) :
    addSDES ⟨done ++ rest, 0, done.length⟩ =
      .ok ⟨done ++ ((0x81 :: 202 :: 0 :: 12 :: sdesBody) ++ rest.drop 52), 0,
        done.length + 52⟩ := by
  have hsize : sdesSize = 52 := by decide
  rw [addSDES, onTail_eq (putSDES_ok h), ok_bind, hsize, setRange_eq]
  simp [length_sdesBody]

/-- The receiver report with these blocks. -/
def receiverReport (blocks : List (List UInt8)) : List UInt8 :=
  (0x80 ||| UInt8.ofNat blocks.length) :: 201 :: 0 :: UInt8.ofNat (1 + 6 * blocks.length) ::
    (intBytes SOURCE_ID ++ blocks.flatten)

def sdesPacket : List UInt8 := 0x81 :: 202 :: 0 :: 12 :: sdesBody

theorem length_flatten_blocks {blocks : List (List UInt8)}
    (h : ∀ block ∈ blocks, block.length = 24) : blocks.flatten.length = 24 * blocks.length := by
  rw [List.length_flatten, List.sum_eq_card_nsmul _ 24 (by simpa using h), List.length_map,
    smul_eq_mul, Nat.mul_comm]

theorem length_receiverReport {blocks : List (List UInt8)}
    (h : ∀ block ∈ blocks, block.length = 24) :
    (receiverReport blocks).length = 8 + 24 * blocks.length := by
  simp only [receiverReport, intBytes, List.length_cons, List.length_append, List.length_nil,
    length_flatten_blocks h]
  omega

theorem putCount_ok {blocks : List (List UInt8)} (hcount : blocks.length ≤ 32)
    (rest : List UInt8) :
    putCount (RR_BYTES ++ blocks.flatten ++ rest) blocks.length =
      .ok (receiverReport blocks ++ rest) := by
  have hhigh : toByte ((1 + 6 * (blocks.length : ℤ)) / 2 ^ 8) = 0 := by
    rw [show (1 + 6 * (blocks.length : ℤ)) / 2 ^ 8 = 0 by omega]
    rfl
  have hlow : toByte (1 + 6 * (blocks.length : ℤ)) = UInt8.ofNat (1 + 6 * blocks.length) :=
    toByte_natCast (1 + 6 * blocks.length)
  simp only [putCount, hhigh, hlow]
  rfl

/-- The call returns for any number of sources, and leaves out those behind the 32nd. -/
theorem onSendRR_ok (mSources : List (ℤ × Source)) :
    ∃ mSources' buf blocks, onSendRR mSources = .ok (mSources', buf) ∧
      buf.data = receiverReport blocks ++ sdesPacket ∧ (∀ block ∈ blocks, block.length = 24) ∧
      blocks.length = min mSources.length 32 := by
  have hzeros : RR_BYTES.length + ((List.replicate 1472 (0 : UInt8)).drop 8).length = 1472 := by
    rw [List.length_drop, List.length_replicate]
    rfl
  have hput : putAt (List.replicate 1472 (0 : UInt8)) 0 RR_BYTES =
      .ok (RR_BYTES ++ (List.replicate 1472 0).drop 8) :=
    putAt_eq_ok.mpr ⟨by rw [List.length_replicate]; decide, rfl⟩
  obtain ⟨mSources', blocks, rest, hloop, hblocks, hcount, hrest⟩ :=
    addReportBlocks_ok (Nat.zero_le 32) (show RR_BYTES.length = 8 + 24 * 0 from rfl) hzeros mSources
  rw [Nat.zero_add] at hloop hrest
  have hlength := length_receiverReport hblocks
  have hsds := addSDES_ok (receiverReport blocks) (show 52 ≤ rest.length by omega)
  refine ⟨mSources', ⟨receiverReport blocks ++ (sdesPacket ++ rest.drop 52), 0,
    (receiverReport blocks).length + 52⟩, blocks, ?_, ?_, hblocks, hcount⟩
  · have hroom : 0 + 8 ≤ (RR_BYTES ++ (List.replicate 1472 (0 : UInt8)).drop 8).length := by
      rw [List.length_append, hzeros]
      decide
    rw [onSendRR, newABuffer, MAX_UDP_PACKET_SIZE, setRange_eq (Nat.zero_le _), ok_bind, hput,
      ok_bind, setRange_eq hroom, ok_bind]
    refine (congrArg (· >>= _) hloop).trans ?_
    rw [ok_bind]
    dsimp only
    rw [putCount_ok (by omega), ok_bind, setRange_eq, ok_bind,
      show (1 + 6 * blocks.length + 1) * 4 = (receiverReport blocks).length by omega, hsds]
    · rfl
    · rw [List.length_append]
      omega
  · have hsize : sdesPacket.length = 52 := by decide
    rw [ANetworkSession.ABuffer.data, List.drop_zero, ← List.append_assoc, List.take_left']
    rw [List.length_append, hsize]

theorem header_bits : ∀ n < 32, (0x80 ||| UInt8.ofNat n).toNat / 64 = 2 ∧
    ((0x80 ||| UInt8.ofNat n) &&& 0x20 != 0) = false ∧
    ((0x80 ||| UInt8.ofNat n) &&& 0x1f).toNat = n := by decide

theorem isReport_of_blocks {blocks : List (List UInt8)}
    (hblocks : ∀ block ∈ blocks, block.length = 24) (hcount : blocks.length ≤ 31) :
    Rfc3550.IsReport (receiverReport blocks ++ sdesPacket) := by
  obtain ⟨hversion, hpadding, hfield⟩ := header_bits blocks.length (by omega)
  have hwords : (intBytes SOURCE_ID ++ blocks.flatten).length =
      4 * ((0 : UInt8).toNat * 2 ^ 8 + (UInt8.ofNat (1 + 6 * blocks.length)).toNat) := by
    rw [List.length_append, length_flatten_blocks hblocks, UInt8.toNat_ofNat']
    simp only [intBytes, List.length_cons, List.length_nil, UInt8.toNat_zero]
    omega
  refine ⟨_, _, ⟨2, false, 1, 202, sdesBody⟩,
    Rfc3550.read_append (0x80 ||| UInt8.ofNat blocks.length) 201 hwords sdesPacket,
    ⟨hversion, hpadding, rfl, ?_⟩, ?_, rfl, rfl⟩
  · exact ⟨intBytes SOURCE_ID, blocks, rfl, rfl, hblocks, hfield.symm, hcount⟩
  · have hsize : sdesBody.length = 4 * ((0 : UInt8).toNat * 2 ^ 8 + (12 : UInt8).toNat) := by
      decide
    have hread := Rfc3550.read_append 0x81 202 hsize []
    rwa [List.append_nil] at hread

/-- 32 blocks overflow the five bits of the count into the padding bit. -/
theorem not_isReport_of_blocks {blocks : List (List UInt8)} (hcount : blocks.length = 32) :
    ¬ Rfc3550.IsReport (receiverReport blocks ++ sdesPacket) := by
  intro hreport
  have hpadding := hreport.padding
  rw [hcount] at hpadding
  exact absurd hpadding (by decide)

/-- Every source of the map is reported if there are no more than the count can say. -/
theorem onSendRR_isReport_iff (mSources : List (ℤ × Source)) :
    (∃ mSources' buf, onSendRR mSources = .ok (mSources', buf) ∧ Rfc3550.IsReport buf.data) ↔
      mSources.length ≤ 31 := by
  obtain ⟨mSources', buf, blocks, hsend, hdata, hblocks, hcount⟩ := onSendRR_ok mSources
  constructor
  · rintro ⟨mSources'', buf', hsend', hreport⟩
    rw [hsend] at hsend'
    cases hsend'
    rw [hdata] at hreport
    by_contra hmany
    exact not_isReport_of_blocks (by omega) hreport
  · intro hfew
    refine ⟨mSources', buf, hsend, ?_⟩
    rw [hdata]
    exact isReport_of_blocks hblocks (by omega)

/-- The 32nd source makes the report unreadable. -/
theorem onSendRR_isReport_fails :
    let mSources : List (ℤ × Source) := (List.range 32).map fun ssrc : ℕ => ((ssrc : ℤ), Source.new)
    ¬ ∃ mSources' buf, onSendRR mSources = .ok (mSources', buf) ∧ Rfc3550.IsReport buf.data := by
  intro mSources
  obtain ⟨mSources', buf, blocks, hsend, hdata, -, hcount⟩ := onSendRR_ok mSources
  rintro ⟨mSources'', buf', hsend', hreport⟩
  rw [hsend] at hsend'
  cases hsend'
  rw [hdata] at hreport
  refine not_isReport_of_blocks ?_ hreport
  rw [hcount, List.length_map, List.length_range, Nat.min_self]

end MirrorCast.RTPReceiver
