import MirrorCast.Library.Outcomes
import MirrorCast.Library.Rfc6184
import MirrorCast.Program.RTPAssembler

/-! # What the assembler makes of a packet -/

namespace MirrorCast.RTPAssembler.H264Assembler

open Java AnnexB Rfc6184
open ANetworkSession (OK)
open Errno (ERROR_MALFORMED)

/-! ## Operations on buffers -/

section

variable {α : Type} {s : H264Assembler} {Q : α → H264Assembler → Prop}
  {E : JavaException → H264Assembler → Prop}

theorem newABuffer_bind {capacity : ℤ} {f : ABuffer → Handler α} (h : 0 ≤ capacity)
    (hf : Ends (f ⟨List.replicate capacity.toNat 0, capacity, none, none⟩) s Q E) :
    Ends (newABuffer capacity >>= f) s Q E := by
  rw [newABuffer, if_neg (not_lt.mpr h)]
  exact hf

theorem newABuffer_negative {capacity : ℤ} {f : ABuffer → Handler α} (h : capacity < 0)
    (hE : E .illegalArgument s) : Ends (newABuffer capacity >>= f) s Q E := by
  rw [newABuffer, if_pos h]
  exact hE

theorem getByte_bind {data : List UInt8} {index : ℕ} {f : UInt8 → Handler α} {b : UInt8}
    (h : data[index]? = some b) (hf : Ends (f b) s Q E) : Ends (getByte data index >>= f) s Q E := by
  rw [getByte, h]
  exact hf

theorem slice_bind {data : List UInt8} {position : ℕ} {f : List UInt8 → Handler α}
    (h : position ≤ data.length) (hf : Ends (f (data.drop position)) s Q E) :
    Ends (slice data position >>= f) s Q E := by
  rw [slice, if_neg (not_lt.mpr h)]
  exact hf

/-- The bytes up to the limit are the ones that are meant. -/
theorem limited_bind {data bytes : List UInt8} {limit : ℤ} {f : List UInt8 → Handler α}
    (h : bytes <+: data) (hlimit : limit = bytes.length) (hf : Ends (f bytes) s Q E) :
    Ends (limited data limit >>= f) s Q E := by
  have hle := h.length_le
  rw [limited, if_neg (by omega), hlimit, Int.toNat_natCast, ← List.prefix_iff_eq_take.mp h]
  exact hf

theorem put_bind {data src : List UInt8} {position : ℤ} {f : List UInt8 → Handler α}
    (hlo : 0 ≤ position) (hhi : position + src.length ≤ data.length)
    (hf : Ends (f (blit data position.toNat src)) s Q E) :
    Ends (put data position src >>= f) s Q E := by
  rw [put, if_neg (by omega), if_neg (by omega)]
  exact hf

theorem setRange_bind {buffer : ABuffer} {size : ℤ} {f : ABuffer → Handler α}
    (h : size ≤ buffer.data.length) (hf : Ends (f { buffer with size }) s Q E) :
    Ends (setRange buffer size >>= f) s Q E := by
  rw [setRange, if_neg (not_lt.mpr h)]
  exact hf

theorem getInt_bind {value : Option ℤ} {v : ℤ} {f : ℤ → Handler α} (h : value = some v)
    (hf : Ends (f v) s Q E) : Ends (getInt value >>= f) s Q E := by
  subst h
  exact hf

theorem getInt_none {value : Option ℤ} {f : ℤ → Handler α} (h : value = none)
    (hE : E .noSuchElement s) : Ends (getInt value >>= f) s Q E := by
  subst h
  exact hE

/-- A buffer that is full. -/
def full (bytes : List UInt8) (rtpTime : Option ℤ) : ABuffer := ⟨bytes, bytes.length, rtpTime, none⟩

@[simp] theorem full_data (bytes : List UInt8) (rtpTime : Option ℤ) :
    (full bytes rtpTime).data = bytes := rfl

@[simp] theorem full_size (bytes : List UInt8) (rtpTime : Option ℤ) :
    (full bytes rtpTime).size = bytes.length := rfl

/-- The time of a buffer that has been replaced by a larger one: the smallest integer gets lost. -/
def kept (rtpTime : Option ℤ) : Option ℤ :=
  if rtpTime.getD (-2 ^ 31) ≠ -2 ^ 31 then some (rtpTime.getD (-2 ^ 31)) else none

theorem append_first {srcData bytes : List UInt8} {size : ℤ} (h : s.mAccumulator = none)
    (hsrc : bytes <+: srcData) (hsize : size = bytes.length) :
    Ends (appendToAccumulator srcData size) s
      (fun _ t => t = { s with mAccumulator := some (full bytes none) }) E := by
  refine .get_bind ?_
  rw [h]
  refine newABuffer_bind (by omega) (.modify_bind (limited_bind hsrc hsize ?_))
  refine put_bind le_rfl (by simp [hsize]) (.modify ?_)
  rw [hsize, Int.toNat_zero, blit_whole (by simp)]
  rfl

theorem grow_bind {done : List UInt8} {rtpTime : Option ℤ} {capacity : ℕ}
    {f : ABuffer → Handler α} (h : done.length ≤ capacity)
    (hf : Ends (f ⟨done ++ List.replicate (capacity - done.length) 0, done.length, kept rtpTime, none⟩)
      s Q E) :
    Ends (grow (full done rtpTime) capacity >>= f) s Q E := by
  have hlength : (List.replicate capacity (0 : UInt8)).length = capacity := List.length_replicate
  have hblit : blit (List.replicate capacity 0) 0 done =
      done ++ List.replicate (capacity - done.length) 0 := by
    rw [blit_zero, List.drop_replicate]
  rw [grow, bind_assoc]
  refine newABuffer_bind (Int.natCast_nonneg capacity) ?_
  rw [bind_assoc]
  refine limited_bind (List.prefix_refl done) rfl ?_
  rw [bind_assoc, Int.toNat_natCast]
  refine put_bind le_rfl (by simp [h]) ?_
  rw [bind_assoc, Int.toNat_zero, hblit]
  refine setRange_bind (by simp [full]) ?_
  rw [pure_bind]
  convert hf using 2
  unfold kept full
  split <;> rfl

/-- The end of `appendToAccumulator`, with room for exactly the bytes that are added. -/
theorem write_ends {srcData done bytes room : List UInt8} {accumulator : ABuffer}
    (hdata : accumulator.data = done ++ room) (hsize : accumulator.size = done.length)
    (hsrc : bytes <+: srcData) (hroom : room.length = bytes.length)
    (hfits : (done ++ bytes).length < 2 ^ 31) :
    Ends (do
      let src ← limited srcData bytes.length
      let data ← put accumulator.data accumulator.size src
      let accumulator ← setRange { accumulator with data } (int32 (accumulator.size + bytes.length))
      modify fun s => { s with mAccumulator := some accumulator }) s
      (fun _ t => t =
        { s with
          mAccumulator := some
            ⟨done ++ bytes, (done ++ bytes).length, accumulator.RTP_TIME, accumulator.MARKER⟩ })
      E := by
  have hblit : blit (done ++ room) done.length bytes = done ++ bytes := by
    rw [blit_append rfl, List.drop_of_length_le hroom.le, List.append_nil]
  have hsum : int32 (accumulator.size + bytes.length) = (done ++ bytes).length := by
    rw [List.length_append] at hfits ⊢
    rw [hsize, int32_eq (by omega) (by omega), Nat.cast_add]
  refine limited_bind hsrc rfl (put_bind (by omega) (by simp [hdata, hsize, hroom]) ?_)
  rw [hsum, hdata, hsize, Int.toNat_natCast, hblit]
  exact setRange_bind le_rfl (.modify rfl)

/-- Bytes are added behind the others; the sizes of both are those of Java arrays. -/
theorem append_next {srcData done bytes : List UInt8} {rtpTime : Option ℤ} {size : ℤ}
    (h : s.mAccumulator = some (full done rtpTime)) (hsrc : bytes <+: srcData)
    (hsize : size = bytes.length) (hdone : done.length < 2 ^ 31) (hbytes : bytes.length < 2 ^ 31) :
    Ends (appendToAccumulator srcData size) s
      (fun _ t => (done ++ bytes).length < 2 ^ 31 ∧ t =
        { s with
          mAccumulator :=
            some (full (done ++ bytes) (if bytes = [] then rtpTime else kept rtpTime)) })
      fun _ _ => 2 ^ 31 ≤ (done ++ bytes).length := by
  subst hsize
  have hlength : (done ++ bytes).length = done.length + bytes.length := List.length_append
  by_cases hfits : (done ++ bytes).length < 2 ^ 31
  · have hsum : int32 ((full done rtpTime).size + bytes.length) = (done ++ bytes).length := by
      rw [full_size, hlength, int32_eq (by omega) (by omega), Nat.cast_add]
    by_cases hnil : bytes = []
    · have hstays : ¬ (full done rtpTime).data.length < int32 ((full done rtpTime).size +
          bytes.length) := by
        rw [hsum]
        simp [hnil]
      have hroom : ([] : List UInt8).length = bytes.length := by rw [hnil]
      have hdata : (full done rtpTime).data = done ++ [] := (List.append_nil _).symm
      refine .get_bind ?_
      simp only [h, if_neg hstays, if_pos hnil, pure_bind]
      exact (write_ends hdata rfl hsrc hroom hfits).mono (fun _ _ ht => ⟨hfits, ht⟩) fun _ _ h => h
    · have hpos : 0 < bytes.length := List.length_pos_iff.mpr hnil
      have hgrows : (full done rtpTime).data.length < int32 ((full done rtpTime).size +
          bytes.length) := by
        rw [hsum, full_data]
        omega
      refine .get_bind ?_
      simp only [h, if_pos hgrows, if_neg hnil, pure_bind]
      rewrite [hsum]
      refine grow_bind (by omega) (.modify_bind ?_)
      refine (write_ends rfl rfl hsrc ?_ hfits).mono (fun _ _ ht => ⟨hfits, ht⟩) fun _ _ h => h
      rw [List.length_replicate]
      omega
  · -- the sum has become negative, so the buffer is not replaced
    have hneg : int32 ((full done rtpTime).size + bytes.length) < 0 := by
      rw [full_size, int32_wraps (by omega) (by omega)]
      omega
    have hstays : ¬ (full done rtpTime).data.length < int32 ((full done rtpTime).size +
          bytes.length) :=
      not_lt.mpr (hneg.le.trans (Int.natCast_nonneg _))
    have hput : put (full done rtpTime).data (full done rtpTime).size bytes =
        throw .bufferOverflow := by
      rw [full_data, full_size, put, if_neg (by omega), if_pos (by omega)]
    refine .get_bind ?_
    simp only [h, if_neg hstays, pure_bind]
    refine limited_bind hsrc rfl ?_
    simp only [hput]
    exact not_lt.mp hfits

/-! ## Adding and flushing NAL units -/

/-- The first unit takes its time from the accumulator, whatever packet it comes in. -/
theorem addSingleNALUnit_ends (packet : ABuffer) :
    Ends (addSingleNALUnit packet) s
      (fun _ t => (s.mNALUnits = [] → ∃ accumulator, s.mAccumulator = some accumulator ∧
          accumulator.RTP_TIME ≠ none) ∧
        ∃ rtpTime, t =
          { s with mAccessUnitRTPTime := rtpTime, mNALUnits := s.mNALUnits ++ [packet] })
      fun _ _ => s.mNALUnits = [] ∧
        ∀ accumulator, s.mAccumulator = some accumulator → accumulator.RTP_TIME = none := by
  refine .get_bind (.ite (fun hnil => ?_) fun hne => ?_)
  · split
    next hnone => exact .throw ⟨hnil, fun accumulator hsome => absurd (hnone.symm.trans hsome) nofun⟩
    next accumulator hsome =>
      cases htime : accumulator.RTP_TIME with
      | none =>
          refine getInt_none rfl ⟨hnil, ?_⟩
          intro other hother
          cases hsome.symm.trans hother
          exact htime
      | some rtpTime =>
          refine getInt_bind rfl (.modify_bind (.modify ⟨fun _ => ⟨accumulator, hsome, ?_⟩, ?_⟩))
          · simp [htime]
          · exact ⟨rtpTime, rfl⟩
  · exact .modify ⟨fun hnil => absurd hnil hne, s.mAccessUnitRTPTime, rfl⟩

/-- The unit is these bytes. -/
structure Holds (unit : ABuffer) (nal : NalUnit) : Prop where
  size : unit.size = nal.bytes.length
  data : nal.bytes <+: unit.data

def content (nals : List NalUnit) : List UInt8 := nals.flatMap NalUnit.bytes

/-- The start buffer is put before the first unit only. -/
theorem putUnits_ends {totalSize : ℤ} {units : List ABuffer} {nals : List NalUnit}
    (h : List.Forall₂ Holds units nals) {dstData : List UInt8} (hdst : dstData.length ≤ totalSize)
    (hne : units = [] → s.NAL_START_BUFFER = []) :
    Ends (putUnits totalSize units dstData) s
      (fun result t => t = { s with NAL_START_BUFFER := [] } ∧
        result = dstData ++ s.NAL_START_BUFFER ++ content nals ∧ result.length ≤ totalSize)
      fun _ _ => totalSize < (dstData ++ s.NAL_START_BUFFER ++ content nals).length := by
  induction h generalizing s dstData with
  | nil =>
      refine .pure ⟨?_, ?_, hdst⟩
      · rw [← hne rfl]
      · simp [hne rfl, content]
  | cons hunit _ ih =>
      rename_i unit nal units nals _
      refine .get_bind (.ite (fun hover => .throw ?_) fun _ => .modify_bind ?_)
      · simp only [List.length_append]
        omega
      · refine limited_bind hunit.data hunit.size (.ite (fun hover => .throw ?_) fun hfits => ?_)
        · simp only [content, List.flatMap_cons, List.length_append]
          omega
        · refine (ih (by simp only [List.length_append]; omega) fun _ => rfl).mono ?_ ?_
          · rintro result t ⟨rfl, rfl, hle⟩
            exact ⟨rfl, by simp [content], hle⟩
          · intro _ _ hover
            simpa [content] using hover

/-- The sizes of the units with a start code before each. -/
def total (nals : List NalUnit) : ℕ := (nals.map fun nal => 4 + nal.bytes.length).sum

theorem foldl_total {units : List ABuffer} {nals : List NalUnit} (h : List.Forall₂ Holds units nals)
    (n : ℤ) :
    units.foldl (fun total unit => int32 (total + (4 + unit.size))) (int32 n) =
      int32 (n + total nals) := by
  induction h generalizing n with
  | nil => simp [total]
  | cons hunit _ ih =>
      rw [List.foldl_cons, int32_int32_add, ih, hunit.size]
      congr 1
      simp only [total, List.map_cons, List.sum_cons]
      push_cast
      ring

theorem total_eq (nals : List NalUnit) : total nals = 4 * nals.length + (content nals).length := by
  induction nals with
  | nil => rfl
  | cons nal nals ih =>
      simp only [total, content, List.map_cons, List.sum_cons, List.flatMap_cons,
        List.length_append, List.length_cons] at ih ⊢
      omega

/-- The access unit has the start buffer and the units in it, and zeros for the rest. -/
theorem flushAccessUnit_ends {nals : List NalUnit} (h : List.Forall₂ Holds s.mNALUnits nals)
    (hne : nals ≠ []) :
    Ends flushAccessUnit s
      (fun _ t => ∃ (zeros : ℕ) (timeUs : ℤ),
        ((s.NAL_START_BUFFER ++ content nals).length + zeros : ℤ) = int32 (total nals) ∧
        t =
          { s with
            mNALUnits := []
            NAL_START_BUFFER := []
            posted := s.posted ++
              [⟨s.NAL_START_BUFFER ++ content nals ++ List.replicate zeros 0, timeUs⟩] })
      fun _ _ => s.NAL_START_BUFFER.length ≤ 4 → 2 ^ 31 ≤ total nals := by
  have hunits : s.mNALUnits ≠ [] := by
    intro hnil
    rw [hnil] at h
    cases h
    exact hne rfl
  have hlength : 0 < nals.length := List.length_pos_iff.mpr hne
  have htotal := total_eq nals
  have hsize : s.mNALUnits.foldl (fun total unit => int32 (total + (4 + unit.size))) 0 =
      int32 (total nals) := by
    have hfold := foldl_total h 0
    rwa [zero_add] at hfold
  have hsmall : total nals < 2 ^ 31 → int32 (total nals) = total nals := int32_natCast
  refine .get_bind (.ite (fun hnil => absurd hnil hunits) fun _ => ?_)
  simp only [hsize]
  generalize int32 (total nals) = totalSize at hsmall ⊢
  rcases lt_or_ge totalSize 0 with hneg | hnonneg
  · refine newABuffer_negative hneg ?_
    intro _
    by_contra hlt
    have heq := hsmall (by omega)
    omega
  · refine newABuffer_bind hnonneg ?_
    refine .seq (putUnits_ends h (by simpa using hnonneg) fun hnil => absurd hnil hunits) ?_ ?_
    · intro _ _ hover hstart
      by_contra hlt
      have heq := hsmall (by omega)
      simp only [List.nil_append, List.length_append] at hover
      omega
    · rintro result t ⟨rfl, rfl, hle⟩
      rw [List.nil_append] at hle ⊢
      simp only [blit_zero, List.drop_replicate]
      exact .modify_bind (.modify ⟨totalSize.toNat - (s.NAL_START_BUFFER ++ content nals).length,
        (int32 (s.mAccessUnitRTPTime * 100)).tdiv 9, by omega, rfl⟩)

end

end MirrorCast.RTPAssembler.H264Assembler
