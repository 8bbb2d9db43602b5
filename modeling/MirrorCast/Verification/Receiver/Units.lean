import MirrorCast.Verification.Receiver.Parts

/-! # What the assembler makes of access units -/

namespace MirrorCast.RTPAssembler.H264Assembler

open Java AnnexB Rfc6184

/-- An access unit that is sent as a series of packets, the last one with a marker. -/
structure SentUnit where
  parts : List Part
  packets : List ABuffer
  marker : ℤ
  parts_ne_nil : parts ≠ []
  valid : ∀ part ∈ parts, part.Valid
  carried : List.Forall₂ Carried (parts.flatMap Part.payloads) packets
  marker_ne_zero : marker ≠ 0
  marked : Marked marker packets

namespace SentUnit

def nals (unit : SentUnit) : List NalUnit := unit.parts.flatMap Part.nals

/-- The time of the first packet. -/
def rtpTime (unit : SentUnit) : Option ℤ := unit.packets.head?.bind (·.RTP_TIME)

/-- The unit is one NAL unit that fits into a Java array with its start code and is sent in
fragments. The smallest integer is a time only if the fragments behind the first are empty. -/
def Fragmented (unit : SentUnit) : Prop :=
  ∃ nal first middle last, unit.parts = [.fragmentation nal first middle last] ∧
    4 + nal.bytes.length < 2 ^ 31 ∧
    (unit.rtpTime ≠ some (-2 ^ 31) ∨ middle.flatten ++ last = [])

end SentUnit

/-- No packet throws, and each marker posts the access unit as a byte stream. -/
def Inverts (startBuffer : List UInt8) (units : List SentUnit) : Prop :=
  ∃ t, (receive (units.flatMap (·.packets))).run (new startBuffer) = (.ok (), t) ∧
    t.posted.map (·.data) = units.map fun unit => byteStream unit.nals

section

variable {s u : H264Assembler} {Q : Unit → H264Assembler → Prop}
  {E : JavaException → H264Assembler → Prop}

theorem receive_append (ps qs : List ABuffer) :
    receive (ps ++ qs) = receive ps >>= fun _ => receive qs := by
  induction ps with
  | nil => rfl
  | cons p ps ih =>
      rw [List.cons_append, receive, receive, ih, bind_assoc]

/-- The packets of some parts, then those of the others. -/
theorem marked_append {marker : ℤ} {ps qs : List ABuffer} (hps : ps ≠ []) (hqs : qs ≠ []) :
    Marked marker (ps ++ qs) ↔ Marked 0 ps ∧ Marked marker qs := by
  induction ps with
  | nil => exact absurd rfl hps
  | cons p ps ih =>
      rw [List.cons_append, marked_cons (by simp [hqs])]
      by_cases hnil : ps = []
      · rw [hnil]
        rfl
      · rw [ih hnil, marked_cons hnil, and_assoc]

theorem carried_append {ps qs : List (List UInt8)} {packets : List ABuffer}
    (h : List.Forall₂ Carried (ps ++ qs) packets) :
    ∃ xs ys, packets = xs ++ ys ∧ List.Forall₂ Carried ps xs ∧ List.Forall₂ Carried qs ys :=
  ⟨_, _, (List.take_append_drop ps.length packets).symm,
    (List.forall₂_take_append _ _ _ h.flip).flip, (List.forall₂_drop_append _ _ _ h.flip).flip⟩

theorem timeAfter_ne_none {rtpTime : ℤ} {rest : List UInt8} :
    timeAfter rtpTime rest ≠ none ↔ rtpTime ≠ -2 ^ 31 ∨ rest = [] := by
  unfold timeAfter kept
  by_cases hrest : rest = []
  · simp [hrest]
  · by_cases htime : rtpTime = -2 ^ 31 <;> simp [hrest, htime]

/-- Between access units, after these byte sequences have been posted. -/
structure Closed (s t : H264Assembler) (more : List (List UInt8)) : Prop where
  mState : t.mState = 0
  mAccumulator : t.mAccumulator = none
  mNALUnits : t.mNALUnits = []
  posted : t.posted.map (·.data) = s.posted.map (·.data) ++ more

theorem Closed.refl {more : List (List UInt8)} (h : Closed s u more) : Closed u u [] :=
  ⟨h.mState, h.mAccumulator, h.mNALUnits, (List.append_nil _).symm⟩

theorem Closed.trans {t : H264Assembler} {more more' : List (List UInt8)} (h : Closed s u more)
    (h' : Closed u t more') : Closed s t (more ++ more') :=
  ⟨h'.mState, h'.mAccumulator, h'.mNALUnits, by
    rw [h'.posted, h.posted, List.append_assoc]⟩

theorem settle_ends {marker : ℤ} {units : List ABuffer} {nals : List NalUnit} (hmarker : marker ≠ 0)
    (hleads : Leads s u units) (hunits : List.Forall₂ Holds units nals) (hne : nals ≠ []) :
    Ends (settle marker) u
      (fun _ t => t.NAL_START_BUFFER = [] ∧ ∃ zeros : ℕ,
        ((s.NAL_START_BUFFER ++ content nals).length + zeros : ℤ) = int32 (total nals) ∧
          Closed s t [s.NAL_START_BUFFER ++ content nals ++ List.replicate zeros 0])
      fun _ _ => s.NAL_START_BUFFER.length ≤ 4 → 2 ^ 31 ≤ total nals := by
  rw [settle, if_pos hmarker]
  have hflush := flushAccessUnit_ends (hleads.mNALUnits.symm ▸ hunits) hne
  rw [hleads.NAL_START_BUFFER] at hflush
  refine hflush.mono ?_ fun _ _ h => h
  rintro _ t ⟨zeros, timeUs, hzeros, rfl⟩
  refine ⟨rfl, zeros, hzeros, hleads.mState, hleads.mAccumulator, rfl, ?_⟩
  simp [hleads.posted]

theorem head_time {payloads : List (List UInt8)} {packets : List ABuffer} (hne : payloads ≠ [])
    (h : List.Forall₂ Carried payloads packets) :
    ∃ rtpTime, packets.head?.bind (·.RTP_TIME) = some rtpTime := by
  cases h with
  | nil => exact absurd rfl hne
  | cons hpacket _ =>
      obtain ⟨rtpTime, htime⟩ := hpacket.time
      exact ⟨rtpTime, htime⟩

/-! ## One fragmented unit -/

theorem inverts_fragmented {unit : SentUnit} (h : unit.Fragmented) :
    Inverts NAL_START_BYTE [unit] := by
  obtain ⟨nal, first, middle, last, hparts, hfits, htime⟩ := h
  have hvalid := unit.valid
  have hcarried := unit.carried
  rw [hparts] at hvalid hcarried
  rw [List.flatMap_singleton] at hcarried
  obtain ⟨rtpTime, hhead⟩ := head_time (Part.payloads_ne_nil _) hcarried
  have htotal : total [nal] = 4 + nal.bytes.length := by simp [total]
  have hkept : timeAfter rtpTime (middle.flatten ++ last) ≠ none := by
    rw [timeAfter_ne_none]
    refine htime.imp_left fun hne heq => hne ?_
    rw [SentUnit.rtpTime, hhead, heq]
  have hends : Ends (receive unit.packets) (new NAL_START_BYTE)
      (fun _ t => t.posted.map (·.data) = [byteStream [nal]]) fun _ _ => False := by
    refine receive_fragmentation rfl (hvalid _ (by simp)) hcarried unit.marked hhead
      (fun hlong => by omega) (fun _ hnone => absurd hnone hkept) ?_
    intro u whole _ hwhole hleads _
    refine (settle_ends unit.marker_ne_zero hleads (.cons hwhole .nil) (by simp)).mono ?_ ?_
    · rintro _ t ⟨-, zeros, hzeros, hclosed⟩
      rw [htotal, int32_natCast hfits] at hzeros
      have hnone : zeros = 0 := by
        simp only [new, NAL_START_BYTE, content, List.flatMap_singleton, List.length_append,
          List.length_cons, List.length_nil] at hzeros
        omega
      have hposted := hclosed.posted
      rw [hnone, List.replicate_zero, List.append_nil] at hposted
      rw [hposted, byteStream_singleton, content, List.flatMap_singleton]
      rfl
    · intro _ _ hover
      have hlong := hover (by decide)
      omega
  obtain ⟨_, t, hrun, hposted⟩ := hends.returns
  refine ⟨t, ?_, ?_⟩
  · rw [List.flatMap_singleton]
    exact hrun
  · rw [hposted]
    simp [SentUnit.nals, hparts, Part.nals]

/-! ## Access units of several parts -/

/-- The units kept after some parts of an access unit. -/
def Midway (done : List Part) (s u : H264Assembler) : Prop :=
  ∃ units nals, Leads s u units ∧ List.Forall₂ Holds units nals ∧
    3 * nals.length ≤ (byteStream (done.flatMap Part.nals)).length ∧
    ∀ nal, nals = [nal] → nal ∈ done.flatMap Part.nals

theorem length_byteStream_append (nals nals' : List NalUnit) :
    (byteStream (nals ++ nals')).length = (byteStream nals).length + (byteStream nals').length := by
  rw [byteStream_append, List.length_append]

theorem length_byteStream_singleton (nal : NalUnit) :
    (byteStream [nal]).length = 4 + nal.bytes.length := by
  rw [byteStream_singleton, List.length_append]
  rfl

/-- A start code is longer than a size. -/
theorem length_aggregated_le (nals : List NalUnit) :
    (nals.flatMap fun nal => aggregationUnit nal.bytes).length ≤ (byteStream nals).length := by
  induction nals with
  | nil => exact le_rfl
  | cons nal nals ih =>
      have hcons : byteStream (nal :: nals) = startCode ++ nal.bytes ++ byteStream nals := rfl
      rw [hcons, List.flatMap_cons]
      simp only [aggregationUnit, startCode, List.length_append, List.length_cons,
        List.length_nil] at ih ⊢
      omega

theorem settle_nil {marker : ℤ} (h : u.mNALUnits = []) : (settle marker).run u = (.ok (), u) := by
  have hflush : flushAccessUnit.run u = (.ok (), u) := by
    have hends : Ends flushAccessUnit u (fun _ t => t = u) fun _ _ => False :=
      .get_bind (.ite (fun _ => .pure rfl) fun hne => absurd h hne)
    obtain ⟨_, t, hrun, rfl⟩ := hends.returns
    exact hrun
  unfold settle
  split
  · exact hflush
  · rfl

/-- One more part, whatever it is. -/
theorem receive_part {done : List Part} {part : Part} {packets : List ABuffer} {marker : ℤ}
    (hu : Midway done s u) (hvalid : part.Valid)
    (hpackets : List.Forall₂ Carried part.payloads packets) (hmarked : Marked marker packets) :
    Ends (receive packets) u
      (fun _ t => ∃ v, Midway (done ++ [part]) s v ∧ (settle marker).run v = (.ok (), t))
      fun _ _ => True := by
  obtain ⟨units, nals, hleads, hunits, hlength, hsingle⟩ := hu
  have hdone : (done ++ [part]).flatMap Part.nals = done.flatMap Part.nals ++ part.nals := by
    rw [List.flatMap_append, List.flatMap_singleton]
  have hsettle (v : H264Assembler) (hv : Midway (done ++ [part]) s v) :
      Ends (settle marker) v
        (fun _ t => ∃ v, Midway (done ++ [part]) s v ∧ (settle marker).run v = (.ok (), t))
        fun _ _ => True :=
    Ends.self.mono (fun _ _ hrun => ⟨v, hv, hrun⟩) fun _ _ h => h
  have hadd {v : H264Assembler} {more : List ABuffer} {added : List NalUnit}
      (hv : Leads u v (u.mNALUnits ++ more)) (hmore : List.Forall₂ Holds more added)
      (hne : added ≠ []) (hbytes : 3 * added.length ≤ (byteStream part.nals).length)
      (hone : ∀ nal, added = [nal] → nal ∈ part.nals) : Midway (done ++ [part]) s v := by
    refine ⟨units ++ more, nals ++ added, ?_, List.rel_append hunits hmore, ?_, ?_⟩
    · exact ⟨hv.mState, hv.mAccumulator, by rw [hv.mNALUnits, hleads.mNALUnits],
        hv.NAL_START_BUFFER.trans hleads.NAL_START_BUFFER, hv.posted.trans hleads.posted⟩
    · rw [hdone, length_byteStream_append, List.length_append]
      omega
    · intro nal hnal
      rcases List.append_eq_singleton_iff.mp hnal with ⟨-, h⟩ | ⟨-, h⟩
      · rw [hdone]
        exact List.mem_append_right _ (hone nal h)
      · exact absurd h hne
  cases part with
  | single nal =>
      refine receive_single hleads.mState hleads.mAccumulator hpackets hmarked
        (fun _ _ _ => trivial) fun v unit _ hunit hv => hsettle v ?_
      refine hadd hv (.cons hunit .nil) (by simp) ?_ fun x hx => by cases hx; simp [Part.nals]
      rw [Part.nals, length_byteStream_singleton]
      have hpos := nal.length_bytes_pos
      simp only [List.length_singleton]
      omega
  | fragmentation nal first middle last =>
      obtain ⟨rtpTime, hhead⟩ := head_time (Part.payloads_ne_nil _) hpackets
      refine receive_fragmentation hleads.mState hvalid hpackets hmarked hhead
        (fun _ _ _ => trivial) (fun _ _ _ _ => trivial)
        fun v unit _ hunit hv _ => hsettle v ?_
      refine hadd hv (.cons hunit .nil) (by simp) ?_ fun x hx => by cases hx; simp [Part.nals]
      rw [Part.nals, length_byteStream_singleton]
      have hpos := nal.length_bytes_pos
      simp only [List.length_singleton]
      omega
  | aggregation header nals' =>
      cases nals' with
      | nil => exact absurd rfl hvalid.2.2.1
      | cons nal nals' =>
          refine receive_aggregation hleads.mState hleads.mAccumulator hvalid hpackets hmarked
            (fun _ _ _ => trivial) ?_ ?_
          · intro v _ hv
            refine ⟨v, ⟨[], [], ?_, .nil, by simp, nofun⟩, ?_⟩
            · exact ⟨hv.mState, hv.mAccumulator, hv.mNALUnits,
                hv.NAL_START_BUFFER.trans hleads.NAL_START_BUFFER, hv.posted.trans hleads.posted⟩
            · exact settle_nil hv.mNALUnits
          · intro v more copies _ hmore hcopies hle hv
            refine hsettle v (hadd hv hmore ?_ ?_ ?_)
            · simpa using hcopies.ne'
            · have hpos := nal.length_bytes_pos
              have hbytes := hle.trans (length_aggregated_le (nal :: nals'))
              rw [List.length_replicate]
              calc 3 * copies = copies * 3 := Nat.mul_comm _ _
                _ ≤ copies * (2 + nal.bytes.length) := Nat.mul_le_mul_left _ (by omega)
                _ ≤ (byteStream (nal :: nals')).length := hbytes
            · intro x hx
              obtain rfl : x = nal :=
                List.eq_of_mem_replicate (hx ▸ List.mem_singleton.mpr rfl : x ∈ List.replicate _ _)
              simp [Part.nals]

/-- The parts of an access unit, by induction on them. -/
theorem receive_parts {done parts : List Part} {packets : List ABuffer} {marker : ℤ}
    (hne : parts ≠ []) (hu : Midway done s u) (hvalid : ∀ part ∈ parts, part.Valid)
    (hpackets : List.Forall₂ Carried (parts.flatMap Part.payloads) packets)
    (hmarked : Marked marker packets) :
    Ends (receive packets) u
      (fun _ t => ∃ v, Midway (done ++ parts) s v ∧ (settle marker).run v = (.ok (), t))
      fun _ _ => True := by
  induction parts generalizing done u packets with
  | nil => exact absurd rfl hne
  | cons part parts ih =>
      by_cases hnil : parts = []
      · subst hnil
        rw [List.flatMap_singleton] at hpackets
        exact receive_part hu (hvalid part (by simp)) hpackets hmarked
      · rw [List.flatMap_cons] at hpackets
        obtain ⟨ps, qs, rfl, hps, hqs⟩ := carried_append hpackets
        have hps' : ps ≠ [] := by
          rintro rfl
          exact Part.payloads_ne_nil part (List.forall₂_nil_right_iff.mp hps)
        have hqs' : qs ≠ [] := by
          rintro rfl
          obtain ⟨other, others, rfl⟩ := List.exists_cons_of_ne_nil hnil
          have hempty := List.forall₂_nil_right_iff.mp hqs
          rw [List.flatMap_cons] at hempty
          exact Part.payloads_ne_nil other (List.append_eq_nil_iff.mp hempty).1
        obtain ⟨hfirst, hrest⟩ := (marked_append hps' hqs').mp hmarked
        rw [receive_append]
        refine .bind (receive_part hu (hvalid part (by simp)) hps hfirst) ?_
        rintro _ t ⟨v, hv, hrun⟩
        rw [settle, if_neg (by simp)] at hrun
        cases hrun
        have htail := ih hnil hv (fun p hp => hvalid p (by simp [hp])) hqs hrest
        rwa [List.append_assoc] at htail

/-! ## What is posted -/

/-- What a marker may lead to: nothing, or an access unit that starts with the start buffer and
the header of a NAL unit. It has the bytes it should have only if `P` holds. -/
def Posts (nals : List NalUnit) (P : Prop) (s t : H264Assembler) : Prop :=
  Closed s t [] ∧ t.NAL_START_BUFFER = s.NAL_START_BUFFER ∨
    ∃ data, Closed s t [data] ∧ t.NAL_START_BUFFER = [] ∧
      (∃ b bs, data = s.NAL_START_BUFFER ++ b :: bs ∧ b ≠ 0) ∧
      (s.NAL_START_BUFFER.length ≤ 4 → data = byteStream nals → P)

theorem length_byteStream_pos {nals : List NalUnit} (hne : nals ≠ []) :
    0 < (byteStream nals).length := by
  cases nals with
  | nil => exact absurd rfl hne
  | cons nal nals => exact Nat.succ_pos _

theorem lt_length_byteStream {nals : List NalUnit} {nal : NalUnit} (hmem : nal ∈ nals)
    (htwo : 2 ≤ nals.length) : 4 + nal.bytes.length < (byteStream nals).length := by
  obtain ⟨xs, ys, rfl⟩ := List.append_of_mem hmem
  have hcons : (byteStream (nal :: ys)).length = 4 + nal.bytes.length + (byteStream ys).length := by
    rw [← List.singleton_append, length_byteStream_append, length_byteStream_singleton]
  rw [length_byteStream_append, hcons]
  by_cases hxs : xs = []
  · have hys : ys ≠ [] := by
      rintro rfl
      simp [hxs] at htwo
    have hpos := length_byteStream_pos hys
    omega
  · have hpos := length_byteStream_pos hxs
    omega

theorem content_head {nals : List NalUnit} (hne : nals ≠ []) :
    ∃ b bs, content nals = b :: bs ∧ b ≠ 0 := by
  cases nals with
  | nil => exact absurd rfl hne
  | cons nal nals => exact ⟨nal.header, nal.body ++ content nals, rfl, nal.header_ne_zero⟩

/-- Several NAL units are not posted as they should be: only one start code is put, so zeros are
left at the end. -/
theorem ne_byteStream {startBuffer : List UInt8} {sent nals : List NalUnit} {zeros : ℕ}
    (hstart : startBuffer.length ≤ 4) (hsent : 2 ≤ sent.length)
    (hlength : 3 * nals.length ≤ (byteStream sent).length) (hne : nals ≠ [])
    (hone : ∀ nal, nals = [nal] → nal ∈ sent)
    (hzeros : ((startBuffer ++ content nals).length + zeros : ℤ) = int32 (total nals)) :
    startBuffer ++ content nals ++ List.replicate zeros 0 ≠ byteStream sent := by
  intro heq
  have hlengths := congrArg List.length heq
  have htotal := total_eq nals
  have hmod := int32_emod (total nals)
  have hcut : total nals < 2 ^ 31 → int32 (total nals) = total nals := int32_natCast
  obtain ⟨-, hbound⟩ := int32_bounds (total nals)
  generalize int32 (total nals) = totalSize at *
  simp only [List.length_append, List.length_replicate] at hlengths hzeros
  push_cast at hzeros
  have hpos : 0 < nals.length := List.length_pos_iff.mpr hne
  rcases Nat.lt_or_ge nals.length 2 with hlt | hge
  · obtain ⟨nal, rfl⟩ := List.length_eq_one_iff.mp (show nals.length = 1 by omega)
    have hlonger := lt_length_byteStream (hone nal rfl) hsent
    have hbytes : content [nal] = nal.bytes := List.append_nil _
    rw [hbytes] at htotal hlengths hzeros
    rw [List.length_singleton] at htotal
    have hsize := hcut (by omega)
    omega
  · cases zeros with
    | zero => omega
    | succ zeros =>
        rw [List.replicate_succ', ← List.append_assoc] at heq
        exact byteStream_last _ heq.symm

theorem posts_of_midway {parts : List Part} {v t : H264Assembler} {marker : ℤ}
    (hmarker : marker ≠ 0) (hv : Midway parts s v) (hrun : (settle marker).run v = (.ok (), t))
    (htwo : 2 ≤ (parts.flatMap Part.nals).length) :
    Posts (parts.flatMap Part.nals) False s t := by
  obtain ⟨units, nals, hleads, hunits, hlength, hone⟩ := hv
  by_cases hne : nals = []
  · subst hne
    have hnil : units = [] := List.forall₂_nil_right_iff.mp hunits
    rw [settle_nil (hleads.mNALUnits.trans hnil)] at hrun
    cases hrun
    refine .inl ⟨⟨hleads.mState, hleads.mAccumulator, hleads.mNALUnits.trans hnil, ?_⟩,
      hleads.NAL_START_BUFFER⟩
    rw [hleads.posted, List.append_nil]
  · obtain ⟨hstart, zeros, hzeros, hclosed⟩ := (settle_ends hmarker hleads hunits hne).of_ok hrun
    obtain ⟨b, bs, hcontent, hb⟩ := content_head hne
    refine .inr ⟨_, hclosed, hstart, ⟨b, bs ++ List.replicate zeros 0, ?_, hb⟩, ?_⟩
    · rw [hcontent, List.append_assoc, List.cons_append]
    · intro hle
      exact ne_byteStream hle htwo hlength hne hone hzeros

theorem two_le_length {p q : Part} (hp : p.Valid) (hq : q.Valid) (parts : List Part) :
    2 ≤ ((p :: q :: parts).flatMap Part.nals).length := by
  have hp' := List.length_pos_iff.mpr (Part.nals_ne_nil hp)
  have hq' := List.length_pos_iff.mpr (Part.nals_ne_nil hq)
  simp only [List.flatMap_cons, List.length_append]
  omega

/-- One access unit from its first packet to its marker. -/
theorem receive_unit (unit : SentUnit) (hs : Closed s s []) :
    Ends (receive unit.packets) s (fun _ t => Posts unit.nals unit.Fragmented s t)
      fun _ _ => True := by
  obtain ⟨hstate, haccumulator, hnone, -⟩ := hs
  have hvalid := unit.valid
  have hcarried := unit.carried
  rw [SentUnit.nals]
  match hparts : unit.parts with
  | [] => exact absurd hparts unit.parts_ne_nil
  | [.single nal] =>
      rw [hparts, List.flatMap_singleton] at hcarried
      exact receive_single hstate haccumulator hcarried unit.marked (fun _ _ _ => trivial)
        fun _ _ hne => absurd hnone hne
  | [.aggregation header []] =>
      exact absurd rfl (hvalid (.aggregation header []) (by simp [hparts])).2.2.1
  | [.aggregation header (nal :: nals)] =>
      have hpart := hvalid (.aggregation header (nal :: nals)) (by simp [hparts])
      rw [hparts, List.flatMap_singleton] at hcarried
      exact receive_aggregation hstate haccumulator hpart hcarried unit.marked
        (fun _ _ _ => trivial) (fun _ hne => absurd hnone hne) fun _ _ _ hne => absurd hnone hne
  | [.fragmentation nal first middle last] =>
      have hpart := hvalid (.fragmentation nal first middle last) (by simp [hparts])
      rw [hparts, List.flatMap_singleton] at hcarried
      obtain ⟨rtpTime, hhead⟩ := head_time (Part.payloads_ne_nil _) hcarried
      refine receive_fragmentation hstate hpart hcarried unit.marked hhead (fun _ _ _ => trivial)
        (fun _ _ _ _ => trivial) fun u whole _ hwhole hleads hkept => ?_
      rw [hnone, List.nil_append] at hleads
      refine (settle_ends unit.marker_ne_zero hleads (.cons hwhole .nil) (by simp)).mono ?_
        fun _ _ _ => trivial
      rintro _ t ⟨hstart, zeros, hzeros, hclosed⟩
      refine .inr ⟨_, hclosed, hstart,
        ⟨nal.header, nal.body ++ List.replicate zeros 0, ?_, nal.header_ne_zero⟩, ?_⟩
      · simp [content, NalUnit.bytes]
      · intro _ heq
        refine ⟨nal, first, middle, last, hparts, ?_, ?_⟩
        · have hlengths := congrArg List.length heq
          have hbound := (int32_bounds (total [nal])).2
          rw [← hzeros] at hbound
          rw [List.flatMap_singleton, Part.nals, length_byteStream_singleton, List.length_append,
            List.length_replicate] at hlengths
          omega
        · refine (timeAfter_ne_none.mp (hkept hnone)).imp_left fun hne heq => hne ?_
          rw [SentUnit.rtpTime, hhead] at heq
          exact Option.some.inj heq
  | p :: q :: parts =>
      rw [hparts] at hvalid hcarried
      have hstart : Midway [] s s :=
        ⟨[], [], ⟨hstate, haccumulator, hnone, rfl, rfl⟩, .nil, by simp, by simp⟩
      refine (receive_parts (List.cons_ne_nil _ _) hstart hvalid hcarried unit.marked).mono ?_
        fun _ _ h => h
      · rintro _ t ⟨v, hv, hrun⟩
        have htwo := two_le_length (hvalid p (by simp)) (hvalid q (by simp)) parts
        have hposts := posts_of_midway unit.marker_ne_zero hv hrun htwo
        refine hposts.imp_right ?_
        rintro ⟨data, h1, h2, h3, h4⟩
        exact ⟨data, h1, h2, h3, fun hle heq => (h4 hle heq).elim⟩

/-! ## Many access units -/

/-- At most one byte sequence is posted for each access unit, and none of them has a start code
once the start buffer is empty. -/
theorem receive_units (units : List SentUnit) (hs : Closed s s []) :
    Ends (receive (units.flatMap (·.packets))) s
      (fun _ t => ∃ more, Closed s t more ∧ more.length ≤ units.length ∧
        (s.NAL_START_BUFFER = [] → ∀ data ∈ more, ∃ b bs, data = b :: bs ∧ b ≠ 0))
      fun _ _ => True := by
  induction units generalizing s with
  | nil => exact .pure ⟨[], hs, le_rfl, fun _ => nofun⟩
  | cons unit units ih =>
      rw [List.flatMap_cons, receive_append]
      refine .bind (receive_unit unit hs) ?_
      rintro _ t (⟨hclosed, hstart⟩ | ⟨data, hclosed, hstart, ⟨b, bs, hdata, hb⟩, -⟩)
      · refine (ih hclosed.refl).mono ?_ fun _ _ h => h
        rintro _ u ⟨more, hmore, hlength, hheads⟩
        exact ⟨more, hclosed.trans hmore, hlength.trans (Nat.le_succ _), fun h =>
          hheads (hstart.trans h)⟩
      · refine (ih hclosed.refl).mono ?_ fun _ _ h => h
        rintro _ u ⟨more, hmore, hlength, hheads⟩
        refine ⟨data :: more, hclosed.trans hmore, Nat.succ_le_succ hlength, fun h => ?_⟩
        rw [h, List.nil_append] at hdata
        exact List.forall_mem_cons.mpr ⟨⟨b, bs, hdata, hb⟩, hheads hstart⟩

theorem SentUnit.byteStream_nals (unit : SentUnit) :
    ∃ bytes, byteStream unit.nals = 0 :: 0 :: 0 :: 1 :: bytes := by
  obtain ⟨part, parts, hparts⟩ := List.exists_cons_of_ne_nil unit.parts_ne_nil
  have hne := Part.nals_ne_nil (unit.valid part (by simp [hparts]))
  obtain ⟨nal, nals, hnals⟩ := List.exists_cons_of_ne_nil hne
  exact ⟨_, by rw [SentUnit.nals, hparts, List.flatMap_cons, hnals]; rfl⟩

end

/-- The assembler inverts the packetization exactly if nothing is sent, or if the start buffer is
still unread and one access unit with one NAL unit is sent in fragments. -/
theorem inverts_iff (read : ℕ) (units : List SentUnit) :
    Inverts (NAL_START_BYTE.drop read) units ↔
      units = [] ∨ read = 0 ∧ ∃ unit, units = [unit] ∧ unit.Fragmented := by
  constructor
  · rintro ⟨t, hrun, hposted⟩
    cases units with
    | nil => exact .inl rfl
    | cons unit units =>
        have hstart : (NAL_START_BYTE.drop read).length ≤ 4 := by
          rw [List.length_drop]
          exact Nat.sub_le _ _
        have hends : Ends (receive ((unit :: units).flatMap (·.packets)))
            (new (NAL_START_BYTE.drop read))
            (fun _ t => t.posted.map (·.data) =
                ((unit :: units).map fun unit => byteStream unit.nals) →
              units = [] ∧ unit.Fragmented ∧ read = 0) fun _ _ => True := by
          rw [List.flatMap_cons, receive_append]
          refine .bind (receive_unit unit ⟨rfl, rfl, rfl, rfl⟩) ?_
          rintro _ u (⟨hclosed, -⟩ | ⟨data, hclosed, hempty, ⟨b, bs, hdata, hb⟩, hright⟩)
          · refine (receive_units units hclosed.refl).mono ?_ fun _ _ h => h
            rintro _ v ⟨more, hmore, hlength, -⟩ hall
            have hposted := (hclosed.trans hmore).posted
            have hlengths := congrArg List.length (hposted.symm.trans hall)
            simp only [new, List.map_nil, List.nil_append, List.length_map,
              List.length_cons] at hlengths
            omega
          · refine (receive_units units hclosed.refl).mono ?_ fun _ _ h => h
            rintro _ v ⟨more, hmore, -, hheads⟩ hall
            have hposted : data :: more =
                byteStream unit.nals :: units.map fun unit => byteStream unit.nals :=
              (hclosed.trans hmore).posted.symm.trans hall
            obtain ⟨hfirst, hrest⟩ := List.cons.inj hposted
            refine ⟨?_, hright hstart hfirst, ?_⟩
            · by_contra hne
              obtain ⟨next, others, rfl⟩ := List.exists_cons_of_ne_nil hne
              obtain ⟨c, cs, hc, hc0⟩ := hheads hempty (byteStream next.nals) (by simp [hrest])
              obtain ⟨bytes, hbytes⟩ := next.byteStream_nals
              rw [hbytes] at hc
              cases hc
              exact hc0 rfl
            · obtain ⟨bytes, hbytes⟩ := unit.byteStream_nals
              rw [hfirst, hbytes] at hdata
              rcases read with _ | _ | _ | _ | read <;>
                simp_all [new, NAL_START_BYTE]
        obtain ⟨hnil, hfragmented, hread⟩ := hends.of_ok hrun hposted
        exact .inr ⟨hread, unit, by rw [hnil], hfragmented⟩
  · rintro (rfl | ⟨rfl, unit, rfl, hfragmented⟩)
    · exact ⟨_, rfl, rfl⟩
    · exact inverts_fragmented hfragmented

/-- The smallest slice there is. -/
def smallSlice : NalUnit where
  header := 0x41
  body := [0x80]
  forbidden_zero := NalUnit.slice_header_lt
  type_bounds := NalUnit.slice_header_bounds
  no_start_code := by decide +kernel
  last_ne_zero := by decide

/-- It is sent in a packet of its own. -/
def single : SentUnit where
  parts := [.single smallSlice]
  packets := [⟨[0x41, 0x80], 2, some 3000, some 1⟩]
  marker := 1
  parts_ne_nil := by simp
  valid := by simp [Part.Valid]
  carried := .cons ⟨rfl, List.prefix_refl _, by decide, 3000, rfl⟩ .nil
  marker_ne_zero := by decide
  marked := rfl

/-- The accumulator is asked for the time although there is none. -/
theorem not_inverts_single : ¬ ∀ units, Inverts NAL_START_BYTE units := by
  intro h
  obtain ⟨t, hrun, -⟩ := h [single]
  have hthrows : ((receive single.packets).run (new NAL_START_BYTE)).1 = .error .nullPointer := rfl
  have hreturns := congrArg Prod.fst hrun
  rw [List.flatMap_singleton, hthrows] at hreturns
  cases hreturns

end MirrorCast.RTPAssembler.H264Assembler
