import MirrorCast.Verification.Receiver.Assembly

/-! # What the assembler makes of a part of a series -/

namespace MirrorCast.RTPAssembler.H264Assembler

open Java AnnexB Rfc6184
open ANetworkSession (OK)
open Errno (ERROR_MALFORMED)

/-- The packet has the payload, and the metadata that the receiver always sets. -/
structure Carried (payload : List UInt8) (packet : ABuffer) : Prop where
  size : packet.size = payload.length
  data : payload <+: packet.data
  fits : payload.length < 2 ^ 31
  time : ∃ rtpTime, packet.RTP_TIME = some rtpTime

/-- The packets are processed one after the other. -/
def receive : List ABuffer → Handler Unit
  | [] => return ()
  | packet :: packets => do
      let _ ← processPacket packet
      receive packets

/-- The last packet has this marker, and the others have none. -/
def Marked (marker : ℤ) : List ABuffer → Prop
  | [] => False
  | [packet] => packet.MARKER = some marker
  | packet :: packets => packet.MARKER = some 0 ∧ Marked marker packets

theorem marked_cons {marker : ℤ} {packet : ABuffer} {packets : List ABuffer} (hne : packets ≠ []) :
    Marked marker (packet :: packets) ↔ packet.MARKER = some 0 ∧ Marked marker packets := by
  cases packets with
  | nil => exact absurd rfl hne
  | cons packet' packets => exact Iff.rfl

/-- What the marker asks for. -/
def settle (marker : ℤ) : Handler Unit := if marker ≠ 0 then flushAccessUnit else return ()

/-- No unit is being put together, and of the rest only the units are new. -/
structure Leads (s u : H264Assembler) (units : List ABuffer) : Prop where
  mState : u.mState = 0
  mAccumulator : u.mAccumulator = none
  mNALUnits : u.mNALUnits = units
  NAL_START_BUFFER : u.NAL_START_BUFFER = s.NAL_START_BUFFER
  posted : u.posted = s.posted

section

variable {α : Type} {s : H264Assembler} {Q : Unit → H264Assembler → Prop}
  {E : JavaException → H264Assembler → Prop} {packet : ABuffer} {marker : ℤ}

/-- A packet that is accepted is followed by what its marker asks for, another one by a reset. -/
theorem processPacket_ends {P : ℤ → H264Assembler → Prop} (hmarker : packet.MARKER = some marker)
    (hdispatch : Ends (dispatch packet) s P E)
    (hok : ∀ t, P OK t → Ends (settle marker) t Q E)
    (herr : ∀ err t, err ≠ OK → P err t →
      Q () { t with mNALUnits := [], mAccumulator := none, mState := 0 }) :
    Ends (processPacket packet) s (fun _ t => Q () t) E := by
  have hinternal : Ends (internalProcessPacket packet) s
      (fun err t => if err = OK then Q () t else P err t) E := by
    refine .bind hdispatch ?_
    intro err t ht
    refine .ite (fun herr => .pure ?_) fun hnot => ?_
    · rw [if_neg herr]
      exact ht
    · obtain rfl : err = OK := not_ne_iff.mp hnot
      refine getInt_bind hmarker (.when_bind (Q := Q) (fun hm => ?_) (fun hm => ?_)
        fun u hu => .pure ?_)
      · have hsettle := hok t ht
        rwa [settle, if_pos hm] at hsettle
      · have hsettle := hok t ht
        rwa [settle, if_neg hm] at hsettle
      · rw [if_pos rfl]
        exact hu
  refine .bind hinternal ?_
  intro err t ht
  by_cases herr' : err = OK
  · rw [if_pos herr'] at ht
    rw [if_neg (not_ne_iff.mpr herr')]
    exact .pure ht
  · rw [if_neg herr'] at ht
    rw [if_pos herr']
    exact .modify_bind (.pure (herr err t herr' ht))

/-! ## Fragments -/

/-- The bits of the headers of fragments. -/
theorem fragment_bits (header : UInt8) : header < 128 → 1 ≤ header &&& 0x1f →
    Part.fragmentIndicator header &&& 0x80 = 0 ∧ Part.fragmentIndicator header &&& 0x1f = 28 ∧
      (0x80 ||| unitType header) &&& 0x80 ≠ 0 ∧
      (0x80 ||| unitType header) &&& 0x1f = unitType header ∧
      (0x80 ||| unitType header) &&& 0x40 = 0 ∧
      unitType header &&& 0x80 = 0 ∧ unitType header &&& 0x1f = unitType header ∧
      unitType header &&& 0x40 = 0 ∧
      (0x40 ||| unitType header) &&& 0x80 = 0 ∧
      (0x40 ||| unitType header) &&& 0x1f = unitType header ∧
      (0x40 ||| unitType header) &&& 0x40 ≠ 0 ∧
      unitType header ||| (((Part.fragmentIndicator header >>> 5) &&& 3) <<< 5) = header := by
  revert header
  decide +kernel

/-- The time the accumulator has once these bytes have been added to the first fragment. -/
def timeAfter (rtpTime : ℤ) (rest : List UInt8) : Option ℤ :=
  if rest = [] then some rtpTime else kept (some rtpTime)

theorem kept_kept (rtpTime : Option ℤ) : kept (kept rtpTime) = kept rtpTime := by
  by_cases h : rtpTime.getD (-2 ^ 31) ≠ -2 ^ 31
  · have hsome : kept rtpTime = some (rtpTime.getD (-2 ^ 31)) := if_pos h
    rw [hsome, kept, Option.getD_some, if_pos h]
  · have hnone : kept rtpTime = none := if_neg h
    rw [hnone]
    rfl

theorem timeAfter_append (rtpTime : ℤ) (rest bytes : List UInt8) :
    (if bytes = [] then timeAfter rtpTime rest else kept (timeAfter rtpTime rest)) =
      timeAfter rtpTime (rest ++ bytes) := by
  by_cases hbytes : bytes = []
  · rw [if_pos hbytes, hbytes, List.append_nil]
  · have happend : timeAfter rtpTime (rest ++ bytes) = kept (some rtpTime) :=
      if_neg (by simp [hbytes])
    rw [if_neg hbytes, happend, timeAfter]
    split
    · rfl
    · exact kept_kept _

/-- A unit with this header is being put together. -/
structure Collecting (header : UInt8) (done : List UInt8) (rtpTime : Option ℤ)
    (s u : H264Assembler) : Prop where
  mState : u.mState = 1
  mIndicator : u.mIndicator = Part.fragmentIndicator header
  mNALType : u.mNALType = unitType header
  mAccumulator : u.mAccumulator = some (full done rtpTime)
  mNALUnits : u.mNALUnits = s.mNALUnits
  NAL_START_BUFFER : u.NAL_START_BUFFER = s.NAL_START_BUFFER
  posted : u.posted = s.posted

theorem Carried.getElem? {payload : List UInt8} {i : ℕ} {b : UInt8} (h : Carried payload packet)
    (hb : payload[i]? = some b) : packet.data[i]? = some b := by
  obtain ⟨rest, hrest⟩ := h.data
  have hi : i < payload.length := (List.getElem?_eq_some_iff.mp hb).1
  rw [← hrest, List.getElem?_append_left hi, hb]

/-- The first fragment. -/
theorem firstFragment_ends {nal : NalUnit} {first : List UInt8} {rtpTime : ℤ}
    (hstate : s.mState = 0)
    (hpacket : Carried (Part.fragmentIndicator nal.header :: (0x80 ||| unitType nal.header) :: first)
      packet) (htime : packet.RTP_TIME = some rtpTime) :
    Ends (dispatch packet) s
      (fun err t => err = OK ∧ Collecting nal.header (nal.header :: first) (some rtpTime) s t) E := by
  obtain ⟨hforbidden, htype, hstart, htype', hend, -, -, -, -, -, -, hheader⟩ :=
    fragment_bits nal.header nal.forbidden_zero nal.type_bounds.1
  have hsize := hpacket.size
  have hfits := hpacket.fits
  simp only [List.length_cons] at hsize hfits
  have hfirst : first <+: packet.data.drop 2 := hpacket.data.drop 2
  have hlength := hpacket.data.length_le
  simp only [List.length_cons] at hlength
  refine .get_bind (.ite (fun _ => ?_) fun h => absurd hstate h)
  refine getByte_bind (hpacket.getElem? rfl) (.ite (fun h => ?_) fun _ => ?_)
  · rcases h with h | h
    · omega
    · exact absurd hforbidden h
  refine .ite (fun h => ?_) fun _ => .ite (fun _ => ?_) fun h => absurd htype h
  · rw [htype] at h
    exact absurd h.2 (by decide)
  refine .ite (fun h => by omega) fun _ => ?_
  refine getByte_bind (hpacket.getElem? rfl) (.ite (fun h => absurd h hstart) fun _ => ?_)
  simp only [htype', hheader]
  refine .modify_bind (.modify_bind ?_)
  refine .bind (append_first rfl (List.prefix_refl _) rfl) ?_
  rintro _ t rfl
  refine slice_bind (by omega) ?_
  have hrest : packet.size - 2 = first.length := by omega
  have hnext := append_next (s := { s with
      mIndicator := Part.fragmentIndicator nal.header
      mNALType := unitType nal.header
      mAccumulator := some (full [nal.header] none) })
    rfl hfirst hrest (by simp) (by omega)
  refine .bind (hnext.mono (fun _ _ h => h) fun _ _ h => ?_) ?_
  · simp only [List.length_append, List.length_singleton] at h
    omega
  · rintro _ t ⟨-, rfl⟩
    refine getInt_bind htime (.modify_bind (.ite (fun h => absurd hend h) fun _ => ?_))
    exact .modify_bind (.pure ⟨rfl, rfl, rfl, rfl, rfl, rfl, rfl, rfl⟩)

/-- A further fragment: the last one makes the accumulator a NAL unit. -/
theorem furtherFragment_ends {header data1 : UInt8} {done fragment : List UInt8}
    {rtpTime rtpTime' : Option ℤ} {s₀ : H264Assembler} (h : Collecting header done rtpTime s₀ s)
    (htype : data1 &&& 0x1f = unitType header) (hstart : data1 &&& 0x80 = 0)
    (hpacket : Carried (Part.fragmentIndicator header :: data1 :: fragment) packet)
    (hdone : done.length < 2 ^ 31)
    (htime : rtpTime' = if fragment = [] then rtpTime else kept rtpTime)
    (hover : 2 ^ 31 ≤ (done ++ fragment).length → ∀ e t, E e t)
    (hlost : data1 &&& 0x40 ≠ 0 → s₀.mNALUnits = [] → rtpTime' = none → ∀ e t, E e t) :
    Ends (dispatch packet) s
      (fun err t => err = OK ∧ (done ++ fragment).length < 2 ^ 31 ∧
        (data1 &&& 0x40 = 0 → Collecting header (done ++ fragment) rtpTime' s₀ t) ∧
        (data1 &&& 0x40 ≠ 0 →
          Leads s₀ t (s₀.mNALUnits ++ [full (done ++ fragment) rtpTime']) ∧
            (s₀.mNALUnits = [] → rtpTime' ≠ none))) E := by
  have hsize := hpacket.size
  have hfits := hpacket.fits
  have hlength := hpacket.data.length_le
  simp only [List.length_cons] at hsize hfits hlength
  refine .get_bind (.ite (fun h0 => absurd (h.mState.symm.trans h0) (by decide)) fun _ =>
    .ite (fun _ => ?_) fun h1 => absurd h.mState h1)
  refine getByte_bind (hpacket.getElem? rfl) (getByte_bind (hpacket.getElem? rfl) (.get_bind ?_))
  refine .ite (fun hbad => ?_) fun _ => slice_bind (by omega) ?_
  · rcases hbad with hbad | hbad | hbad | hbad
    · omega
    · exact absurd h.mIndicator.symm hbad
    · exact absurd (htype.trans h.mNALType.symm) hbad
    · exact absurd hstart hbad
  have hfragment : fragment <+: packet.data.drop 2 := hpacket.data.drop 2
  have hrest : packet.size - 2 = fragment.length := by omega
  have hnext := append_next h.mAccumulator hfragment hrest hdone (by omega)
  refine .bind (hnext.mono (fun _ _ ht => ht) fun _ _ h => hover h _ _) ?_
  rintro _ t ⟨hfits', rfl⟩
  subst htime
  refine .ite (fun hlast => .get_bind ?_) fun hmiddle =>
    .pure ⟨rfl, hfits', fun _ => ?_, fun h => ?_⟩
  · refine .bind ((addSingleNALUnit_ends _).mono (fun _ _ ht => ht) ?_) ?_
    · rintro _ _ ⟨hnil, hnone⟩
      exact hlost hlast (h.mNALUnits.symm.trans hnil) (hnone _ rfl) _ _
    · rintro _ u ⟨hsome, rtpTime, rfl⟩
      refine .modify_bind (.modify_bind
        (.pure ⟨rfl, hfits', fun h => absurd h hlast, fun _ => ⟨?_, ?_⟩⟩))
      · exact ⟨rfl, rfl, by rw [← h.mNALUnits], h.NAL_START_BUFFER, h.posted⟩
      · intro hnil
        obtain ⟨accumulator, haccumulator, hkept⟩ := hsome (h.mNALUnits.trans hnil)
        cases haccumulator
        exact hkept
  · exact ⟨h.mState, h.mIndicator, h.mNALType, rfl, h.mNALUnits, h.NAL_START_BUFFER, h.posted⟩
  · exact absurd h hmiddle

theorem settle_zero (h : Q () s) : Ends (settle 0) s Q E := by
  rw [settle, if_neg (by simp)]
  exact .pure h

/-- The last packet of a part. -/
theorem receive_last {P : ℤ → H264Assembler → Prop} (hmarker : packet.MARKER = some marker)
    (hdispatch : Ends (dispatch packet) s P E)
    (hok : ∀ t, P OK t → Ends (settle marker) t Q E)
    (herr : ∀ err t, err ≠ OK → P err t →
      Q () { t with mNALUnits := [], mAccumulator := none, mState := 0 }) :
    Ends (receive [packet]) s Q E :=
  .bind (processPacket_ends hmarker hdispatch hok herr) fun _ _ ht => .pure ht

/-- The fragments behind the first one, by induction on those in the middle. -/
theorem receive_fragments {nal : NalUnit} {start rest last : List UInt8}
    {middle : List (List UInt8)} {rtpTime : ℤ} {packets : List ABuffer} {s₀ : H264Assembler}
    (hcollecting : Collecting nal.header (start ++ rest) (timeAfter rtpTime rest) s₀ s)
    (hdone : (start ++ rest).length < 2 ^ 31)
    (hpackets : List.Forall₂ Carried
      (middle.map (Part.fragmentIndicator nal.header :: unitType nal.header :: ·) ++
        [Part.fragmentIndicator nal.header :: (0x40 ||| unitType nal.header) :: last]) packets)
    (hmarked : Marked marker packets)
    (hlong : 2 ^ 31 ≤ (start ++ (rest ++ middle.flatten ++ last)).length → ∀ e t, E e t)
    (hlost : s₀.mNALUnits = [] → timeAfter rtpTime (rest ++ middle.flatten ++ last) = none →
      ∀ e t, E e t)
    (hsettle : ∀ u, (start ++ (rest ++ middle.flatten ++ last)).length < 2 ^ 31 →
      Leads s₀ u (s₀.mNALUnits ++ [full (start ++ (rest ++ middle.flatten ++ last))
        (timeAfter rtpTime (rest ++ middle.flatten ++ last))]) →
      (s₀.mNALUnits = [] → timeAfter rtpTime (rest ++ middle.flatten ++ last) ≠ none) →
      Ends (settle marker) u Q E) :
    Ends (receive packets) s Q E := by
  obtain ⟨-, -, -, -, -, hmiddle, htype, hmore, hlaststart, hlasttype, hend, -⟩ :=
    fragment_bits nal.header nal.forbidden_zero nal.type_bounds.1
  induction middle generalizing rest s packets with
  | nil =>
      obtain ⟨packet, _, hpacket, hnil, rfl⟩ := List.forall₂_cons_left_iff.mp hpackets
      obtain rfl := List.forall₂_nil_left_iff.mp hnil
      have htime := (timeAfter_append rtpTime rest last).symm
      rw [List.flatten_nil, List.append_nil] at hlong hlost hsettle
      rw [← List.append_assoc] at hlong hsettle
      refine receive_last hmarked (furtherFragment_ends hcollecting hlasttype hlaststart hpacket
        hdone htime hlong fun _ => hlost) ?_ fun err t herr ht => absurd ht.1 herr
      rintro t ⟨-, hfits, -, hadded⟩
      obtain ⟨hleads, hkept⟩ := hadded hend
      exact hsettle t hfits hleads hkept
  | cons fragment middle ih =>
      obtain ⟨packet, packets, hpacket, hrest, rfl⟩ := List.forall₂_cons_left_iff.mp hpackets
      have hne : packets ≠ [] := by
        rintro rfl
        simpa using hrest.length_eq
      obtain ⟨hmarker, hmarked⟩ := (marked_cons hne).mp hmarked
      have hassoc : rest ++ (fragment :: middle).flatten ++ last =
          rest ++ fragment ++ middle.flatten ++ last := by
        simp
      rw [hassoc] at hlong hlost hsettle
      have htime := (timeAfter_append rtpTime rest fragment).symm
      have hover (h : 2 ^ 31 ≤ (start ++ rest ++ fragment).length) : ∀ e t, E e t := by
        refine hlong ?_
        simp only [List.length_append] at h ⊢
        omega
      refine .bind (processPacket_ends
        (Q := fun _ t => Collecting nal.header (start ++ (rest ++ fragment))
          (timeAfter rtpTime (rest ++ fragment)) s₀ t ∧ (start ++ (rest ++ fragment)).length < 2 ^ 31)
        hmarker (furtherFragment_ends hcollecting htype hmiddle hpacket hdone htime hover
          fun h => absurd hmore h) ?_ fun err t herr ht => absurd ht.1 herr) ?_
      · rintro t ⟨-, hfits, hnext, -⟩
        rw [List.append_assoc] at hnext hfits
        exact settle_zero ⟨hnext hmore, hfits⟩
      · rintro _ t ⟨hnext, hfits⟩
        exact ih hnext hfits hrest hmarked hlong hlost hsettle

/-- All fragments of a unit, behind a marker or not. -/
theorem receive_fragmentation {nal : NalUnit} {first last : List UInt8}
    {middle : List (List UInt8)} {packets : List ABuffer} {rtpTime : ℤ} (hstate : s.mState = 0)
    (hvalid : (Part.fragmentation nal first middle last).Valid)
    (hpackets : List.Forall₂ Carried (Part.fragmentation nal first middle last).payloads packets)
    (hmarked : Marked marker packets) (htime : (packets.head?.bind (·.RTP_TIME)) = some rtpTime)
    (hlong : 2 ^ 31 ≤ nal.bytes.length → ∀ e t, E e t)
    (hlost : s.mNALUnits = [] → timeAfter rtpTime (middle.flatten ++ last) = none → ∀ e t, E e t)
    (hsettle : ∀ u unit, nal.bytes.length < 2 ^ 31 → Holds unit nal →
      Leads s u (s.mNALUnits ++ [unit]) →
      (s.mNALUnits = [] → timeAfter rtpTime (middle.flatten ++ last) ≠ none) →
      Ends (settle marker) u Q E) :
    Ends (receive packets) s Q E := by
  obtain ⟨packet, packets, hpacket, hrest, rfl⟩ := List.forall₂_cons_left_iff.mp hpackets
  have hne : packets ≠ [] := by
    rintro rfl
    simpa using hrest.length_eq
  obtain ⟨hmarker, hmarked⟩ := (marked_cons hne).mp hmarked
  have hbytes : nal.bytes = nal.header :: first ++ ([] ++ middle.flatten ++ last) := by
    rw [NalUnit.bytes, show nal.body = _ from hvalid, List.nil_append, List.cons_append,
      List.append_assoc]
  have hfits := hpacket.fits
  refine .bind (processPacket_ends
    (Q := fun _ t => Collecting nal.header (nal.header :: first ++ []) (timeAfter rtpTime []) s t)
    hmarker (firstFragment_ends hstate hpacket htime) ?_ fun err t herr ht => absurd ht.1 herr) ?_
  · rintro t ⟨-, hcollecting⟩
    rw [← List.append_nil (nal.header :: first)] at hcollecting
    exact settle_zero hcollecting
  · intro _ t ht
    refine receive_fragments ht ?_ hrest hmarked (hbytes ▸ hlong) hlost ?_
    · simp only [List.append_nil, List.length_cons] at hfits ⊢
      omega
    · intro u hlength hleads hkept
      rw [← hbytes] at hlength hleads
      exact hsettle u _ hlength ⟨rfl, List.prefix_refl _⟩ hleads hkept

/-! ## Single units -/

theorem forbidden_clear : ∀ header : UInt8, header < 128 → header &&& 0x80 = 0 := by
  decide +kernel

/-- A unit of its own is accepted only behind another one. -/
theorem receive_single {nal : NalUnit} {packets : List ABuffer} (hstate : s.mState = 0)
    (haccumulator : s.mAccumulator = none)
    (hpackets : List.Forall₂ Carried (Part.single nal).payloads packets)
    (hmarked : Marked marker packets) (hnone : s.mNALUnits = [] → ∀ e t, E e t)
    (hsettle : ∀ u unit, s.mNALUnits ≠ [] → Holds unit nal → Leads s u (s.mNALUnits ++ [unit]) →
      Ends (settle marker) u Q E) :
    Ends (receive packets) s Q E := by
  obtain ⟨packet, _, hpacket, hnil, rfl⟩ := List.forall₂_cons_left_iff.mp hpackets
  obtain rfl := List.forall₂_nil_left_iff.mp hnil
  have hforbidden := forbidden_clear nal.header nal.forbidden_zero
  have hsize := hpacket.size
  rw [NalUnit.bytes, List.length_cons] at hsize
  have hadd : Ends (dispatch packet) s
      (fun err t => err = OK ∧ s.mNALUnits ≠ [] ∧ Leads s t (s.mNALUnits ++ [packet])) E := by
    refine .get_bind (.ite (fun _ => ?_) fun h => absurd hstate h)
    refine getByte_bind (hpacket.getElem? rfl) (.ite (fun h => ?_) fun _ => ?_)
    · rcases h with h | h
      · omega
      · exact absurd hforbidden h
    refine .ite (fun _ => ?_) fun h => absurd nal.type_bounds h
    refine .bind ((addSingleNALUnit_ends packet).mono (fun _ _ ht => ht)
      fun _ _ ht => hnone ht.1 _ _) ?_
    rintro _ t ⟨hsome, rtpTime, rfl⟩
    refine .pure ⟨rfl, fun hnil => ?_, hstate, haccumulator, rfl, rfl, rfl⟩
    obtain ⟨accumulator, h, -⟩ := hsome hnil
    cases haccumulator.symm.trans h
  refine receive_last hmarked hadd ?_ fun err t herr ht => absurd ht.1 herr
  rintro t ⟨-, hne, hleads⟩
  exact hsettle t packet hne ⟨hpacket.size, hpacket.data⟩ hleads

/-! ## Aggregation packets -/

/-- What has come of an aggregation packet: copies of its first unit, of which no more bytes were
read than the packet has, or nothing but an error. -/
def Aggregated (nal : NalUnit) (total : ℕ) (s : H264Assembler) (err : ℤ) (t : H264Assembler) :
    Prop :=
  s.mNALUnits ≠ [] ∧ (err = OK ∧ (∃ units copies, List.Forall₂ Holds units (List.replicate copies nal) ∧ 0 < copies ∧
      copies * (2 + nal.bytes.length) ≤ total ∧ Leads s t (s.mNALUnits ++ units)) ∨
    err ≠ OK ∧ t.NAL_START_BUFFER = s.NAL_START_BUFFER ∧ t.posted = s.posted)

/-- Every round reads the first unit again. -/
theorem aggregationLoop_ends {nal : NalUnit} {rtpTime size : ℤ} {packetData : List UInt8}
    {n limit copies total : ℕ} {units : List ABuffer} {s₀ : H264Assembler}
    (hnal : nal.bytes.length < 2 ^ 16) (hdata : aggregationUnit nal.bytes <+: packetData)
    (hlimit : 2 ≤ limit) (hsize : 0 ≤ size) (hn : size ≤ n)
    (hunits : List.Forall₂ Holds units (List.replicate copies nal))
    (hcopies : 0 < copies ∧ s₀.mNALUnits ≠ [] ∨ units = [] ∧ 2 + nal.bytes.length ≤ size)
    (htotal : copies * (2 + nal.bytes.length) + size ≤ total)
    (hnone : s₀.mNALUnits = [] → ∀ e t, E e t) (hleads : Leads s₀ s (s₀.mNALUnits ++ units)) :
    Ends (aggregationLoop rtpTime packetData n limit size) s (Aggregated nal total s₀) E := by
  have hpos := nal.length_bytes_pos
  have hdone (hsmall : size < 2 + nal.bytes.length) : 0 < copies ∧ s₀.mNALUnits ≠ [] := by
    rcases hcopies with hcopies | ⟨-, hlarge⟩
    · exact hcopies
    · omega
  induction n generalizing s size limit copies units with
  | zero =>
      obtain ⟨hcopies, hne⟩ := hdone (by omega)
      refine .pure ⟨hne, .inl ⟨rfl, units, copies, hunits, hcopies, ?_, hleads⟩⟩
      have hle : (copies * (2 + nal.bytes.length) : ℤ) ≤ total := by omega
      exact_mod_cast hle
  | succ n ih =>
      have hlength : (aggregationUnit nal.bytes).length = 2 + nal.bytes.length := by
        simp only [aggregationUnit, List.length_cons]
        omega
      have hbyte {i : ℕ} {b : UInt8} (hi : i < 2) (hb : (aggregationUnit nal.bytes)[i]? = some b) :
          (packetData.take limit)[i]? = some b := by
        obtain ⟨rest, rfl⟩ := hdata
        rw [List.getElem?_take_of_lt (by omega), List.getElem?_append_left (by omega), hb]
      have hnalSize : (UInt8.ofNat (nal.bytes.length / 2 ^ 8)).toNat * 2 ^ 8 +
          (UInt8.ofNat nal.bytes.length).toNat = nal.bytes.length := by
        simp only [UInt8.toNat_ofNat']
        omega
      refine .ite (fun _ => ?_) fun hsmall => ?_
      · refine getByte_bind (hbyte (by decide) rfl) (getByte_bind (hbyte (by decide) rfl) ?_)
        simp only [hnalSize]
        refine .ite (fun hsmall => .pure ⟨(hdone (by omega)).2, .inr ⟨by decide,
          hleads.NAL_START_BUFFER, hleads.posted⟩⟩) fun hfits => ?_
        refine newABuffer_bind (Int.natCast_nonneg _) (limited_bind hdata (by omega) ?_)
        have hblit : blit (List.replicate nal.bytes.length 0) 0
            ((aggregationUnit nal.bytes).drop 2) = nal.bytes :=
          blit_whole (List.length_replicate)
        refine put_bind le_rfl (by simp [aggregationUnit]) ?_
        simp only [Int.toNat_natCast, Int.toNat_zero, hblit]
        refine .bind ((addSingleNALUnit_ends _).mono (fun _ _ ht => ht) fun e t ht => ?_) ?_
        · exact hnone (List.append_eq_nil_iff.mp (hleads.mNALUnits.symm.trans ht.1)).1 e t
        · rintro _ t ⟨hsome, time, rfl⟩
          have hne : s₀.mNALUnits ≠ [] := by
            intro hnil
            rcases hcopies with ⟨-, hne⟩ | ⟨rfl, -⟩
            · exact hne hnil
            · obtain ⟨accumulator, h, -⟩ := hsome (by rw [hleads.mNALUnits, hnil]; rfl)
              cases hleads.mAccumulator.symm.trans h
          have hmore : List.Forall₂ Holds
              (units ++ [⟨nal.bytes, nal.bytes.length, some rtpTime, none⟩])
              (List.replicate (copies + 1) nal) := by
            rw [List.replicate_succ']
            exact List.rel_append hunits (.cons ⟨rfl, List.prefix_refl _⟩ .nil)
          refine ih (by omega) (by omega) (by omega) hmore (.inl ⟨by omega, hne⟩) ?_ ?_
            fun _ => ⟨by omega, hne⟩
          · push_cast
            linarith
          · refine ⟨hleads.mState, hleads.mAccumulator, ?_, hleads.NAL_START_BUFFER, hleads.posted⟩
            rw [← List.append_assoc, ← hleads.mNALUnits]
      · obtain ⟨hcopies, hne⟩ := hdone (by omega)
        refine .pure ⟨hne, .inl ⟨rfl, units, copies, hunits, hcopies, ?_, hleads⟩⟩
        have hle : (copies * (2 + nal.bytes.length) : ℤ) ≤ total := by omega
        exact_mod_cast hle

theorem receive_aggregation {header : UInt8} {nal : NalUnit} {nals : List NalUnit}
    {packets : List ABuffer} (hstate : s.mState = 0) (haccumulator : s.mAccumulator = none)
    (hvalid : (Part.aggregation header (nal :: nals)).Valid)
    (hpackets : List.Forall₂ Carried (Part.aggregation header (nal :: nals)).payloads packets)
    (hmarked : Marked marker packets) (hnone : s.mNALUnits = [] → ∀ e t, E e t)
    (hreset : ∀ u, s.mNALUnits ≠ [] → Leads s u [] → Q () u)
    (hsettle : ∀ u units copies, s.mNALUnits ≠ [] →
      List.Forall₂ Holds units (List.replicate copies nal) → 0 < copies →
      copies * (2 + nal.bytes.length) ≤
        ((nal :: nals).flatMap fun nal => aggregationUnit nal.bytes).length →
      Leads s u (s.mNALUnits ++ units) → Ends (settle marker) u Q E) :
    Ends (receive packets) s Q E := by
  obtain ⟨packet, _, hpacket, hnil, rfl⟩ := List.forall₂_cons_left_iff.mp hpackets
  obtain rfl := List.forall₂_nil_left_iff.mp hnil
  obtain ⟨hlt, htype, -, hsizes⟩ := hvalid
  have hforbidden := forbidden_clear header hlt
  have htype' : header &&& 0x1f = 24 := htype
  have hsize := hpacket.size
  have hlength := hpacket.data.length_le
  have hbegin : aggregationUnit nal.bytes <+:
      (nal :: nals).flatMap fun nal => aggregationUnit nal.bytes :=
    List.prefix_append _ _
  have hlong := hbegin.length_le
  have hpos := nal.length_bytes_pos
  have hunit : (aggregationUnit nal.bytes).length = 2 + nal.bytes.length := by
    simp only [aggregationUnit, List.length_cons]
    omega
  generalize hbody : ((nal :: nals).flatMap fun nal => aggregationUnit nal.bytes) = body at *
  rw [List.length_cons] at hsize hlength
  have hloop : Ends (dispatch packet) s (Aggregated nal body.length s) E := by
    obtain ⟨rtpTime, htime⟩ := hpacket.time
    refine .get_bind (.ite (fun _ => ?_) fun h => absurd hstate h)
    refine getByte_bind (hpacket.getElem? rfl) (.ite (fun h => ?_) fun _ => ?_)
    · rcases h with h | h
      · omega
      · exact absurd hforbidden h
    rw [htype']
    refine .ite (fun h => absurd h (by decide)) fun _ => .ite (fun h => absurd h (by decide))
      fun _ => .ite (fun _ => ?_) fun h => absurd rfl h
    refine .ite (fun h => by omega) fun _ => getInt_bind htime (slice_bind (by omega) ?_)
    have hunits : List.Forall₂ Holds [] (List.replicate 0 nal) := .nil
    exact aggregationLoop_ends (hsizes nal (by simp)) (hbegin.trans (hpacket.data.drop 1))
      (by rw [List.length_drop]; omega) (by omega) (by omega) hunits (.inr ⟨rfl, by omega⟩)
      (by omega) hnone ⟨hstate, haccumulator, (List.append_nil _).symm, rfl, rfl⟩
  refine receive_last hmarked hloop ?_ ?_
  · rintro t ⟨hne, ⟨-, units, copies, hunits, hcopies, htotal, hleads⟩ | ⟨herr, -⟩⟩
    · exact hsettle t units copies hne hunits hcopies htotal hleads
    · exact absurd rfl herr
  · rintro err t herr ⟨hne, ⟨hok, -⟩ | ⟨-, hstart, hposted⟩⟩
    · exact absurd hok herr
    · exact hreset _ hne ⟨rfl, rfl, rfl, hstart, hposted⟩

end

end MirrorCast.RTPAssembler.H264Assembler
