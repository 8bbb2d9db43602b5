import MirrorCast.Verification.Ts.Encoding

/-! # Counting and writing packets -/

namespace MirrorCast.Ts

open Java MpegTs TSPacketizer

/-! ## The two ways to count -/

theorem moreTSPackets_step (alignPayload : Bool) {remaining : ℕ} (h : 0 < remaining) :
    moreTSPackets alignPayload
        (remaining - payloadBytes alignPayload (188 - 4) remaining) + 1 =
      moreTSPackets alignPayload remaining := by
  cases alignPayload
  · simp only [moreTSPackets, payloadBytes, Bool.false_eq_true, false_and, if_false, Nat.reduceSub]
    split_ifs <;> omega
  · simp only [moreTSPackets, payloadBytes, true_and, if_true, Nat.reduceSub, Nat.reduceMod,
      Nat.reduceLT]
    split_ifs <;> omega

/-- The closed form counts as the debugging loop does. -/
theorem debugTSPackets_eq (alignPayload : Bool) (remaining : ℕ) :
    debugTSPackets alignPayload remaining = moreTSPackets alignPayload remaining := by
  fun_induction debugTSPackets alignPayload remaining with
  | case1 remaining hpos copy ih => rw [ih, moreTSPackets_step alignPayload hpos]
  | case2 remaining hzero =>
      have hremaining : remaining = 0 := by omega
      rw [hremaining]
      cases alignPayload <;> rfl

/-! ## Writing one packet -/

/-- `o'` is `o` after `bytes`, whole packets, are written. -/
structure Writes (o o' : Output) (bytes : List UInt8) : Prop where
  start_eq : o'.packetDataStart = o.packetDataStart + bytes.length
  length_eq : o'.buffer.length = o.buffer.length
  written_eq : o'.buffer.take o'.packetDataStart = o.buffer.take o.packetDataStart ++ bytes

theorem Writes.refl (o : Output) : Writes o o [] := by
  constructor <;> simp

theorem Writes.trans {o o' o'' : Output} {xs ys : List UInt8} (h : Writes o o' xs)
    (h' : Writes o' o'' ys) : Writes o o'' (xs ++ ys) := by
  constructor
  · rw [h'.start_eq, h.start_eq, List.length_append, Nat.add_assoc]
  · rw [h'.length_eq, h.length_eq]
  · rw [h'.written_eq, h.written_eq, List.append_assoc]

/-- Bytes put at the position that is then moved over one packet. -/
theorem writes_of_putAt {o : Output} {bytes buffer : List UInt8} (hlength : 188 ≤ bytes.length)
    (h : putAt o.buffer o.packetDataStart bytes = .ok buffer) :
    Writes o ⟨buffer, o.packetDataStart + 188⟩ (bytes.take 188) := by
  obtain ⟨hfits, rfl⟩ := putAt_eq_ok.mp h
  have htake : (bytes.take 188).length = 188 := by
    rw [List.length_take]
    omega
  constructor
  · rw [htake]
  · exact length_blit hfits
  · exact take_blit (by omega) hlength

theorem advance_eq_ok {o o' : Output} :
    o.advance = .ok o' ↔
      o.packetDataStart + 188 ≤ o.buffer.length ∧ o' = ⟨o.buffer, o.packetDataStart + 188⟩ := by
  unfold Output.advance
  split
  · simp
    omega
  · rename_i hfits
    simp [Nat.le_of_not_lt hfits, eq_comm]

theorem putChecked_eq_ok {o o' : Output} {bytes : List UInt8} :
    o.putChecked bytes = .ok o' ↔
      bytes.length = 188 ∧ o.packetDataStart + 188 ≤ o.buffer.length ∧
        o' = ⟨blit o.buffer o.packetDataStart bytes, o.packetDataStart + 188⟩ := by
  unfold Output.putChecked
  rw [bind_eq_ok]
  constructor
  · rintro ⟨buffer, hput, h⟩
    obtain ⟨hfits, rfl⟩ := putAt_eq_ok.mp hput
    split at h
    · cases h
    · rename_i hlength
      rw [not_not] at hlength
      obtain ⟨-, rfl⟩ := advance_eq_ok.mp h
      exact ⟨hlength, by omega, rfl⟩
  · rintro ⟨hlength, hfits, rfl⟩
    refine ⟨_, putAt_eq_ok.mpr ⟨by omega, rfl⟩, ?_⟩
    rw [if_neg (not_not.mpr hlength), advance_eq_ok]
    have hblit := length_blit (show o.packetDataStart + bytes.length ≤ o.buffer.length by omega)
    refine ⟨?_, rfl⟩
    change o.packetDataStart + 188 ≤ (blit o.buffer o.packetDataStart bytes).length
    omega

theorem writes_putChecked {o o' : Output} {bytes : List UInt8}
    (h : o.putChecked bytes = .ok o') : Writes o o' bytes := by
  obtain ⟨hlength, hfits, rfl⟩ := putChecked_eq_ok.mp h
  have hwrites := writes_of_putAt (o := o) (Nat.le_of_eq hlength.symm)
    (putAt_eq_ok.mpr ⟨by omega, rfl⟩)
  rwa [List.take_of_length_le (Nat.le_of_eq hlength)] at hwrites

/-- A table with what fills up its packet. -/
def fillUp (bytes : List UInt8) : List UInt8 :=
  bytes ++ List.replicate (188 - bytes.length) 0xff

theorem length_fillUp (bytes : List UInt8) : (fillUp bytes).length = max 188 bytes.length := by
  rw [fillUp, List.length_append, List.length_replicate]
  omega

theorem putFilled_eq_ok {o o' : Output} {bytes : List UInt8} :
    o.putFilled bytes = .ok o' ↔
      o.packetDataStart + max 188 bytes.length ≤ o.buffer.length ∧
        o' = ⟨blit o.buffer o.packetDataStart (fillUp bytes), o.packetDataStart + 188⟩ := by
  have hfill := length_fillUp bytes
  unfold Output.putFilled
  rw [bind_eq_ok]
  constructor
  · rintro ⟨buffer, hput, h⟩
    obtain ⟨hfits, rfl⟩ := putAt_eq_ok.mp hput
    obtain ⟨-, rfl⟩ := advance_eq_ok.mp h
    change o.packetDataStart + (fillUp bytes).length ≤ o.buffer.length at hfits
    exact ⟨by omega, rfl⟩
  · rintro ⟨hfits, rfl⟩
    refine ⟨_, putAt_eq_ok.mpr ⟨?_, rfl⟩, ?_⟩
    · change o.packetDataStart + (fillUp bytes).length ≤ o.buffer.length
      omega
    · have hblit := length_blit
        (show o.packetDataStart + (fillUp bytes).length ≤ o.buffer.length by omega)
      rw [advance_eq_ok]
      refine ⟨?_, rfl⟩
      change o.packetDataStart + 188 ≤ (blit o.buffer o.packetDataStart (fillUp bytes)).length
      omega

theorem writes_putFilled {o o' : Output} {bytes : List UInt8} (h : o.putFilled bytes = .ok o') :
    Writes o o' ((fillUp bytes).take 188) := by
  have hfill := length_fillUp bytes
  obtain ⟨hfits, rfl⟩ := putFilled_eq_ok.mp h
  exact writes_of_putAt (by omega) (putAt_eq_ok.mpr ⟨by omega, rfl⟩)

/-! ## Writing the packets of a unit -/

theorem nextCounter_eq {counter : ℕ} (h : counter < 16) :
    nextCounter counter = (counter + 1) % 16 := by
  unfold nextCounter
  split_ifs <;> omega

/-- `o'` is `o` after `count` packets that carry `payload` on `PID`. -/
def Emits (o o' : Output) (PID counter : ℕ) (unitStart : Bool) (payload : List UInt8)
    (count : ℕ) : Prop :=
  ∃ (packets : List (List UInt8)) (ts : List Packet), packets.length = count ∧
    Writes o o' packets.flatten ∧
    packets.mapM parse = some ts ∧ Carries PID counter unitStart ts payload

theorem emits_nil (o : Output) (PID counter : ℕ) : Emits o o PID counter false [] 0 :=
  ⟨[], [], rfl, Writes.refl o, rfl, Carries.nil PID counter false⟩

theorem emits_cons {o o' o'' : Output} {PID counter count : ℕ} {unitStart : Bool}
    {bytes payload rest : List UInt8} (hcounter : counter < 16) (hwrites : Writes o o' bytes)
    (hparse : parse bytes = some ⟨unitStart, PID, counter, payload⟩)
    (h : Emits o' o'' PID (nextCounter counter) false rest count) :
    Emits o o'' PID counter unitStart (payload ++ rest) (count + 1) := by
  obtain ⟨packets, ts, hlength, hwrites', hmap, hcarries⟩ := h
  refine ⟨bytes :: packets, ⟨unitStart, PID, counter, payload⟩ :: ts, ?_, ?_, ?_, ?_⟩
  · rw [List.length_cons, hlength]
  · exact hwrites.trans hwrites'
  · rw [List.mapM_cons, hparse, hmap]
    rfl
  · apply Carries.cons (p := ⟨unitStart, PID, counter, payload⟩) rfl
    · exact (Nat.mod_eq_of_lt hcounter).symm
    · rfl
    · refine ⟨hcarries.pid_eq, ?_, hcarries.unitStart_eq, hcarries.payload_eq⟩
      intro k p hp
      rw [hcarries.counter_eq k p hp, nextCounter_eq hcounter]
      omega

theorem length_payload (alignPayload : Bool) (unit : List UInt8) (available offset : ℕ) :
    ((unit.drop offset).take
      (payloadBytes alignPayload available (unit.length - offset))).length =
        payloadBytes alignPayload available (unit.length - offset) := by
  have hle := payloadBytes_le alignPayload available (unit.length - offset)
  rw [List.length_take, List.length_drop]
  omega

theorem payloadBytes_le_available (alignPayload : Bool) (available remaining : ℕ) :
    payloadBytes alignPayload available remaining ≤ available := by
  unfold payloadBytes
  split_ifs <;> omega

/-- Adaptation field and payload fill a packet. -/
theorem padding_add_payload (alignPayload : Bool) (unit : List UInt8) (offset : ℕ) :
    188 - 4 - payloadBytes alignPayload (188 - 4) (unit.length - offset) +
      ((unit.drop offset).take
        (payloadBytes alignPayload (188 - 4) (unit.length - offset))).length = 184 := by
  have havailable := payloadBytes_le_available alignPayload (188 - 4) (unit.length - offset)
  rw [length_payload]
  omega

section Rest

variable {PID offset continuityCounter counter' : ℕ} {alignPayload : Bool} {unit : List UInt8}
  {o o' : Output}

theorem debugTSPackets_pos {remaining : ℕ} (h : 0 < remaining) :
    debugTSPackets alignPayload remaining =
      debugTSPackets alignPayload
        (remaining - payloadBytes alignPayload (188 - 4) remaining) + 1 := by
  rw [debugTSPackets, if_pos h]

/-- The loop writes packets that carry the rest of the unit. -/
theorem emits_emitRest (hPID : PID < 2 ^ 13) (hcounter : continuityCounter < 16)
    (h : emitRest PID alignPayload unit offset continuityCounter o = .ok (o', counter')) :
    Emits o o' PID continuityCounter false (unit.drop offset)
        (debugTSPackets alignPayload (unit.length - offset)) ∧
      counter' = (continuityCounter + debugTSPackets alignPayload (unit.length - offset)) % 16 := by
  fun_induction emitRest PID alignPayload unit offset continuityCounter o with
  | case1 offset continuityCounter o hmore available copy padding ih =>
      obtain ⟨next, hput, hrest⟩ := bind_eq_ok.mp h
      have hnext := nextCounter_eq hcounter
      obtain ⟨hemits, hlast⟩ := ih next (by omega) hrest
      have hparse := parse_tsPacket false hPID hcounter
        (padding_add_payload alignPayload unit offset)
      have hcons := emits_cons hcounter (writes_putChecked hput) hparse hemits
      rw [← List.drop_drop, List.take_append_drop, Nat.sub_add_eq] at hcons
      rw [debugTSPackets_pos (Nat.sub_pos_of_lt hmore)]
      refine ⟨hcons, ?_⟩
      rw [hlast, Nat.sub_add_eq, hnext]
      simp only [copy, available]
      omega
  | case2 offset continuityCounter o hdone =>
      obtain ⟨rfl, rfl⟩ := Prod.mk.inj (Except.ok.inj h)
      have hzero : unit.length - offset = 0 := by omega
      rw [hzero, List.drop_eq_nil_of_le (by omega), debugTSPackets, if_neg (by decide)]
      exact ⟨emits_nil o PID continuityCounter, (Nat.mod_eq_of_lt hcounter).symm⟩

/-- Nothing fails where the buffer has room for all the packets. -/
theorem exists_emitRest (PID continuityCounter : ℕ)
    (h : o.packetDataStart + 188 * debugTSPackets alignPayload (unit.length - offset) ≤
      o.buffer.length) :
    ∃ r, emitRest PID alignPayload unit offset continuityCounter o = .ok r := by
  fun_induction emitRest PID alignPayload unit offset continuityCounter o with
  | case1 offset continuityCounter o hmore available copy padding ih =>
      rw [debugTSPackets_pos (Nat.sub_pos_of_lt hmore), ← Nat.sub_add_eq] at h
      have hpacket := length_tsPacket 0x00 PID continuityCounter
        (padding_add_payload alignPayload unit offset)
      have hput := putChecked_eq_ok.mpr
        ⟨hpacket, show o.packetDataStart + 188 ≤ o.buffer.length by omega, rfl⟩
      have hwrites := writes_putChecked hput
      have hstart := hwrites.start_eq
      have hbuffer := hwrites.length_eq
      rw [hpacket] at hstart
      obtain ⟨r, hr⟩ := ih _ (by rw [hstart, hbuffer]; simp only [copy, available]; omega)
      exact ⟨r, bind_eq_ok.mpr ⟨_, hput, hr⟩⟩
  | case2 offset continuityCounter o hdone => exact ⟨_, rfl⟩

end Rest

/-! ## The PES packet -/

section PES

variable {alignPayload : Bool} {track : Track} {a : Args} {unit : List UInt8} {o o' : Output}

/-- What a packetizer relies on in its tracks: header fields in range. -/
structure TrackInRange (track : Track) : Prop where
  pid_lt : track.mPID < 2 ^ 13
  streamID_lt : track.mStreamID < 256
  counter_lt : track.mContinuityCounter < 16

/-- The packets of the access unit, by the debugging loop. -/
def unitPackets (alignPayload : Bool) (a : Args) (unit : List UInt8) : ℕ :=
  countTSPackets debugTSPackets alignPayload a.headerSize unit.length

theorem unitPackets_eq (alignPayload : Bool) (a : Args) (unit : List UInt8) :
    unitPackets alignPayload a unit =
      countTSPackets moreTSPackets alignPayload a.headerSize unit.length := by
  rw [unitPackets, countTSPackets, countTSPackets, debugTSPackets_eq]

/-- The header, the padding and the first bytes of the unit fill the first packet. -/
theorem padding_add_header (alignPayload : Bool) {a : Args} (unit : List UInt8)
    {header : List UInt8} (hsize : a.headerSize ≤ 184)
    (hheader : header.length = a.headerSize) :
    188 - 4 - a.headerSize -
        payloadBytes alignPayload (188 - 4 - a.headerSize) unit.length +
      (header ++ unit.take
        (payloadBytes alignPayload (188 - 4 - a.headerSize) unit.length)).length = 184 := by
  have havailable := payloadBytes_le_available alignPayload (188 - 4 - a.headerSize) unit.length
  have hlength := length_payload alignPayload unit (188 - 4 - a.headerSize) 0
  rw [List.drop_zero, Nat.sub_zero] at hlength
  rw [List.length_append, hlength, hheader]
  omega

theorem emits_emitPES {track' : Track} (hrange : TrackInRange track) (hsize : a.headerSize ≤ 184)
    (h : emitPES alignPayload track a unit o = .ok (o', track')) :
    ∃ header, pesHeader track a unit = .ok header ∧
      Emits o o' track.mPID track.mContinuityCounter true (header ++ unit)
        (unitPackets alignPayload a unit) ∧
      track' = { track with
        mContinuityCounter :=
          (track.mContinuityCounter + unitPackets alignPayload a unit) % 16 } := by
  obtain ⟨header, hheader, h⟩ := bind_eq_ok.mp h
  obtain ⟨o₁, hput, h⟩ := bind_eq_ok.mp h
  obtain ⟨⟨o₂, counter'⟩, hrest, h⟩ := bind_eq_ok.mp h
  obtain ⟨rfl, rfl⟩ := Prod.mk.inj (Except.ok.inj h)
  have hlength := (parsePes_pesHeader hrange.streamID_lt hsize hheader).1
  have hnext := nextCounter_eq hrange.counter_lt
  obtain ⟨hemits, hlast⟩ := emits_emitRest hrange.pid_lt (by omega) hrest
  have hparse := parse_tsPacket true hrange.pid_lt hrange.counter_lt
    (padding_add_header alignPayload unit hsize hlength)
  have hcons := emits_cons hrange.counter_lt (writes_putChecked hput) hparse hemits
  rw [List.append_assoc, List.take_append_drop] at hcons
  refine ⟨header, hheader, ?_, ?_⟩
  · rw [unitPackets, countTSPackets, Nat.add_comm]
    exact hcons
  · rw [hlast, hnext, unitPackets, countTSPackets]
    congr 1
    omega

theorem exists_emitPES (alignPayload : Bool) {o : Output} {header : List UInt8} (hrange : TrackInRange track)
    (hsize : a.headerSize ≤ 184) (hheader : pesHeader track a unit = .ok header)
    (hroom : o.packetDataStart + 188 * unitPackets alignPayload a unit ≤ o.buffer.length) :
    ∃ r, emitPES alignPayload track a unit o = .ok r := by
  rw [unitPackets, countTSPackets] at hroom
  have hlength := (parsePes_pesHeader hrange.streamID_lt hsize hheader).1
  have hpacket := length_tsPacket 0x40 track.mPID track.mContinuityCounter
    (padding_add_header alignPayload unit hsize hlength)
  have hput := putChecked_eq_ok.mpr
    ⟨hpacket, show o.packetDataStart + 188 ≤ o.buffer.length by omega, rfl⟩
  have hwrites := writes_putChecked hput
  have hstart := hwrites.start_eq
  have hbuffer := hwrites.length_eq
  rw [hpacket] at hstart
  have hrestRoom : o.packetDataStart + 188 + 188 * debugTSPackets alignPayload
      (unit.length - payloadBytes alignPayload (188 - 4 - a.headerSize) unit.length) ≤
        o.buffer.length := by omega
  rw [← hbuffer, ← hstart] at hrestRoom
  obtain ⟨r, hrest⟩ := exists_emitRest track.mPID (nextCounter track.mContinuityCounter) hrestRoom
  refine ⟨(r.1, { track with mContinuityCounter := r.2 }), ?_⟩
  exact bind_eq_ok.mpr ⟨header, hheader, bind_eq_ok.mpr ⟨_, hput, bind_eq_ok.mpr ⟨r, hrest, rfl⟩⟩⟩

end PES

/-! ## The packets in front -/

/-- `o'` is `o` after `count` packets that begin with the sync byte. -/
def Leads (o o' : Output) (count : ℕ) (packets : List (List UInt8)) : Prop :=
  packets.length = count ∧ Writes o o' packets.flatten ∧
    ∀ p ∈ packets, p.length = 188 ∧ p.head? = some 0x47

theorem leads_nil (o : Output) : Leads o o 0 [] :=
  ⟨rfl, Writes.refl o, by simp⟩

theorem Leads.trans {o o' o'' : Output} {m n : ℕ} {ps qs : List (List UInt8)}
    (h : Leads o o' m ps) (h' : Leads o' o'' n qs) : Leads o o'' (m + n) (ps ++ qs) := by
  obtain ⟨hlength, hwrites, hpackets⟩ := h
  obtain ⟨hlength', hwrites', hpackets'⟩ := h'
  refine ⟨?_, ?_, ?_⟩
  · rw [List.length_append, hlength, hlength']
  · rw [List.flatten_append]
    exact hwrites.trans hwrites'
  · intro p hp
    rcases List.mem_append.mp hp with hp | hp
    · exact hpackets p hp
    · exact hpackets' p hp

theorem leads_putFilled {o o' : Output} {bytes : List UInt8} (hhead : bytes.head? = some 0x47)
    (h : o.putFilled bytes = .ok o') : Leads o o' 1 [(fillUp bytes).take 188] := by
  refine ⟨rfl, ?_, ?_⟩
  · rw [List.flatten_singleton]
    exact writes_putFilled h
  · intro p hp
    rw [List.mem_singleton.mp hp]
    have hfill := length_fillUp bytes
    constructor
    · rw [List.length_take]
      omega
    · cases bytes with
      | nil => cases hhead
      | cons b rest =>
          cases hhead
          rfl

section Tables

variable {s s' : TSPacketizer} {o o' : Output}

theorem emitTables_eq_ok :
    s.emitTables o = .ok (s', o') ↔
      ∃ o₁ tracks table, o.putFilled (PAT (nextCounter s.mPATContinuityCounter)) = .ok o₁ ∧
        s.mTracks.mapM Track.makeFinalize = .ok tracks ∧
        PMT (nextCounter s.mPMTContinuityCounter) s.mProgramInfoDescriptors tracks = .ok table ∧
        o₁.putFilled table = .ok o' ∧
        s' = { s with
          mTracks := tracks
          mPATContinuityCounter := nextCounter s.mPATContinuityCounter
          mPMTContinuityCounter := nextCounter s.mPMTContinuityCounter } := by
  unfold emitTables
  constructor
  · intro h
    obtain ⟨o₁, hpat, h⟩ := bind_eq_ok.mp h
    obtain ⟨tracks, htracks, h⟩ := bind_eq_ok.mp h
    obtain ⟨table, htable, h⟩ := bind_eq_ok.mp h
    obtain ⟨o₂, hpmt, h⟩ := bind_eq_ok.mp h
    obtain ⟨rfl, rfl⟩ := Prod.mk.inj (Except.ok.inj h)
    exact ⟨o₁, tracks, table, hpat, htracks, htable, hpmt, rfl⟩
  · rintro ⟨o₁, tracks, table, hpat, htracks, htable, hpmt, rfl⟩
    exact bind_eq_ok.mpr ⟨o₁, hpat, bind_eq_ok.mpr ⟨tracks, htracks,
      bind_eq_ok.mpr ⟨table, htable, bind_eq_ok.mpr ⟨o', hpmt, rfl⟩⟩⟩⟩

theorem head_PMT {counter : ℕ} {info : List (List UInt8)} {tracks : List Track}
    {table : List UInt8} (h : PMT counter info tracks = .ok table) :
    table.head? = some 0x47 := by
  unfold PMT at h
  dsimp only at h
  split at h
  · cases h
  · obtain ⟨streams, -, h⟩ := bind_eq_ok.mp h
    cases h
    rfl

/-- The bytes a track takes in the PMT. -/
def streamInfoLength (track : Track) : ℕ := 5 + track.mDescriptors.flatten.length

theorem exists_streams {tracks : List Track}
    (h : ∀ t ∈ tracks, t.mDescriptors.flatten.length ≤ 0xfff) :
    ∃ streams, tracks.mapM Track.streamInfo = .ok streams ∧
      streams.flatten.length = (tracks.map streamInfoLength).sum := by
  induction tracks with
  | nil => exact ⟨[], rfl, rfl⟩
  | cons t tracks ih =>
      obtain ⟨streams, hstreams, hlength⟩ := ih fun t' ht' => h t' (List.mem_cons_of_mem t ht')
      have ht := h t List.mem_cons_self
      have hinfo : ∃ bytes, t.streamInfo = .ok bytes ∧ bytes.length = streamInfoLength t := by
        refine ⟨_, if_neg (Nat.not_lt_of_le ht), ?_⟩
        rw [List.length_append, streamInfoLength]
        rfl
      obtain ⟨bytes, hbytes, hbytesLength⟩ := hinfo
      refine ⟨bytes :: streams, ?_, ?_⟩
      · rw [List.mapM_cons, hbytes, hstreams]
        rfl
      · rw [List.flatten_cons, List.length_append, hlength, hbytesLength, List.map_cons,
          List.sum_cons]

theorem exists_PMT (counter : ℕ) (info : List (List UInt8)) (tracks : List Track)
    (hinfo : info.flatten.length < 0x400)
    (h : ∀ t ∈ tracks, t.mDescriptors.flatten.length ≤ 0xfff) :
    ∃ table, PMT counter info tracks = .ok table ∧
      table.length = 21 + info.flatten.length + (tracks.map streamInfoLength).sum := by
  obtain ⟨streams, hstreams, hlength⟩ := exists_streams h
  unfold PMT
  dsimp only
  rw [if_neg (Nat.not_le_of_lt hinfo), hstreams, ok_bind]
  refine ⟨_, rfl, ?_⟩
  simp only [withCRC, putInt, List.length_append, List.length_cons, List.length_nil, hlength]
  omega

/-- The packets of the tables, if they are asked for, and the packetizer once they are written. -/
inductive Tables (s : TSPacketizer) (a : Args) : TSPacketizer → List (List UInt8) → Prop where
  | omitted (h : ¬ a.emitsTables) : Tables s a s []
  | written {tracks : List Track} {table : List UInt8} (h : a.emitsTables)
      (hfinal : s.mTracks.mapM Track.makeFinalize = .ok tracks)
      (htable : PMT (nextCounter s.mPMTContinuityCounter) s.mProgramInfoDescriptors tracks =
        .ok table) :
      Tables s a
        { s with
          mTracks := tracks
          mPATContinuityCounter := nextCounter s.mPATContinuityCounter
          mPMTContinuityCounter := nextCounter s.mPMTContinuityCounter }
        [(fillUp (PAT (nextCounter s.mPATContinuityCounter))).take 188, (fillUp table).take 188]

theorem leads_emitTables {a : Args}
    (h : (if a.emitsTables then s.emitTables o else .ok (s, o)) = .ok (s', o')) :
    ∃ ps, Tables s a s' ps ∧ Leads o o' (if a.emitsTables then 2 else 0) ps := by
  by_cases htables : a.emitsTables
  · rw [if_pos htables] at h ⊢
    obtain ⟨o₁, tracks, table, hpat, hfinal, htable, hpmt, rfl⟩ := emitTables_eq_ok.mp h
    exact ⟨_, .written htables hfinal htable,
      (leads_putFilled rfl hpat).trans (leads_putFilled (head_PMT htable) hpmt)⟩
  · rw [if_neg htables] at h ⊢
    obtain ⟨rfl, rfl⟩ := Prod.mk.inj (Except.ok.inj h)
    exact ⟨[], .omitted htables, leads_nil o⟩

/-- The packet of the clock reference, if it is asked for. -/
def clockPackets (a : Args) : List (List UInt8) :=
  if a.emitsPCR then [(fillUp (pcrPacket a.nowUs)).take 188] else []

theorem leads_pcr {a : Args}
    (h : (if a.emitsPCR then o.putFilled (pcrPacket a.nowUs) else .ok o) = .ok o') :
    Leads o o' (if a.emitsPCR then 1 else 0) (clockPackets a) := by
  unfold clockPackets
  by_cases hpcr : a.emitsPCR
  · rw [if_pos hpcr] at h ⊢
    rw [if_pos hpcr]
    exact leads_putFilled rfl h
  · rw [if_neg hpcr] at h ⊢
    rw [if_neg hpcr]
    cases h
    exact leads_nil o

end Tables

end MirrorCast.Ts
