import Mathlib.Algebra.Ring.Nat
import Mathlib.Data.List.Basic
import Mathlib.Data.List.Chain
import Mathlib.Tactic.Common

/-! # MPEG-2 transport stream packets and PES packets, read as ISO 13818-1 defines them -/

namespace MpegTs

/-- A transport stream packet without its adaptation field. -/
structure Packet where
  unitStart : Bool
  pid : ℕ
  counter : ℕ
  payload : List UInt8
  deriving DecidableEq, Repr

/-- What follows the four bytes of the header, by `adaptation_field_control`. -/
def parsePayload (control : UInt8) (rest : List UInt8) : Option (List UInt8) :=
  if control = 1 then some rest
  else if control = 2 ∨ control = 3 then
    match rest with
    | [] => none
    | adaptationLength :: rest =>
        if rest.length < adaptationLength.toNat then none
        else some (if control = 3 then rest.drop adaptationLength.toNat else [])
  else none

def parse (bytes : List UInt8) : Option Packet :=
  match bytes with
  | sync :: b1 :: b2 :: b3 :: rest =>
      if bytes.length ≠ 188 ∨ sync ≠ 0x47 then none
      else
        (parsePayload (b3 >>> 4 &&& 3) rest).map fun payload =>
          { unitStart := b1 &&& 0x40 != 0
            pid := (b1 &&& 0x1f).toNat * 256 + b2.toNat
            counter := (b3 &&& 0x0f).toNat
            payload }
  | _ => none

theorem length_of_parse {bytes : List UInt8} {p : Packet} (h : parse bytes = some p) :
    bytes.length = 188 ∧ bytes.head? = some 0x47 := by
  unfold parse at h
  split at h
  · split at h
    · cases h
    · rename_i hguard
      rw [not_or, not_not, not_not] at hguard
      exact ⟨hguard.1, congrArg some hguard.2⟩
  · cases h

theorem length_of_mapM_parse {packets : List (List UInt8)} {ts : List Packet}
    (h : packets.mapM parse = some ts) : ∀ p ∈ packets, p.length = 188 ∧ p.head? = some 0x47 := by
  induction packets generalizing ts with
  | nil => simp
  | cons q packets ih =>
      rw [List.mapM_cons] at h
      obtain ⟨t, ht, h⟩ := Option.bind_eq_some_iff.mp h
      obtain ⟨rest, hrest, -⟩ := Option.bind_eq_some_iff.mp h
      intro p hp
      rcases List.mem_cons.mp hp with rfl | hp
      · exact length_of_parse ht
      · exact ih hrest p hp

/-- The packets of one unit on `pid`: the first one starts the unit, the counters follow on
from `counter`, and the payloads make up `payload`. -/
structure Carries (pid counter : ℕ) (unitStart : Bool) (packets : List Packet)
    (payload : List UInt8) : Prop where
  pid_eq : ∀ p ∈ packets, p.pid = pid
  counter_eq : ∀ k p, packets[k]? = some p → p.counter = (counter + k) % 16
  unitStart_eq : ∀ k p, packets[k]? = some p → p.unitStart = (unitStart && k == 0)
  payload_eq : packets.flatMap Packet.payload = payload

namespace Carries

theorem nil (pid counter : ℕ) (unitStart : Bool) : Carries pid counter unitStart [] [] where
  pid_eq := by simp
  counter_eq := by simp
  unitStart_eq := by simp
  payload_eq := rfl

theorem cons {pid counter : ℕ} {unitStart : Bool} {p : Packet} {packets : List Packet}
    {payload : List UInt8} (hpid : p.pid = pid) (hcounter : p.counter = counter % 16)
    (hstart : p.unitStart = unitStart) (h : Carries pid (counter + 1) false packets payload) :
    Carries pid counter unitStart (p :: packets) (p.payload ++ payload) where
  pid_eq := by
    intro q hq
    rcases List.mem_cons.mp hq with rfl | hq
    · exact hpid
    · exact h.pid_eq q hq
  counter_eq := by
    intro k q hq
    cases k with
    | zero =>
        cases hq
        exact hcounter
    | succ k =>
        rw [h.counter_eq k q hq, Nat.add_assoc, Nat.add_comm 1]
  unitStart_eq := by
    intro k q hq
    cases k with
    | zero =>
        cases hq
        rw [hstart]
        simp
    | succ k =>
        rw [h.unitStart_eq k q hq]
        simp
  payload_eq := by rw [List.flatMap_cons, h.payload_eq]

end Carries

theorem length_eq_of_mapM_parse {packets : List (List UInt8)} {ts : List Packet}
    (h : packets.mapM parse = some ts) : ts.length = packets.length := by
  induction packets generalizing ts with
  | nil =>
      cases h
      rfl
  | cons q packets ih =>
      rw [List.mapM_cons] at h
      obtain ⟨t, -, h⟩ := Option.bind_eq_some_iff.mp h
      obtain ⟨rest, hrest, h⟩ := Option.bind_eq_some_iff.mp h
      cases h
      rw [List.length_cons, List.length_cons, ih hrest]

theorem mapM_parse_append {xs ys : List (List UInt8)} {ts us : List Packet}
    (hx : xs.mapM parse = some ts) (hy : ys.mapM parse = some us) :
    (xs ++ ys).mapM parse = some (ts ++ us) := by
  rw [List.mapM_append, hx, hy]
  rfl

/-! ## Continuity -/

def ofPid (pid : ℕ) (ts : List Packet) : List Packet := ts.filter fun p => p.pid == pid

/-- Each packet of the PID has the counter that follows that of the one before it. -/
def ContinuousCounters (pid : ℕ) (ts : List Packet) : Prop :=
  ((ofPid pid ts).map Packet.counter).IsChain fun m n => n = (m + 1) % 16

/-- The counters of the packets of the PID go on from `counter`. -/
def GoesOn (pid counter : ℕ) (ts : List Packet) : Prop :=
  ∀ k p, (ofPid pid ts)[k]? = some p → p.counter = (counter + k) % 16

@[simp] theorem ofPid_append (pid : ℕ) (ts us : List Packet) :
    ofPid pid (ts ++ us) = ofPid pid ts ++ ofPid pid us := List.filter_append ..

theorem ofPid_eq_nil {pid : ℕ} {ts : List Packet} (h : ∀ p ∈ ts, p.pid ≠ pid) :
    ofPid pid ts = [] := by
  refine List.filter_eq_nil_iff.mpr fun p hp => ?_
  rw [beq_iff_eq]
  exact h p hp

theorem ofPid_eq_self {pid : ℕ} {ts : List Packet} (h : ∀ p ∈ ts, p.pid = pid) :
    ofPid pid ts = ts :=
  List.filter_eq_self.mpr fun p hp => beq_iff_eq.mpr (h p hp)

theorem goesOn_of_ofPid_eq_nil {pid : ℕ} {ts : List Packet} (h : ofPid pid ts = [])
    (counter : ℕ) : GoesOn pid counter ts := by
  intro k p hp
  rw [h] at hp
  cases hp

theorem GoesOn.append {pid counter : ℕ} {ts us : List Packet} (h : GoesOn pid counter ts)
    (h' : GoesOn pid (counter + (ofPid pid ts).length) us) : GoesOn pid counter (ts ++ us) := by
  intro k p hp
  rw [ofPid_append, List.getElem?_append] at hp
  split at hp
  · exact h k p hp
  · rename_i hk
    rw [h' _ p hp]
    congr 1
    omega

theorem GoesOn.continuous {pid counter : ℕ} {ts : List Packet} (h : GoesOn pid counter ts) :
    ContinuousCounters pid ts := by
  refine List.isChain_iff_getElem.mpr fun k hk => ?_
  rw [List.length_map] at hk
  rw [List.getElem_map, List.getElem_map, h k _ (List.getElem?_eq_getElem (by omega)),
    h (k + 1) _ (List.getElem?_eq_getElem hk)]
  omega

theorem Carries.goesOn {pid counter next : ℕ} {unitStart : Bool} {ts : List Packet}
    {payload : List UInt8} (h : Carries pid counter unitStart ts payload)
    (hnext : next % 16 = counter % 16) : GoesOn pid next ts := by
  intro k p hp
  rw [ofPid_eq_self h.pid_eq] at hp
  rw [h.counter_eq k p hp]
  omega

/-! ## PES packets -/

structure Pes where
  streamId : ℕ
  /-- the field `PES_packet_length` -/
  length : ℕ
  /-- the number of bytes behind that field -/
  following : ℕ
  pts : Option ℕ
  payload : List UInt8
  deriving DecidableEq, Repr

/-- The 33 bits of a time stamp between its marker bits. -/
def parsePts : List UInt8 → Option ℕ
  | b0 :: b1 :: b2 :: b3 :: b4 :: _ =>
      some ((b0 >>> 1 &&& 7).toNat * 2 ^ 30 + b1.toNat * 2 ^ 22 + (b2 >>> 1).toNat * 2 ^ 15 +
        b3.toNat * 2 ^ 7 + (b4 >>> 1).toNat)
  | _ => none

def parsePes : List UInt8 → Option Pes
  | 0x00 :: 0x00 :: 0x01 :: streamId :: length1 :: length0 :: flags1 :: flags2 :: headerLength ::
      rest =>
      if flags1 &&& 0xc0 ≠ 0x80 ∨ rest.length < headerLength.toNat then none
      else
        some
          { streamId := streamId.toNat
            length := length1.toNat * 256 + length0.toNat
            following := 3 + rest.length
            pts := if flags2 &&& 0x80 ≠ 0 then parsePts (rest.take headerLength.toNat) else none
            payload := rest.drop headerLength.toNat }
  | _ => none

/-! ## Clock references -/

/-- Base and extension of the program clock reference in the adaptation field of a packet. -/
def parsePcr : List UInt8 → Option (ℕ × ℕ)
  | _ :: _ :: _ :: b3 :: adaptationLength :: flags :: p0 :: p1 :: p2 :: p3 :: p4 :: p5 :: _ =>
      if b3 >>> 4 &&& 2 = 0 ∨ adaptationLength < 7 ∨ flags &&& 0x10 = 0 then none
      else
        some (p0.toNat * 2 ^ 25 + p1.toNat * 2 ^ 17 + p2.toNat * 2 ^ 9 + p3.toNat * 2 +
          (p4 >>> 7).toNat, (p4 &&& 1).toNat * 256 + p5.toNat)
  | _ => none

/-- The clock reference in ticks of 27 MHz. -/
def clockTicks (pcr : ℕ × ℕ) : ℕ := pcr.1 * 300 + pcr.2

end MpegTs
