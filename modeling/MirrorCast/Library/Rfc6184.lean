import MirrorCast.Library.AnnexB
import Mathlib.Algebra.BigOperators.Group.List.Basic
import Mathlib.Tactic.Linarith

/-! # Depacketization of H.264 RTP payloads

The receiver's side of the payload format in non-interleaved mode: single NAL unit
packets, aggregation packets (STAP-A) and fragmentation units (FU-A). -/

namespace Rfc6184

def STAP_A : UInt8 := 24

def FU_A : UInt8 := 28

/-- The type field of a NAL unit or payload header. -/
def unitType (header : UInt8) : UInt8 := header &&& 0x1f

inductive Payload where
  | single (nal : List UInt8)
  | aggregation (nals : List (List UInt8))
  /-- The first fragment of a NAL unit, led by the header of the unit. -/
  | start (nal : List UInt8)
  | middle (fragment : List UInt8)
  | last (fragment : List UInt8)
  deriving DecidableEq, Repr

/-- The NAL units of an aggregation packet, each behind its 16-bit size. -/
def aggregated : List UInt8 → Option (List (List UInt8))
  | [] => some []
  | [_] => none
  | hi :: lo :: rest =>
      let size := hi.toNat * 2 ^ 8 + lo.toNat
      if size = 0 ∨ rest.length < size then none
      else (aggregated (rest.drop size)).map (rest.take size :: ·)
termination_by bytes => bytes.length
decreasing_by
  simp only [List.length_drop, List.length_cons]
  omega

/-- A fragmentation unit; start and end bit are never both set. -/
def fragmentation (indicator : UInt8) : List UInt8 → Option Payload
  | [] => none
  | fu :: fragment =>
      match fu &&& 0x80 != 0, fu &&& 0x40 != 0 with
      | true, true => none
      | true, false => some (.start (((indicator &&& 0xe0) ||| unitType fu) :: fragment))
      | false, false => some (.middle fragment)
      | false, true => some (.last fragment)

def parse : List UInt8 → Option Payload
  | [] => none
  | header :: body =>
      if unitType header = FU_A then fragmentation header body
      else if unitType header = STAP_A then
        (aggregated body).bind fun nals => if nals = [] then none else some (.aggregation nals)
      else if 1 ≤ unitType header ∧ unitType header ≤ 23 then some (.single (header :: body))
      else none

/-- The NAL units of a sequence of payloads; `pending` is the beginning of a unit whose
fragments are not yet complete. -/
def assemble : Option (List UInt8) → List Payload → Option (List (List UInt8))
  | none, [] => some []
  | none, .single nal :: payloads => (assemble none payloads).map (nal :: ·)
  | none, .aggregation nals :: payloads => (assemble none payloads).map (nals ++ ·)
  | none, .start nal :: payloads => assemble (some nal) payloads
  | some nal, .middle fragment :: payloads => assemble (some (nal ++ fragment)) payloads
  | some nal, .last fragment :: payloads =>
      (assemble none payloads).map ((nal ++ fragment) :: ·)
  | _, _ => none

def depacketize (payloads : List (List UInt8)) : Option (List (List UInt8)) :=
  (payloads.mapM parse).bind (assemble none)

/-! ## Sequences of payloads -/

theorem assemble_append {pending : Option (List UInt8)} {ps : List Payload}
    {ds : List (List UInt8)} (h : assemble pending ps = some ds) (qs : List Payload) :
    assemble pending (ps ++ qs) = (assemble none qs).map (ds ++ ·) := by
  fun_induction assemble pending ps generalizing ds with
  | case1 =>
      cases h
      simp
  | case2 nal ps ih =>
      obtain ⟨ds', hds, rfl⟩ := Option.map_eq_some_iff.mp h
      rw [List.cons_append, assemble, ih hds, Option.map_map]
      rfl
  | case3 nals ps ih =>
      obtain ⟨ds', hds, rfl⟩ := Option.map_eq_some_iff.mp h
      rw [List.cons_append, assemble, ih hds, Option.map_map]
      simp [Function.comp_def]
  | case4 nal ps ih => exact ih h
  | case5 nal fragment ps ih => exact ih h
  | case6 nal fragment ps ih =>
      obtain ⟨ds', hds, rfl⟩ := Option.map_eq_some_iff.mp h
      rw [List.cons_append, assemble, ih hds, Option.map_map]
      rfl
  | case7 => cases h

theorem depacketize_append {ps qs ds es : List (List UInt8)} (hps : depacketize ps = some ds)
    (hqs : depacketize qs = some es) : depacketize (ps ++ qs) = some (ds ++ es) := by
  obtain ⟨payloads, hparse, hassemble⟩ := Option.bind_eq_some_iff.mp hps
  obtain ⟨payloads', hparse', hassemble'⟩ := Option.bind_eq_some_iff.mp hqs
  rw [depacketize, List.mapM_append, hparse, hparse']
  have happend := assemble_append hassemble payloads'
  rw [hassemble'] at happend
  exact happend

/-! ## Payloads a sender writes -/

theorem parse_single {header : UInt8} (hlo : 1 ≤ unitType header) (hhi : unitType header ≤ 23)
    (body : List UInt8) : parse (header :: body) = some (.single (header :: body)) := by
  have hfu : unitType header ≠ FU_A := by
    intro h
    rw [h] at hhi
    exact absurd hhi (by decide)
  have hstap : unitType header ≠ STAP_A := by
    intro h
    rw [h] at hhi
    exact absurd hhi (by decide)
  rw [parse, if_neg hfu, if_neg hstap, if_pos ⟨hlo, hhi⟩]

theorem parse_fragmentation {indicator : UInt8} (h : unitType indicator = FU_A)
    (body : List UInt8) : parse (indicator :: body) = fragmentation indicator body := by
  rw [parse, if_pos h]

/-- A NAL unit behind its size. -/
def aggregationUnit (nal : List UInt8) : List UInt8 :=
  UInt8.ofNat (nal.length / 2 ^ 8) :: UInt8.ofNat nal.length :: nal

theorem aggregated_flatMap {nals : List (List UInt8)}
    (h : ∀ nal ∈ nals, 0 < nal.length ∧ nal.length < 2 ^ 16) :
    aggregated (nals.flatMap aggregationUnit) = some nals := by
  induction nals with
  | nil => rw [List.flatMap_nil, aggregated]
  | cons nal nals ih =>
      obtain ⟨hpos, hlt⟩ := h nal List.mem_cons_self
      have hsize : (UInt8.ofNat (nal.length / 2 ^ 8)).toNat * 2 ^ 8 +
          (UInt8.ofNat nal.length).toNat = nal.length := by
        simp only [UInt8.toNat_ofNat']
        omega
      have hrest := ih fun nal' hnal' => h nal' (List.mem_cons_of_mem nal hnal')
      rw [List.flatMap_cons, aggregationUnit, List.cons_append, List.cons_append, aggregated]
      simp only [hsize]
      rw [if_neg (by rw [List.length_append]; omega), List.drop_left, List.take_left, hrest]
      rfl

theorem parse_aggregation {nals : List (List UInt8)} (hne : nals ≠ [])
    (h : ∀ nal ∈ nals, 0 < nal.length ∧ nal.length < 2 ^ 16) :
    parse (STAP_A :: nals.flatMap aggregationUnit) = some (.aggregation nals) := by
  rw [parse, if_neg (by decide), if_pos (by decide), aggregated_flatMap h]
  exact if_neg hne

/-! ## Series of payloads -/

open AnnexB (NalUnit)

/-- A part of a series: one packet, or all the fragments of a NAL unit. -/
inductive Part where
  | single (nal : NalUnit)
  | aggregation (header : UInt8) (nals : List NalUnit)
  | fragmentation (nal : NalUnit) (first : List UInt8) (middle : List (List UInt8))
      (last : List UInt8)

namespace Part

/-- The NAL units of a part. -/
def nals : Part → List NalUnit
  | single nal => [nal]
  | aggregation _ nals => nals
  | fragmentation nal _ _ _ => [nal]

def fragmentIndicator (header : UInt8) : UInt8 := (header &&& 0xe0) ||| FU_A

def payloads : Part → List (List UInt8)
  | single nal => [nal.bytes]
  | aggregation header nals => [header :: nals.flatMap fun nal => aggregationUnit nal.bytes]
  | fragmentation nal first middle last =>
      (fragmentIndicator nal.header :: (0x80 ||| unitType nal.header) :: first) ::
        (middle.map (fragmentIndicator nal.header :: unitType nal.header :: ·) ++
          [fragmentIndicator nal.header :: (0x40 ||| unitType nal.header) :: last])

/-- The header of an aggregation packet has its forbidden bit clear and the type, the sizes have
16 bits, and the fragments make up the unit. -/
def Valid : Part → Prop
  | single _ => True
  | aggregation header nals => header < 128 ∧ unitType header = STAP_A ∧ nals ≠ [] ∧
      ∀ nal ∈ nals, nal.bytes.length < 2 ^ 16
  | fragmentation nal first middle last => nal.body = first ++ middle.flatten ++ last

theorem nals_ne_nil {part : Part} (h : part.Valid) : part.nals ≠ [] := by
  cases part with
  | single nal => exact List.cons_ne_nil _ _
  | aggregation header nals => exact h.2.2.1
  | fragmentation nal first middle last => exact List.cons_ne_nil _ _

theorem payloads_ne_nil (part : Part) : part.payloads ≠ [] := by
  cases part with
  | _ => exact List.cons_ne_nil _ _

end Part

/-! ## Bytes are neither lost nor made up -/

/-- The bytes of NAL units when each is sent behind its 16-bit size. -/
def total (nals : List (List UInt8)) : ℕ := (nals.map fun nal => nal.length + 2).sum

@[simp] theorem total_nil : total [] = 0 := rfl

@[simp] theorem total_cons (nal : List UInt8) (nals : List (List UInt8)) :
    total (nal :: nals) = nal.length + 2 + total nals := by
  simp [total]

@[simp] theorem total_append (nals nals' : List (List UInt8)) :
    total (nals ++ nals') = total nals + total nals' := by
  simp [total]

/-- The part of the total that a fragmentation unit contributes. -/
def fragmentWeight : List UInt8 → ℕ
  | [] => 0
  | fu :: fragment => fragment.length + if fu &&& 0x80 != 0 then 3 else 0

/-- The part of the total that a payload contributes. -/
def weight : List UInt8 → ℕ
  | [] => 0
  | header :: body =>
      if unitType header = FU_A then fragmentWeight body
      else if unitType header = STAP_A then body.length
      else body.length + 3

theorem weight_cons (header : UInt8) (body : List UInt8) :
    weight (header :: body) =
      if unitType header = FU_A then fragmentWeight body
      else if unitType header = STAP_A then body.length
      else body.length + 3 := rfl

/-- The same, of a parsed payload. -/
def Payload.weight : Payload → ℕ
  | .single nal => nal.length + 2
  | .aggregation nals => total nals
  | .start nal => nal.length + 2
  | .middle fragment => fragment.length
  | .last fragment => fragment.length

theorem total_aggregated {bytes : List UInt8} {nals : List (List UInt8)}
    (h : aggregated bytes = some nals) : total nals = bytes.length := by
  fun_induction aggregated bytes generalizing nals with
  | case1 =>
      cases h
      rfl
  | case2 => cases h
  | case3 => cases h
  | case4 hi lo rest size hgood =>
      rename_i ih
      obtain ⟨nals', hnals, rfl⟩ := Option.map_eq_some_iff.mp h
      rw [total_cons, ih hnals, List.length_take, List.length_drop, List.length_cons,
        List.length_cons]
      omega

theorem weight_of_parse {bytes : List UInt8} {p : Payload} (h : parse bytes = some p) :
    p.weight = weight bytes := by
  cases bytes with
  | nil => cases h
  | cons header body =>
      rw [parse] at h
      rw [weight_cons]
      split
      · rename_i hfu
        rw [if_pos hfu] at h
        cases body with
        | nil => cases h
        | cons fu fragment =>
            rw [fragmentation] at h
            split at h
            · cases h
            all_goals
              rename_i hstart _
              cases h
              simp [Payload.weight, fragmentWeight, hstart]
      · rename_i hfu
        rw [if_neg hfu] at h
        split
        · rename_i hstap
          rw [if_pos hstap] at h
          obtain ⟨nals, hnals, hp⟩ := Option.bind_eq_some_iff.mp h
          split at hp
          · cases hp
          · cases hp
            exact total_aggregated hnals
        · rename_i hstap
          rw [if_neg hstap] at h
          split at h
          · cases h
            rfl
          · cases h

theorem total_assemble {pending : Option (List UInt8)} {ps : List Payload}
    {ds : List (List UInt8)} (h : assemble pending ps = some ds) :
    total ds = total pending.toList + (ps.map Payload.weight).sum := by
  fun_induction assemble pending ps generalizing ds with
  | case1 =>
      cases h
      rfl
  | case2 nal ps ih =>
      obtain ⟨ds', hds, rfl⟩ := Option.map_eq_some_iff.mp h
      simp [ih hds, Payload.weight]
  | case3 nals ps ih =>
      obtain ⟨ds', hds, rfl⟩ := Option.map_eq_some_iff.mp h
      simp [ih hds, Payload.weight]
  | case4 nal ps ih => simp [ih h, Payload.weight]
  | case5 nal fragment ps ih =>
      simp [ih h, Payload.weight]
      omega
  | case6 nal fragment ps ih =>
      obtain ⟨ds', hds, rfl⟩ := Option.map_eq_some_iff.mp h
      simp [ih hds, Payload.weight]
      omega
  | case7 => cases h

theorem total_depacketize {ps ds : List (List UInt8)} (h : depacketize ps = some ds) :
    total ds = (ps.map weight).sum := by
  obtain ⟨payloads, hparse, hassemble⟩ := Option.bind_eq_some_iff.mp h
  rw [total_assemble hassemble, Option.toList_none, total_nil, Nat.zero_add]
  clear h hassemble
  induction ps generalizing payloads with
  | nil =>
      cases hparse
      rfl
  | cons p ps ih =>
      rw [List.mapM_cons] at hparse
      obtain ⟨q, hq, hparse⟩ := Option.bind_eq_some_iff.mp hparse
      obtain ⟨qs, hqs, hparse⟩ := Option.bind_eq_some_iff.mp hparse
      cases hparse
      simp [weight_of_parse hq, ih qs hqs]

end Rfc6184
