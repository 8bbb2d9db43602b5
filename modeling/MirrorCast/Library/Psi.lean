import MirrorCast.Library.Crc
import MirrorCast.Library.MpegTs

/-! # Program specific information, read as ISO 13818-1 defines it -/

namespace Psi

open MpegTs

def crc (bytes : List UInt8) : BitVec 32 := Crc.remainder 0x04C11DB7#32 0xFFFFFFFF#32 bytes

/-- A PID of 13 bits behind three reserved ones. -/
def pid13 (high low : UInt8) : ℕ := (high &&& 0x1f).toNat * 256 + low.toNat

/-- A length of 12 bits behind four others. -/
def length12 (high low : UInt8) : ℕ := (high &&& 0x0f).toNat * 256 + low.toNat

/-! ## Sections -/

/-- A section: the number that follows its length, and what lies between its header and its CRC. -/
structure Section where
  tableId : UInt8
  number : ℕ
  contents : List UInt8
  deriving DecidableEq, Repr

/-- The section at the beginning of `bytes`, which must hold all of it; its CRC must be zero. -/
def parseSection (bytes : List UInt8) : Option Section :=
  match bytes with
  | tableId :: b1 :: b2 :: n1 :: n0 :: _ :: _ :: _ :: rest =>
      let section_length := length12 b1 b2
      if b1 &&& 0x80 = 0 ∨ section_length < 9 ∨ bytes.length < 3 + section_length ∨
          crc (bytes.take (3 + section_length)) ≠ 0 then none
      else some ⟨tableId, n1.toNat * 256 + n0.toNat, rest.take (section_length - 9)⟩
  | _ => none

/-- The section that starts in a packet, behind the pointer field. -/
def sectionOf (p : Packet) : Option Section :=
  match p.payload with
  | pointer :: rest => if p.unitStart then parseSection (rest.drop pointer.toNat) else none
  | [] => none

/-- A whole section is read with its contents. -/
theorem parseSection_eq_some {tableId b1 b2 n1 n0 v1 v2 v3 : UInt8}
    {contents checksum rest : List UInt8}
    (hindicator : b1 &&& 0x80 ≠ 0) (hlength : length12 b1 b2 = contents.length + 9)
    (hchecksum : checksum.length = 4)
    (hcrc : crc ([tableId, b1, b2, n1, n0, v1, v2, v3] ++ contents ++ checksum) = 0) :
    parseSection ([tableId, b1, b2, n1, n0, v1, v2, v3] ++ contents ++ checksum ++ rest) =
      some ⟨tableId, n1.toNat * 256 + n0.toNat, contents⟩ := by
  have hwhole : ([tableId, b1, b2, n1, n0, v1, v2, v3] ++ contents ++ checksum).length =
      3 + length12 b1 b2 := by
    rw [List.length_append, List.length_append, hchecksum, hlength]
    simp only [List.length_cons, List.length_nil]
    omega
  have htake : ([tableId, b1, b2, n1, n0, v1, v2, v3] ++ contents ++ checksum ++ rest).take
      (3 + length12 b1 b2) = [tableId, b1, b2, n1, n0, v1, v2, v3] ++ contents ++ checksum :=
    List.take_left' hwhole
  have hfits : 3 + length12 b1 b2 ≤
      ([tableId, b1, b2, n1, n0, v1, v2, v3] ++ contents ++ checksum ++ rest).length := by
    rw [List.length_append, hwhole]
    exact Nat.le_add_right ..
  have hcontents : (contents ++ checksum ++ rest).take (length12 b1 b2 - 9) = contents := by
    rw [List.append_assoc]
    exact List.take_left' (by omega)
  have hbytes : [tableId, b1, b2, n1, n0, v1, v2, v3] ++ contents ++ checksum ++ rest =
      tableId :: b1 :: b2 :: n1 :: n0 :: v1 :: v2 :: v3 :: (contents ++ checksum ++ rest) := by
    simp
  rw [hbytes] at htake hfits ⊢
  unfold parseSection
  dsimp only
  rw [htake, hcontents, if_neg]
  rintro (h | h | h | h)
  · exact hindicator h
  · omega
  · omega
  · exact h hcrc

/-- A section that is longer than what is there is not read. -/
theorem parseSection_eq_none {tableId b1 b2 : UInt8} {rest : List UInt8}
    (h : (tableId :: b1 :: b2 :: rest).length < 3 + length12 b1 b2) :
    parseSection (tableId :: b1 :: b2 :: rest) = none := by
  unfold parseSection
  split
  · rename_i heq
    cases heq
    exact if_pos (Or.inr (Or.inr (Or.inl h)))
  · rfl

/-! ## Descriptors -/

structure Descriptor where
  tag : UInt8
  data : List UInt8
  deriving DecidableEq, Repr

def parseDescriptors : List UInt8 → Option (List Descriptor)
  | [] => some []
  | [_] => none
  | tag :: length :: rest =>
      if rest.length < length.toNat then none
      else (parseDescriptors (rest.drop length.toNat)).map
        (⟨tag, rest.take length.toNat⟩ :: ·)
termination_by bytes => bytes.length
decreasing_by
  simp only [List.length_drop, List.length_cons]
  omega

theorem parseDescriptors_cons {tag length : UInt8} {data : List UInt8}
    (hlength : data.length = length.toNat) (rest : List UInt8) :
    parseDescriptors (tag :: length :: (data ++ rest)) =
      (parseDescriptors rest).map (⟨tag, data⟩ :: ·) := by
  rw [parseDescriptors, if_neg (by rw [List.length_append]; omega), ← hlength, List.drop_left,
    List.take_left]

/-- The bytes of a descriptor. -/
def Describes (bytes : List UInt8) (d : Descriptor) : Prop :=
  ∃ length, bytes = d.tag :: length :: d.data ∧ d.data.length = length.toNat

theorem parseDescriptors_flatten {bytes : List (List UInt8)} {ds : List Descriptor}
    (h : List.Forall₂ Describes bytes ds) : parseDescriptors bytes.flatten = some ds := by
  induction h with
  | nil => rw [List.flatten_nil, parseDescriptors]
  | cons hd _ ih =>
      obtain ⟨length, rfl, hlength⟩ := hd
      rw [List.flatten_cons, List.cons_append, List.cons_append, parseDescriptors_cons hlength, ih]
      rfl

/-! ## Tables -/

/-- The program numbers, with the PIDs of their maps. -/
def parsePrograms : List UInt8 → Option (List (ℕ × ℕ))
  | [] => some []
  | n1 :: n0 :: p1 :: p0 :: rest =>
      (parsePrograms rest).map ((n1.toNat * 256 + n0.toNat, pid13 p1 p0) :: ·)
  | _ => none

/-- The program association table that starts in a packet. -/
def parsePat (p : Packet) : Option (List (ℕ × ℕ)) :=
  if p.pid ≠ 0 then none
  else
    match sectionOf p with
    | some ⟨0, _, contents⟩ => parsePrograms contents
    | _ => none

structure Stream where
  streamType : ℕ
  pid : ℕ
  descriptors : List Descriptor
  deriving DecidableEq, Repr

def parseStreams : List UInt8 → Option (List Stream)
  | [] => some []
  | streamType :: p1 :: p0 :: l1 :: l0 :: rest =>
      if rest.length < length12 l1 l0 then none
      else
        match parseDescriptors (rest.take (length12 l1 l0)),
            parseStreams (rest.drop (length12 l1 l0)) with
        | some descriptors, some streams =>
            some (⟨streamType.toNat, pid13 p1 p0, descriptors⟩ :: streams)
        | _, _ => none
  | _ => none
termination_by bytes => bytes.length
decreasing_by
  simp only [List.length_drop, List.length_cons]
  omega

theorem parseStreams_cons {streamType p1 p0 l1 l0 : UInt8} {info rest : List UInt8}
    {descriptors : List Descriptor} (hlength : info.length = length12 l1 l0)
    (hinfo : parseDescriptors info = some descriptors) :
    parseStreams (streamType :: p1 :: p0 :: l1 :: l0 :: (info ++ rest)) =
      (parseStreams rest).map (⟨streamType.toNat, pid13 p1 p0, descriptors⟩ :: ·) := by
  rw [parseStreams, if_neg (by rw [List.length_append]; omega), ← hlength, List.drop_left,
    List.take_left, hinfo]
  cases parseStreams rest with
  | none => rfl
  | some streams => rfl

structure ProgramMap where
  program : ℕ
  pcrPid : ℕ
  descriptors : List Descriptor
  streams : List Stream
  deriving DecidableEq, Repr

def parseMap (program : ℕ) : List UInt8 → Option ProgramMap
  | p1 :: p0 :: l1 :: l0 :: rest =>
      if rest.length < length12 l1 l0 then none
      else
        match parseDescriptors (rest.take (length12 l1 l0)),
            parseStreams (rest.drop (length12 l1 l0)) with
        | some descriptors, some streams => some ⟨program, pid13 p1 p0, descriptors, streams⟩
        | _, _ => none
  | _ => none

/-- The program map table that starts in a packet on `pid`. -/
def parsePmt (pid : ℕ) (p : Packet) : Option ProgramMap :=
  if p.pid ≠ pid then none
  else
    match sectionOf p with
    | some ⟨2, program, contents⟩ => parseMap program contents
    | _ => none

theorem parseMap_eq_some {p1 p0 l1 l0 : UInt8} {info rest : List UInt8} {program : ℕ}
    {descriptors : List Descriptor} {streams : List Stream}
    (hlength : info.length = length12 l1 l0) (hinfo : parseDescriptors info = some descriptors)
    (hstreams : parseStreams rest = some streams) :
    parseMap program (p1 :: p0 :: l1 :: l0 :: (info ++ rest)) =
      some ⟨program, pid13 p1 p0, descriptors, streams⟩ := by
  rw [parseMap, if_neg (by rw [List.length_append]; omega), ← hlength, List.drop_left,
    List.take_left, hinfo, hstreams]

end Psi
