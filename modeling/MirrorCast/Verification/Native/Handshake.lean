import MirrorCast.Library.ModifiedUtf8
import MirrorCast.Program.MediaClientService
import MirrorCast.Program.MyJni
import MirrorCast.Program.Native.MediaClient
import MirrorCast.Verification.Native.Stream

/-! # The client info between the two phones -/

namespace MirrorCast.MediaClientService.ClientInfo

open Java

/-! ## Fields -/

def width (i : ClientInfo) : ℤ :=
  if i.tempOrientation = ORIENTATION_LANDSCAPE then i.mScreenWidthLandscape
  else i.mScreenWidthPortrait

def height (i : ClientInfo) : ℤ :=
  if i.tempOrientation = ORIENTATION_LANDSCAPE then i.mScreenHeightLandscape
  else i.mScreenHeightPortrait

/-- The five fields the text is built from. -/
def fields (i : ClientInfo) : List JString :=
  [i.deviceName, i.mVideoMime, decimal i.width, decimal i.height, decimal i.tempOrientation]

/-- A text of one-byte characters other than `@`. -/
def Plain (s : JString) : Prop := OneByte s ∧ 64 ∉ s

/-- The client infos that survive: texts of one-byte characters without `@`, a known
orientation, and room for the zero at the end. -/
structure Safe (i : ClientInfo) : Prop where
  deviceName : Plain i.deviceName
  mVideoMime : Plain i.mVideoMime ∧ i.mVideoMime ≠ []
  orientation : i.tempOrientation = ORIENTATION_PORTRAIT ∨
    i.tempOrientation = ORIENTATION_LANDSCAPE
  length : i.sb.length < 1024

theorem deviceName_ne_nil (i : ClientInfo) : i.deviceName ≠ [] := by
  rw [deviceName]
  split
  · decide
  · assumption

theorem plain_decimal (n : ℤ) : Plain (decimal n) := by
  constructor
  · intro u hu
    have := mem_decimal hu
    omega
  · intro hat
    have := mem_decimal hat
    omega

theorem Safe.plain {i : ClientInfo} (h : i.Safe) :
    ∀ field ∈ i.fields, Plain field ∧ field ≠ [] := by
  intro field hfield
  simp only [fields, List.mem_cons, List.not_mem_nil, or_false] at hfield
  rcases hfield with rfl | rfl | rfl | rfl | rfl
  · exact ⟨h.deviceName, deviceName_ne_nil i⟩
  · exact h.mVideoMime
  · exact ⟨plain_decimal _, decimal_ne_nil _⟩
  · exact ⟨plain_decimal _, decimal_ne_nil _⟩
  · exact ⟨plain_decimal _, decimal_ne_nil _⟩

/-- With a known orientation the text is the fields, joined. -/
theorem sb_eq_intercalate {i : ClientInfo} (h : i.tempOrientation = ORIENTATION_PORTRAIT ∨
    i.tempOrientation = ORIENTATION_LANDSCAPE) : i.sb = FLAG.intercalate i.fields := by
  rcases h with h | h <;>
    simp [sb, fields, width, height, h, ORIENTATION_PORTRAIT, ORIENTATION_LANDSCAPE,
      List.intercalate, List.intersperse]

end MirrorCast.MediaClientService.ClientInfo

namespace MirrorCast.Native

open Java Chunked Native.MediaServer MediaClientService

/-! ## The way of the bytes -/

theorem client_connect_eq (client_info : List UInt8) (length : ℕ) :
    MediaClient.client_connect client_info length = header length ++ client_info.take length := rfl

/-- What is in `client_info` depends on the bytes alone, not on how they arrive. -/
theorem client_info_of_flows {bytes rest : List UInt8} (hpos : 1 ≤ bytes.length)
    (hle : bytes.length ≤ 1024) {socket : Stream UInt8} (hflows : Flows socket)
    (hsocket : socket.flatten = header bytes.length ++ bytes ++ rest) :
    client_info socket = do
      let client_info ← C.cString (bytes ++ List.replicate (1024 - bytes.length) 0)
      return some client_info := by
  rw [List.append_assoc] at hsocket
  obtain ⟨socket₁, hheader, hrest₁, hflows₁⟩ := read_data_append (header bytes.length) hflows
    (show (header bytes.length).length ≤ DATA_BUFFER by simp [header, DATA_BUFFER]) hsocket
  obtain ⟨socket₂, hbytes, -, -⟩ := read_data_append bytes hflows₁ hle hrest₁
  rw [client_info, show 4 = (header bytes.length).length from rfl, hheader, ok_bind]
  dsimp only
  rw [uint8tToInt_header (by omega), if_neg (by omega), Int.toNat_natCast, hbytes, ok_bind]

/-- The bytes of the client info that the server finds. -/
def carried (i : ClientInfo) : List UInt8 := (modifiedUtf8 i.sb).take i.sb.length

/-- The client info survives: whatever follows it on the stream and however the stream is cut,
both readers of the server find the five fields. -/
def RoundTrips (i : ClientInfo) : Prop :=
  ∃ buffer, MediaClient.set_client_info (modifiedUtf8 i.sb) i.sb.length = .ok buffer ∧
    ∀ (rest : List UInt8) (socket : Stream UInt8), (∀ piece ∈ socket, piece ≠ []) →
      socket.flatten = MediaClient.client_connect buffer i.sb.length ++ rest →
      ∃ bytes s, client_info socket = .ok (some bytes) ∧ newStringUTF bytes = some s ∧
        MyJni.infos s = .ok i.fields ∧ fields bytes = i.fields.map modifiedUtf8

theorem sb_ne_nil (i : ClientInfo) : i.sb ≠ [] := by
  rw [ClientInfo.sb]
  simp [decimal_ne_nil]

theorem length_carried (i : ClientInfo) : (carried i).length = i.sb.length := by
  rw [carried, List.length_take]
  have := (length_modifiedUtf8 i.sb).1
  omega

theorem zero_notMem_carried (i : ClientInfo) : 0 ∉ carried i := fun h =>
  zero_notMem_modifiedUtf8 i.sb (List.mem_of_mem_take h)

theorem set_client_info_eq {i : ClientInfo} (h : i.sb.length ≤ 1024) :
    MediaClient.set_client_info (modifiedUtf8 i.sb) i.sb.length =
      .ok (carried i ++ List.replicate (1024 - i.sb.length) 0) :=
  C.strncpy_zeros (length_modifiedUtf8 i.sb).1 h

theorem client_connect_carried (i : ClientInfo) (zeros : List UInt8) :
    MediaClient.client_connect (carried i ++ zeros) i.sb.length =
      header (carried i).length ++ carried i := by
  rw [client_connect_eq, ← length_carried, List.take_left]

theorem client_info_carried {i : ClientInfo} (h : i.sb.length ≤ 1024) {rest : List UInt8}
    {socket : Stream UInt8} (hflows : Flows socket)
    (hsocket : socket.flatten = header (carried i).length ++ carried i ++ rest) :
    client_info socket = do
      let client_info ← C.cString (carried i ++ List.replicate (1024 - i.sb.length) 0)
      return some client_info := by
  have hpos := List.length_pos_of_ne_nil (sb_ne_nil i)
  rw [client_info_of_flows (by rw [length_carried]; exact hpos)
    (by rw [length_carried]; exact h) hflows hsocket, length_carried]

/-! ## What gets through -/

theorem modifiedUtf8_FLAG : modifiedUtf8 FLAG = List.replicate 5 64 := rfl

theorem oneByte_FLAG : OneByte FLAG := by
  unfold OneByte
  decide

/-- A text that leaves room for the zero comes out as it went in. -/
theorem client_info_of_short {i : ClientInfo} (h : i.sb.length < 1024) {rest : List UInt8}
    {socket : Stream UInt8} (hflows : Flows socket)
    (hsocket : socket.flatten = header (carried i).length ++ carried i ++ rest) :
    client_info socket = .ok (some (carried i)) := by
  have hzeros : List.replicate (1024 - i.sb.length) (0 : UInt8) =
      0 :: List.replicate (1023 - i.sb.length) 0 := by
    rw [← List.replicate_succ]
    congr 1
    omega
  rw [client_info_carried (Nat.le_of_lt h) hflows hsocket, hzeros,
    C.cString_append (zero_notMem_carried i)]
  rfl

theorem oneByte_intercalate {separator : JString} {pieces : List JString}
    (hseparator : OneByte separator) (hpieces : ∀ piece ∈ pieces, OneByte piece) :
    OneByte (separator.intercalate pieces) := by
  induction pieces with
  | nil => simp [OneByte, List.intercalate_nil]
  | cons piece pieces ih =>
      cases pieces with
      | nil => simpa [List.intercalate_singleton] using hpieces
      | cons piece' pieces =>
          intro u hu
          rw [List.intercalate_cons_cons, List.mem_append, List.mem_append] at hu
          rcases hu with (hu | hu) | hu
          · exact hpieces piece (by simp) u hu
          · exact hseparator u hu
          · exact ih (fun p hp => hpieces p (List.mem_cons_of_mem piece hp)) u hu

theorem carried_of_oneByte {i : ClientInfo} (h : OneByte i.sb) : carried i = modifiedUtf8 i.sb := by
  rw [carried, ← length_of_oneByte h, List.take_length]

theorem oneByte_sb {i : ClientInfo} (h : i.Safe) : OneByte i.sb := by
  rw [ClientInfo.sb_eq_intercalate h.orientation]
  exact oneByte_intercalate oneByte_FLAG fun field hfield => (h.plain field hfield).1.1

/-- The Java side splits at the separator. -/
theorem infos_sb {i : ClientInfo} (h : i.Safe) : MyJni.infos i.sb = .ok i.fields := by
  have hsplit : split MyJni.FLAG i.sb = i.fields := by
    rw [ClientInfo.sb_eq_intercalate h.orientation]
    exact split_intercalate (List.cons_ne_nil _ _) (fun f hf => (h.plain f hf).1.2)
      (by simp [ClientInfo.fields, decimal_ne_nil])
  rw [MyJni.infos, hsplit]
  rfl

theorem plain_modifiedUtf8 {s : JString} (h : ClientInfo.Plain s ∧ s ≠ []) :
    modifiedUtf8 s ≠ [] ∧ 64 ∉ modifiedUtf8 s := by
  constructor
  · intro hnil
    have hlength := (length_modifiedUtf8 s).1
    rw [hnil] at hlength
    exact h.2 (List.eq_nil_of_length_eq_zero (Nat.le_zero.mp hlength))
  · exact fun hat => h.1.2 ((mem_modifiedUtf8 (n := 64) (by decide) (by decide)).mp hat)

/-- The native side splits at every `@` and skips what is empty. -/
theorem fields_sb {i : ClientInfo} (h : i.Safe) :
    fields (modifiedUtf8 i.sb) = i.fields.map modifiedUtf8 := by
  have hpieces : ∀ piece ∈ i.fields.map modifiedUtf8, piece ≠ [] ∧ 64 ∉ piece := by
    intro piece hpiece
    obtain ⟨field, hfield, rfl⟩ := List.mem_map.mp hpiece
    exact plain_modifiedUtf8 (h.plain field hfield)
  rw [fields, ClientInfo.sb_eq_intercalate h.orientation, modifiedUtf8_intercalate,
    modifiedUtf8_FLAG, C.strsep_intercalate hpieces]
  rfl

theorem roundTrips_of_safe {i : ClientInfo} (h : i.Safe) : RoundTrips i := by
  have hlength := h.length
  have hone := oneByte_sb h
  refine ⟨_, set_client_info_eq (Nat.le_of_lt hlength), fun rest socket hflows hsocket => ?_⟩
  rw [client_connect_carried] at hsocket
  have hreceived := client_info_of_short hlength hflows hsocket
  rw [carried_of_oneByte hone] at hreceived
  exact ⟨modifiedUtf8 i.sb, i.sb, hreceived, newStringUTF_modifiedUtf8 hone, infos_sb h,
    fields_sb h⟩

/-! ## What gets lost -/

theorem filter_intercalate {p : UInt8 → Bool} {separator : List UInt8}
    (h : separator.filter p = []) (pieces : List (List UInt8)) :
    (separator.intercalate pieces).filter p = pieces.flatten.filter p := by
  induction pieces with
  | nil => rfl
  | cons piece pieces ih =>
      cases pieces with
      | nil => simp [List.intercalate_singleton]
      | cons piece' pieces =>
          rw [List.intercalate_cons_cons, List.filter_append, List.filter_append, h, ih]
          simp

/-- A text that fits `client_info` without its zero is no string there. -/
theorem length_lt_of_client_info {i : ClientInfo} (h : i.sb.length ≤ 1024) {rest bytes : List UInt8}
    {socket : Stream UInt8} (hflows : Flows socket)
    (hsocket : socket.flatten = header (carried i).length ++ carried i ++ rest)
    (hbytes : client_info socket = .ok (some bytes)) : i.sb.length < 1024 := by
  by_contra hge
  have hzeros : 1024 - i.sb.length = 0 := by omega
  rw [client_info_carried h hflows hsocket, hzeros, List.replicate_zero, List.append_nil] at hbytes
  obtain ⟨text, htext, -⟩ := bind_eq_ok.mp hbytes
  exact zero_notMem_carried i (C.cString_eq_ok htext)

theorem length_le_of_set_client_info {info buffer : List UInt8} {length : ℕ}
    (h : MediaClient.set_client_info info length = .ok buffer) : length ≤ 1024 := by
  unfold MediaClient.set_client_info C.strncpy at h
  rw [List.length_replicate] at h
  split at h
  · cases h
  · rename_i hle
    exact Nat.le_of_not_lt hle

/-- What the native side needs for the round trip. -/
theorem fields_of_roundTrips {i : ClientInfo} (h : RoundTrips i) :
    i.sb.length < 1024 ∧ fields (carried i) = i.fields.map modifiedUtf8 := by
  obtain ⟨buffer, hset, hread⟩ := h
  have hle := length_le_of_set_client_info hset
  rw [set_client_info_eq hle] at hset
  cases hset
  have hflatten : [header (carried i).length ++ carried i].flatten =
      header (carried i).length ++ carried i ++ [] := by simp
  have hflows : Flows [header (carried i).length ++ carried i] := by
    simp [Flows, header]
  obtain ⟨bytes, s, hbytes, -, -, hfields⟩ := hread [] _ hflows
    (by rw [client_connect_carried]; exact hflatten)
  have hshort := length_lt_of_client_info hle hflows hflatten hbytes
  rw [client_info_of_short hshort hflows hflatten] at hbytes
  cases hbytes
  exact ⟨hshort, hfields⟩

/-- The pieces found have no `@` and are not empty. -/
theorem field_of_fields {i : ClientInfo} (h : fields (carried i) = i.fields.map modifiedUtf8)
    {field : JString} (hfield : field ∈ i.fields) : field ≠ [] ∧ 64 ∉ field := by
  have hmem : modifiedUtf8 field ∈ fields (carried i) := by
    rw [h]
    exact List.mem_map_of_mem hfield
  obtain ⟨hpiece, hne⟩ := List.mem_filter.mp (List.mem_of_mem_take hmem)
  constructor
  · rintro rfl
    simp [modifiedUtf8] at hne
  · intro hat
    exact C.notMem_of_mem_strsep hpiece ((mem_modifiedUtf8 (by decide) (by decide)).mpr hat)

/-- The bytes between the separators, of which a known orientation has five fields. -/
def pieces (i : ClientInfo) : List JString :=
  if i.tempOrientation = ORIENTATION_PORTRAIT ∨ i.tempOrientation = ORIENTATION_LANDSCAPE then
    i.fields
  else [i.deviceName, i.mVideoMime, [], decimal i.tempOrientation]

theorem sb_eq_pieces (i : ClientInfo) : i.sb = FLAG.intercalate (pieces i) := by
  rw [pieces]
  split
  · rename_i h
    exact ClientInfo.sb_eq_intercalate h
  · rename_i h
    rw [not_or] at h
    simp [ClientInfo.sb, h.1, h.2, List.intercalate, List.intersperse]

theorem filter_sb (i : ClientInfo) : (modifiedUtf8 i.sb).filter (· ≠ 64) =
    ((pieces i).map modifiedUtf8).flatten.filter (· ≠ 64) := by
  rw [sb_eq_pieces, modifiedUtf8_intercalate, modifiedUtf8_FLAG]
  exact filter_intercalate (by decide) _

theorem length_fields_le {i : ClientInfo} (h : fields (carried i) = i.fields.map modifiedUtf8) :
    (i.fields.map modifiedUtf8).flatten.length ≤ ((carried i).filter (· ≠ 64)).length := by
  have hflatten := C.flatten_strsep 64 (carried i)
  rw [← List.flatten_filter_ne_nil, ← List.take_append_drop 5 (List.filter _ _),
    List.flatten_append] at hflatten
  rw [← h, ← hflatten, List.length_append]
  exact Nat.le_add_right _ _

theorem length_filter_carried_le (i : ClientInfo) :
    ((carried i).filter (· ≠ 64)).length ≤ ((modifiedUtf8 i.sb).filter (· ≠ 64)).length :=
  ((List.take_sublist _ _).filter _).length_le

/-- The separators aside, an unknown orientation leaves too few bytes. -/
theorem orientation_of_fields {i : ClientInfo}
    (h : fields (carried i) = i.fields.map modifiedUtf8) :
    i.tempOrientation = ORIENTATION_PORTRAIT ∨ i.tempOrientation = ORIENTATION_LANDSCAPE := by
  by_contra hunknown
  have hfields := (length_fields_le h).trans (length_filter_carried_le i)
  rw [filter_sb, pieces, if_neg hunknown] at hfields
  have hwidth := (length_modifiedUtf8 (decimal i.width)).1
  have hpos := List.length_pos_of_ne_nil (decimal_ne_nil i.width)
  have hle := List.length_filter_le (fun b : UInt8 => decide (b ≠ 64))
    (List.map modifiedUtf8 [i.deviceName, i.mVideoMime, [], decimal i.tempOrientation]).flatten
  have hpieces := hfields.trans hle
  simp only [ClientInfo.fields, List.map_cons, List.map_nil, List.flatten_cons, List.flatten_nil,
    List.length_append, List.length_nil, modifiedUtf8, List.flatMap_nil] at hpieces hwidth
  omega

theorem exists_last (i : ClientInfo) :
    ∃ front b, modifiedUtf8 i.sb = front ++ [b] ∧ b ≠ 64 := by
  obtain ⟨hne, hfree⟩ := plain_modifiedUtf8
    ⟨ClientInfo.plain_decimal i.tempOrientation, decimal_ne_nil i.tempOrientation⟩
  obtain ⟨front, hfront⟩ : ∃ front, i.sb = front ++ decimal i.tempOrientation := ⟨_, rfl⟩
  refine ⟨modifiedUtf8 front ++ (modifiedUtf8 (decimal i.tempOrientation)).dropLast,
    (modifiedUtf8 (decimal i.tempOrientation)).getLast hne, ?_, ?_⟩
  · rw [hfront, modifiedUtf8_append, List.append_assoc, List.dropLast_append_getLast]
  · exact fun heq => hfree (heq ▸ List.getLast_mem hne)

/-- No byte is left behind, since the last one is no separator. -/
theorem oneByte_of_fields {i : ClientInfo}
    (h : fields (carried i) = i.fields.map modifiedUtf8) : OneByte i.sb := by
  have hfree : ∀ b ∈ (i.fields.map modifiedUtf8).flatten, decide (b ≠ 64) = true := by
    intro b hb
    obtain ⟨piece, hpiece, hb⟩ := List.mem_flatten.mp hb
    obtain ⟨field, hfield, rfl⟩ := List.mem_map.mp hpiece
    rw [decide_eq_true_eq]
    rintro rfl
    exact (field_of_fields h hfield).2 ((mem_modifiedUtf8 (by decide) (by decide)).mp hb)
  have hsame : ((modifiedUtf8 i.sb).filter (· ≠ 64)).length ≤
      ((carried i).filter (· ≠ 64)).length := by
    rw [filter_sb, pieces, if_pos (orientation_of_fields h), List.filter_eq_self.mpr hfree]
    exact length_fields_le h
  obtain ⟨front, b, hlast, hb⟩ := exists_last i
  apply (length_modifiedUtf8 i.sb).2
  by_contra hlong
  rw [carried, ← List.take_append_drop i.sb.length (modifiedUtf8 i.sb), List.filter_append,
    List.length_append, List.take_append_drop, hlast, List.drop_append_of_le_length] at hsame
  · rw [List.filter_append, List.filter_singleton] at hsame
    simp [hb] at hsame
  · rw [hlast, List.length_append, List.length_singleton] at hlong
    omega

theorem safe_of_roundTrips {i : ClientInfo} (h : RoundTrips i) : i.Safe := by
  obtain ⟨hshort, hfields⟩ := fields_of_roundTrips h
  have hone := oneByte_of_fields hfields
  have hname := field_of_fields hfields (show i.deviceName ∈ i.fields by simp [ClientInfo.fields])
  have hmime := field_of_fields hfields (show i.mVideoMime ∈ i.fields by simp [ClientInfo.fields])
  refine ⟨⟨fun u hu => hone u ?_, hname.2⟩, ⟨⟨fun u hu => hone u ?_, hmime.2⟩, hmime.1⟩,
    orientation_of_fields hfields, hshort⟩
  · rw [ClientInfo.sb]
    simp [hu]
  · rw [ClientInfo.sb]
    simp [hu]

/-- The client info survives the way to the server exactly when it is safe. -/
theorem client_info_roundTrips_iff (i : ClientInfo) : RoundTrips i ↔ i.Safe :=
  ⟨safe_of_roundTrips, roundTrips_of_safe⟩

/-- The client info that the comments of the server show. -/
example : ClientInfo.Safe ⟨jstr "ARS-AL00", jstr "video/hevc", 1080, 2244, 2244, 1080, 1⟩ :=
  ⟨by unfold ClientInfo.Plain OneByte; decide +kernel,
    by unfold ClientInfo.Plain OneByte; decide +kernel, Or.inl rfl, by decide +kernel⟩

/-- A phone with an accent in its name. -/
def accented : ClientInfo where
  DEVICE_NAME := jstr "André"
  mVideoMime := jstr "video/avc"
  mScreenWidthPortrait := 1080
  mScreenHeightPortrait := 2244
  mScreenWidthLandscape := 2244
  mScreenHeightLandscape := 1080
  tempOrientation := 1

/-- The length in characters cuts off the last byte, which is the orientation. -/
theorem accented_client_info_is_cut :
    ¬ ∀ i : ClientInfo, contains i.deviceName FLAG = false →
      (modifiedUtf8 i.deviceName).length < 1024 → 64 ∉ i.mVideoMime → RoundTrips i := by
  intro h
  have hsafe := safe_of_roundTrips
    (h accented (by decide +kernel) (by decide +kernel) (by decide +kernel))
  have hbyte := hsafe.deviceName.1 0xe9 (by decide +kernel)
  omega

end MirrorCast.Native
