import MirrorCast.Verification.Net.Messages
import MirrorCast.Verification.Net.MoreData
import MirrorCast.Verification.Net.TextMessages

/-! # Reading a stream in pieces -/

namespace MirrorCast

open Java Framing StringUtils ANetworkSession

namespace Net

/-! ## The buffer between two reads -/

/-- The bytes in front of the position, to which the next read adds. -/
def kept (s : Session) : List UInt8 := s.mInBuffer.kept

/-- Every `readMore` leaves the position of the buffer at 0. -/
structure Rewound (mode : Session.Mode) (s : Session) : Prop where
  mode_eq : s.mMode = mode
  position_eq : s.mInBuffer.position = 0
  capacity_le : 512 ≤ s.mInBuffer.array.length

def ReadSize (bytes : List UInt8) : Prop := 1 ≤ bytes.length ∧ bytes.length ≤ 512

theorem rewound_new (mode : Session.Mode) : Rewound mode (.new .CONNECTED mode) :=
  ⟨rfl, rfl, by
    rw [Session.new, BytesHolder.new, List.length_replicate]
    decide⟩

theorem fill_rewound {mode : Session.Mode} {s : Session} (hs : Rewound mode s)
    {bytes : List UInt8} (hread : ReadSize bytes) :
    Session.fill s.mInBuffer (some bytes) =
      .ok (⟨blit s.mInBuffer.array 0 bytes, 0, bytes.length⟩, OK) := by
  have hcap := hs.capacity_le
  have hresize : s.mInBuffer.resizeTo (0 + 512) 0 0 = .ok s.mInBuffer := by
    rw [BytesHolder.resizeTo, if_neg (by omega), if_pos (by omega)]
  rw [Session.fill, hs.position_eq, hresize, ok_bind, hs.position_eq, if_neg (by omega)]
  dsimp only
  rw [List.take_of_length_le hread.2, if_neg (List.ne_nil_of_length_pos hread.1), Nat.zero_add]
  rfl

/-! ## The messages of a stream -/

section Messages

variable [CharData]

/-- The well-formed messages of each mode, with length fields below `2 ^ 15`. -/
inductive Message : Session.Mode → Type where
  | datagram (data : List UInt8) (h : data.length < 32768) : Message .MODE_DATAGRAM
  | binary (channel : UInt8) (data : List UInt8) (h : data.length < 32768) : Message .MODE_RTSP
  | text (m : Text) (h : (utf8 m.content).length < 32768) : Message .MODE_RTSP
  | webSocket (f : Frame) (h : f.payload.length < 32768) : Message .MODE_WEBSOCKET

namespace Message

def bytes : {mode : Session.Mode} → Message mode → List UInt8
  | _, datagram data _ => datagramBytes data
  | _, binary channel data _ => binaryBytes channel data
  | _, text m _ => m.bytes
  | _, webSocket f _ => f.bytes

def post : {mode : Session.Mode} → Message mode → Notification
  | _, datagram data _ => .datagram data
  | _, binary channel data _ => .binaryData channel.toNat data
  | _, text m _ => m.post
  | _, webSocket f _ => f.post

theorem bytes_datagram {data : List UInt8} (h : data.length < 32768) :
    bytes (datagram data h) = datagramBytes data := rfl

theorem post_datagram {data : List UInt8} (h : data.length < 32768) :
    post (datagram data h) = .datagram data := rfl

theorem bytes_binary {channel : UInt8} {data : List UInt8} (h : data.length < 32768) :
    bytes (binary channel data h) = binaryBytes channel data := rfl

theorem post_binary {channel : UInt8} {data : List UInt8} (h : data.length < 32768) :
    post (binary channel data h) = .binaryData channel.toNat data := rfl

/-- A text message is of seven-bit characters. -/
def Ascii : {mode : Session.Mode} → Message mode → Prop
  | _, text m _ => m.Ascii
  | _, _ => True

/-- A text message is the request of which `readMore` looks past the end. -/
def Idr : {mode : Session.Mode} → Message mode → Prop
  | _, text m _ => m.Idr
  | _, _ => False

theorem bytes_ne_nil {mode : Session.Mode} (m : Message mode) : m.bytes ≠ [] := by
  apply List.ne_nil_of_length_pos
  cases m with
  | datagram data h => exact Nat.lt_of_lt_of_eq (by omega) (length_datagramBytes data).symm
  | binary channel data h =>
      exact Nat.lt_of_lt_of_eq (by omega) (length_binaryBytes channel data).symm
  | text m h =>
      have hhead := length_head m
      have hle := (length_utf16 m.head).1
      have hbytes := length_bytes_text m
      exact Nat.lt_of_lt_of_le (by omega : 0 < (utf16 m.head).length) (by simp only [bytes]; omega)
  | webSocket f h =>
      have hlength := f.length_bytes
      simp only [bytes]
      omega

/-- What follows a message does not start like the end of a line. -/
theorem head?_bytes {ms : List (Message .MODE_RTSP)} (hms : ms ≠ []) :
    ∃ u ≠ 0x0d, (newStringFromBytes (ms.flatMap bytes)).head? = some u := by
  cases ms with
  | nil => exact absurd rfl hms
  | cons m ms =>
      rw [List.flatMap_cons]
      cases m with
      | binary channel data h =>
          refine ⟨36, by decide, ?_⟩
          have hbytes : (binary channel data h).bytes ++ ms.flatMap bytes = UInt8.ofNat 36 ::
              (channel :: (bigEndian 2 data.length ++ data) ++ ms.flatMap bytes) := rfl
          rw [hbytes, newStringFromBytes, decode_one (by omega)]
          rfl
      | text m h =>
          obtain ⟨u, hu⟩ : ∃ u, (newStringFromBytes (m.bytes ++ ms.flatMap bytes)).head? = some u := by
            obtain ⟨c, line, hline⟩ := List.exists_cons_of_ne_nil (utf16_ne_nil m.startLine_ne)
            rw [newStringFromBytes_text, Text.head, utf16_append, utf16_append, hline]
            exact ⟨c, rfl⟩
          refine ⟨u, ?_, hu⟩
          rintro rfl
          have hcr : m.startLine.head? ≠ some '\r' :=
            fun heq => m.startLine_cr (List.mem_of_mem_head? heq)
          exact head?_newStringFromBytes_text m _ (by decide) hcr hu

end Message

open Message

theorem turn_datagram (err : ℤ) :
    (Session.reader err .MODE_DATAGRAM).turn = Session.datagramTurn := rfl

theorem turn_rtsp (err : ℤ) : (Session.reader err .MODE_RTSP).turn = Session.rtspTurn err := rfl

theorem turn_nil (mode : Session.Mode) : (Session.reader OK mode).turn [] = .stop [] none := by
  cases mode with
  | MODE_RTSP => rfl
  | MODE_DATAGRAM => rfl
  | MODE_WEBSOCKET => rfl

/-! ## One read -/

/-- One `readMore`: the session, what is posted and what is thrown. -/
def receive : Receive Session UInt8 Notification JavaException := fun s bytes =>
  match s.readMore (some bytes) with
  | (s', posted, .ok _) => (s', posted, none)
  | (s', posted, .error e) => (s', posted, some e)

theorem receive_rewound {mode : Session.Mode} {s : Session} (hs : Rewound mode s)
    {bytes : List UInt8} (hread : ReadSize bytes) :
    ∃ s', receive s bytes = (s', (Session.reader OK mode).all bytes) ∧ Rewound mode s' := by
  have hdata : (blit s.mInBuffer.array 0 bytes).take bytes.length = bytes := by
    rw [blit, List.take_zero, List.nil_append, List.take_left]
  have hcap := hs.capacity_le
  refine ⟨{ s with mInBuffer := ⟨blit s.mInBuffer.array 0 bytes, 0, bytes.length⟩ }, ?_,
    hs.mode_eq, rfl, ?_⟩
  · rw [receive, Session.readMore, fill_rewound hs hread]
    dsimp only
    rw [hdata, hs.mode_eq]
    obtain ⟨posted, thrown⟩ := (Session.reader OK mode).all bytes
    cases thrown with
    | some e => rfl
    | none =>
        dsimp only
        rw [if_neg (by simp)]
  · dsimp only
    rw [length_blit (by have := hread.2; omega)]
    exact hcap

theorem forgets (mode : Session.Mode) :
    Forgets receive (Session.reader OK mode) kept (Rewound mode) ReadSize where
  kept {s} hs := by rw [kept, BytesHolder.kept, hs.position_eq, List.take_zero]
  receives hs hread := receive_rewound hs hread

/-! ## Messages of seven-bit text -/

section Ascii

variable {mode : Session.Mode}

/-- A message with others behind it is taken off right, unless it is the request of which
`readMore` looks past the end and there are none. -/
theorem turn_of_ascii {m : Message mode} {ms : List (Message mode)} (hascii : m.Ascii)
    (hidr : m.Idr → ms ≠ []) (hsize : (bytes m ++ ms.flatMap bytes).length < 2 ^ 31) :
    (Session.reader OK mode).turn (bytes m ++ ms.flatMap bytes) =
      .took (post m) (bytes m).length := by
  cases m with
  | datagram data h =>
      rw [turn_datagram, bytes_datagram, post_datagram]
      exact datagramTurn_of_lt h _
  | binary channel data h =>
      rw [turn_rtsp, bytes_binary, post_binary]
      exact rtspTurn_binary_of_lt OK channel h _
  | text m h =>
      rw [List.length_append] at hsize
      exact rtspTurn_text hascii (Nat.lt_of_le_of_lt (Nat.le_add_right _ _) hsize)
        fun hm => head?_bytes (hidr hm)
  | webSocket f h =>
      have hstream : (f.bytes ++ ms.flatMap bytes).length < 2 ^ 31 := hsize
      exact webSocketTurn_append f (fun _ => h) (by omega) _ (by omega)

theorem turn_idr {m : Message mode} (hascii : m.Ascii) (hidr : m.Idr)
    (hsize : (bytes m).length < 2 ^ 31) :
    ∃ e, (Session.reader OK mode).turn (bytes m) = .stop [post m] (some e) := by
  cases m with
  | datagram data h => exact hidr.elim
  | binary channel data h => exact hidr.elim
  | text m h => exact rtspTurn_idr hascii hsize hidr
  | webSocket f h => exact hidr.elim

/-- A message together with its bytes. -/
def chunk (m : Message mode) : Notification × List UInt8 := (post m, bytes m)

theorem flatMap_chunk (ms : List (Message mode)) :
    (ms.map chunk).flatMap Prod.snd = ms.flatMap bytes := List.flatMap_map ..

/-- Parsed at once, the stream gives its messages. -/
theorem all_of_ascii {ms : List (Message mode)} (hascii : ∀ m ∈ ms, m.Ascii)
    (hsize : (ms.flatMap bytes).length < 2 ^ 31) :
    ((Session.reader OK mode).all (ms.flatMap bytes)).1 = ms.map post := by
  induction ms with
  | nil => rw [List.flatMap_nil, Reader.all_of_stop (turn_nil mode), List.map_nil]
  | cons m ms ih =>
      obtain ⟨hm, hms⟩ := List.forall_mem_cons.mp hascii
      rw [List.flatMap_cons] at hsize ⊢
      by_cases hidr : m.Idr → ms ≠ []
      · have hrest : (ms.flatMap bytes).length < 2 ^ 31 := by
          rw [List.length_append] at hsize
          omega
        rw [Reader.all_of_took (turn_of_ascii hm hidr hsize), List.drop_left, ih hms hrest,
          List.map_cons]
      · obtain ⟨hmIdr, hnil⟩ := Classical.not_imp.mp hidr
        obtain rfl := not_not.mp hnil
        rw [List.flatMap_nil, List.append_nil] at hsize ⊢
        obtain ⟨e, he⟩ := turn_idr hm hmIdr hsize
        rw [Reader.all_of_stop he, List.map_singleton]

theorem prefix_chunks {group ms : List (Message mode)} (hascii : ∀ m ∈ group, m.Ascii)
    (hidr : ∀ m ∈ group.getLast?, m.Idr → ms ≠ [])
    (hsize : ((group ++ ms).flatMap bytes).length < 2 ^ 31) :
    group.map chunk <+: (Session.reader OK mode).chunks ((group ++ ms).flatMap bytes) := by
  induction group with
  | nil => exact List.nil_prefix
  | cons m group ih =>
      obtain ⟨hm, hgroup⟩ := List.forall_mem_cons.mp hascii
      rw [List.cons_append, List.flatMap_cons] at hsize ⊢
      have hnext : m.Idr → group ++ ms ≠ [] := by
        intro hm
        cases group with
        | nil => exact hidr m rfl hm
        | cons m' group => exact List.cons_ne_nil _ _
      rw [Reader.chunks_of_took (turn_of_ascii hm hnext hsize), List.take_left, List.drop_left,
        List.map_cons]
      refine List.cons_prefix_cons.mpr ⟨rfl, ih hgroup ?_ ?_⟩
      · cases group with
        | nil => simp
        | cons m' group => rwa [List.getLast?_cons_cons] at hidr
      · rw [List.length_append] at hsize
        omega

theorem chunks_prefix_map {ms : List (Message mode)} (hascii : ∀ m ∈ ms, m.Ascii)
    (hsize : (ms.flatMap bytes).length < 2 ^ 31) :
    (Session.reader OK mode).chunks (ms.flatMap bytes) <+: ms.map chunk := by
  induction ms with
  | nil =>
      rw [List.flatMap_nil, Reader.chunks_of_stop (turn_nil mode)]
      exact List.nil_prefix
  | cons m ms ih =>
      obtain ⟨hm, hms⟩ := List.forall_mem_cons.mp hascii
      rw [List.flatMap_cons] at hsize ⊢
      by_cases hidr : m.Idr → ms ≠ []
      · have hrest : (ms.flatMap bytes).length < 2 ^ 31 := by
          rw [List.length_append] at hsize
          omega
        rw [Reader.chunks_of_took (turn_of_ascii hm hidr hsize), List.take_left, List.drop_left]
        exact List.cons_prefix_cons.mpr ⟨rfl, ih hms hrest⟩
      · obtain ⟨hmIdr, hnil⟩ := Classical.not_imp.mp hidr
        obtain rfl := not_not.mp hnil
        rw [List.flatMap_nil, List.append_nil] at hsize ⊢
        obtain ⟨e, he⟩ := turn_idr hm hmIdr hsize
        rw [Reader.chunks_of_stop he]
        exact List.nil_prefix

/-- The stream is cut where messages end, and no read but the last ends with the request of which
`readMore` looks past the end. -/
def CutBetween (ms : List (Message mode)) (reads : List (List UInt8)) : Prop :=
  ∃ groups, Whole bytes groups ms reads ∧
    ∀ group ∈ groups.dropLast, ∀ m ∈ group.getLast?, ¬ m.Idr

theorem separate_of_cutBetween {ms : List (Message mode)} {reads : List (List UInt8)}
    (hascii : ∀ m ∈ ms, m.Ascii) (hsize : (ms.flatMap bytes).length < 2 ^ 31)
    (h : CutBetween ms reads) : (Session.reader OK mode).Separate reads := by
  obtain ⟨groups, ⟨rfl, rfl⟩, hidr⟩ := h
  induction groups with
  | nil => trivial
  | cons group groups ih =>
      cases groups with
      | nil => trivial
      | cons next groups =>
          rw [List.flatten_cons, List.forall_mem_append] at hascii
          rw [List.flatten_cons, List.flatMap_append, List.length_append] at hsize
          rw [List.dropLast_cons_cons, List.forall_mem_cons] at hidr
          have hgroup := @prefix_chunks _ _ group [] hascii.1
            (fun m hm hmIdr => absurd hmIdr (hidr.1 m hm)) (by rw [List.append_nil]; omega)
          rw [List.append_nil] at hgroup
          have hdata : group.flatMap bytes = (group.map chunk).flatMap Prod.snd ++ [] := by
            rw [flatMap_chunk, List.append_nil]
          obtain ⟨hchunks, -⟩ := Reader.all_of_prefix hdata hgroup
          rw [Reader.chunks_of_stop (turn_nil mode), List.append_nil] at hchunks
          have hstream : ((next :: groups).map fun group => group.flatMap bytes).flatten =
              (next :: groups).flatten.flatMap bytes := by
            rw [List.flatMap_def, List.map_flatten, List.flatten_flatten, List.map_map]
            rfl
          refine ⟨by rw [hchunks, flatMap_chunk], ?_, ih hidr.2 hascii.2 (by omega)⟩
          rw [hchunks, ← List.map_cons, hstream, ← List.flatMap_append]
          exact prefix_chunks hascii.1 (fun m hm hmIdr => absurd hmIdr (hidr.1 m hm))
            (by rw [List.flatMap_append, List.length_append]; omega)

theorem cutBetween_of_separate {ms : List (Message mode)} {reads : List (List UInt8)}
    (hstream : reads.flatten = ms.flatMap bytes) (hascii : ∀ m ∈ ms, m.Ascii)
    (hsize : (ms.flatMap bytes).length < 2 ^ 31)
    (h : (Session.reader OK mode).Separate reads) : CutBetween ms reads := by
  induction reads generalizing ms with
  | nil =>
      cases ms with
      | nil => exact ⟨[], ⟨rfl, rfl⟩, by simp⟩
      | cons m ms =>
          rw [List.flatten_nil, List.flatMap_cons, eq_comm, List.append_eq_nil_iff] at hstream
          exact absurd hstream.1 (bytes_ne_nil m)
  | cons read reads ih =>
      cases reads with
      | nil =>
          rw [List.flatten_singleton] at hstream
          exact ⟨[ms], ⟨List.flatten_singleton, by rw [hstream]; rfl⟩, by simp⟩
      | cons next reads =>
          obtain ⟨hwhole, hprefix, hrest⟩ := h
          rw [List.flatten_cons] at hstream
          have hmap : (Session.reader OK mode).chunks read <+: ms.map chunk := by
            rw [hstream] at hprefix
            exact hprefix.trans (chunks_prefix_map hascii hsize)
          obtain ⟨group, ms', rfl, hgroup⟩ : ∃ group ms', ms = group ++ ms' ∧
              (Session.reader OK mode).chunks read = group.map chunk :=
            ⟨ms.take _, ms.drop _, (List.take_append_drop _ ms).symm, by
              rw [List.map_take]
              exact List.prefix_iff_eq_take.mp hmap⟩
          have hread : read = group.flatMap bytes := by
            rw [← hwhole, hgroup, flatMap_chunk]
          rw [List.forall_mem_append] at hascii
          rw [List.flatMap_append] at hstream hsize
          rw [List.length_append] at hsize
          obtain ⟨groups, ⟨rfl, hreads⟩, hidr⟩ := ih
            (List.append_cancel_left (hread ▸ hstream)) hascii.2 (by omega) hrest
          have hlast : ∀ m ∈ group.getLast?, ¬ m.Idr := by
            intro m hm hmIdr
            obtain ⟨init, rfl⟩ := List.getLast?_eq_some_iff.mp hm
            have hturn := (Reader.reads_of_chunks (hread ▸ hgroup)).last
            have hmem : m ∈ init ++ [m] := List.mem_append_right _ List.mem_cons_self
            have hle : (bytes m).length < 2 ^ 31 := by
              rw [List.flatMap_append, List.length_append, List.flatMap_singleton] at hsize
              omega
            obtain ⟨e, he⟩ := turn_idr (hascii.1 m hmem) hmIdr hle
            rw [he] at hturn
            cases hturn
          cases groups with
          | nil => cases hreads
          | cons next' groups =>
              refine ⟨group :: next' :: groups, ⟨rfl, by rw [hread, hreads]; rfl⟩, ?_⟩
              rw [List.dropLast_cons_cons]
              exact List.forall_mem_cons.mpr ⟨hlast, hidr⟩

end Ascii

/-! ## The whole stream -/

/-- What is posted is what parsing the whole stream at once gives, with the bytes of an incomplete
message kept between two reads, exactly if every read but the last consists of whole messages,
parsed alone and with what follows; if all text is seven-bit, exactly if the stream is cut
where messages end. -/
theorem readMore_uncut_iff (mode : Session.Mode) (ms : List (Message mode))
    (reads : List (List UInt8)) (hreads : ∀ read ∈ reads, 1 ≤ read.length ∧ read.length ≤ 512)
    (hstream : reads.flatten = ms.flatMap bytes) :
    (Uncut receive kept (Session.reader OK mode) (.new .CONNECTED mode) reads ↔
      (Session.reader OK mode).Separate reads) ∧
    ((∀ m ∈ ms, m.Ascii) → (ms.flatMap bytes).length < 2 ^ 31 →
      ((Session.reader OK mode).all (ms.flatMap bytes)).1 = ms.map post ∧
        ((Session.reader OK mode).Separate reads ↔ CutBetween ms reads)) := by
  refine ⟨(forgets mode).uncut_iff (steady mode) (turn_nil mode) (rewound_new mode) hreads,
    fun hascii hsize => ⟨all_of_ascii hascii hsize, ?_⟩⟩
  exact ⟨cutBetween_of_separate hstream hascii hsize, separate_of_cutBetween hascii hsize⟩

end Messages

/-- A request as any sink may send it. -/
def optionsRequest : @Text CharData.ascii :=
  letI := CharData.ascii
  { startLine := "OPTIONS * RTSP/1.0".toList
    headers := ["CSeq: 1".toList]
    content := []
    startLine_ne := by decide
    startLine_head := by decide
    startLine_cr := by decide
    headers_ne := by decide
    headers_cr := by decide
    contentLength := by decide +kernel }

open Message

/-- An interleaved packet and a request that arrive in a read each. -/
theorem readMore_uncut_iff_options :
    letI := CharData.ascii
    let ms : List (Message .MODE_RTSP) :=
      [.binary 1 [7] (by decide), .text optionsRequest (by decide)]
    Uncut receive kept (Session.reader OK .MODE_RTSP) (.new .CONNECTED .MODE_RTSP)
      (ms.map bytes) := by
  let _ := CharData.ascii
  let ms : List (Message .MODE_RTSP) :=
    [.binary 1 [7] (by decide), .text optionsRequest (by decide)]
  have hascii : ∀ m ∈ ms, m.Ascii := by
    intro m hm
    rcases List.mem_cons.mp hm with rfl | hm
    · trivial
    · rw [List.mem_singleton.mp hm]
      exact (by decide +kernel : Net.Ascii (optionsRequest.head ++ optionsRequest.content))
  obtain ⟨huncut, hcut⟩ := readMore_uncut_iff .MODE_RTSP ms (ms.map bytes) (by decide +kernel)
    List.flatMap_def.symm
  refine huncut.mpr ((hcut hascii (by decide +kernel)).2.mpr ⟨ms.map fun m => [m], ⟨rfl, rfl⟩, ?_⟩)
  intro group hgroup m hm
  obtain rfl : [ms.head (by decide)] = group := (List.mem_singleton.mp hgroup).symm
  obtain rfl : .binary 1 [7] (by decide) = m := Option.some.inj hm
  exact not_false

/-- A datagram that arrives in two reads is never posted. -/
theorem readMore_drops_cut_datagram :
    ¬ ∀ [CharData] (mode : Session.Mode) (ms : List (Message mode)) (reads : List (List UInt8)),
      (∀ read ∈ reads, 1 ≤ read.length ∧ read.length ≤ 512) →
      reads.flatten = ms.flatMap bytes →
      Uncut receive kept (Session.reader OK mode) (.new .CONNECTED mode) reads := by
  intro h
  let _ := CharData.ascii
  have hcut := h .MODE_DATAGRAM [.datagram [42] (by decide)] [[0, 1], [42]] (by decide) rfl
  have hposted := hcut.posted
  have hposts : posts receive (.new .CONNECTED .MODE_DATAGRAM) [[0, 1], [42]] = [] := by
    decide +kernel
  have hwhole : (Session.reader OK .MODE_DATAGRAM).turn [0, 1, 42] = .took (.datagram [42]) 3 := by
    decide +kernel
  rw [hposts, show ([[0, 1], [42]] : List (List UInt8)).flatten = [0, 1, 42] from rfl,
    Reader.all_of_took hwhole] at hposted
  cases hposted

end Net

end MirrorCast
