import MirrorCast.Program.ANetworkSession
import MirrorCast.Verification.Net.Decoding

/-! # Text messages on an RTSP stream -/

namespace MirrorCast

open Java Framing StringUtils ParsedMessage ANetworkSession

namespace Net

def crlf : List Char := ['\r', '\n']

/-! ## Lines -/

theorem not_mem_utf16 {line : List Char} (h : '\r' ∉ line) : 0x0d ∉ utf16 line := by
  intro hmem
  obtain ⟨c, hc, hvalue⟩ := mem_utf16_of_lt (by omega) hmem
  have hcr : c = '\r' := Char.toNat_inj.mp hvalue
  exact h (hcr ▸ hc)

theorem utf16_crlf : utf16 crlf = [0x0d, 0x0a] := by decide

theorem utf16_ne_nil {line : List Char} (h : line ≠ []) : utf16 line ≠ [] := by
  cases line with
  | nil => exact absurd rfl h
  | cons c line =>
      have hc : utf16Char c ≠ [] := by
        unfold utf16Char
        split <;> simp
      simp [utf16, hc]

theorem splitLine_append {line : JString} (h : 0x0d ∉ line) (rest : JString) :
    splitLine (line ++ 0x0d :: 0x0a :: rest) = some (line, rest) := by
  induction line with
  | nil => rfl
  | cons c line ih =>
      obtain ⟨hc, hline⟩ := not_or.mp (List.mem_cons.not.mp h)
      rw [List.cons_append, splitLine, if_neg (fun h => hc h.1.symm), ih hline]
      rfl

theorem toNat_of_head?_utf16 {c : Char} {cs : List Char} {rest : JString} {u : ℕ} (hu : u < 0xd7c0)
    (h : (utf16 (c :: cs) ++ rest).head? = some u) : c.toNat = u := by
  rw [show utf16 (c :: cs) = utf16Char c ++ utf16 cs from List.flatMap_cons, utf16Char] at h
  split at h
  · exact Option.some.inj h
  · have heq : c.toNat / 0x400 + 0xd7c0 = u := Option.some.inj h
    omega

/-- The look past the end of a request stays in the data as long as something follows. -/
theorem textLength_of_charAt {str : JString} {msg : ParsedMessage}
    (h : jstr "wfd_idr_request\r\n" <+: msg.mContent →
      ∃ u ≠ 0x0d, str[msg.mLength.toNat]? = some u) :
    Session.textLength str msg = .ok msg.mLength := by
  unfold Session.textLength
  split
  · rename_i hidr
    obtain ⟨u, hu, hchar⟩ := h (List.isPrefixOf_iff_prefix.mp hidr.1)
    rw [charAt_eq_ok.mpr hchar, ok_bind, if_neg hu]
    rfl
  · rfl

/-! ## Well-formed requests and responses -/

/-- The headers that the lines of a message make up. -/
def dictOf [CharData] (startLine : List Char) (headers : List (List Char)) :
    List (JString × JString) :=
  ((headers.map utf16).foldl Headers.add (.start (utf16 startLine))).mDict

/-- A request or response: its lines hold no CR, and the content length is that of its content
in bytes. -/
structure Text [CharData] where
  startLine : List Char
  headers : List (List Char)
  content : List Char
  startLine_ne : startLine ≠ []
  startLine_head : startLine.head? ≠ some '$'
  startLine_cr : '\r' ∉ startLine
  headers_ne : ∀ line ∈ headers, line ≠ []
  headers_cr : ∀ line ∈ headers, '\r' ∉ line
  contentLength : getInt (dictOf startLine headers) (jstr "content-length") 0 =
    .ok (utf8 content).length

variable [CharData]

namespace Text

/-- The lines up to the empty one. -/
def head (m : Text) : List Char :=
  m.startLine ++ crlf ++ (m.headers.flatMap (· ++ crlf) ++ crlf)

def bytes (m : Text) : List UInt8 := utf8 (m.head ++ m.content)

def dict (m : Text) : List (JString × JString) := dictOf m.startLine m.headers

/-- What the receiver is to post; the parser counts characters. -/
def post (m : Text) : Notification :=
  .data ⟨m.dict, utf16 m.content, (utf16 (m.head ++ m.content)).length⟩

/-- The request on which `readMore` looks past the end of the message. -/
def Idr (m : Text) : Prop := jstr "wfd_idr_request\r\n" <+: utf16 m.content

end Text

/-! ## What the parser makes of the lines -/

/-- The characters of the lines behind the start line, with their ends. -/
def headersLength (headers : List (List Char)) : ℕ :=
  (headers.map fun line => (utf16 line).length + 2).sum

theorem parseLines_headers (headers : List (List Char)) (hne : ∀ line ∈ headers, line ≠ [])
    (hcr : ∀ line ∈ headers, '\r' ∉ line) (h : Headers) (offset : ℕ) (rest : JString) :
    parseLines h offset (utf16 (headers.flatMap (· ++ crlf) ++ crlf) ++ rest) =
      some ((headers.map utf16).foldl Headers.add h, offset + headersLength headers + 2, true) := by
  induction headers generalizing h offset with
  | nil =>
      have hsplit : splitLine (utf16 crlf ++ rest) = some ([], rest) := by
        rw [utf16_crlf]
        exact splitLine_append List.not_mem_nil rest
      rw [List.flatMap_nil, List.nil_append, parseLines_of_some hsplit, if_pos rfl]
      rfl
  | cons line headers ih =>
      have hsplit := splitLine_append (not_mem_utf16 (hcr line (by simp)))
        (utf16 (headers.flatMap (· ++ crlf) ++ crlf) ++ rest)
      have hdata : utf16 ((line :: headers).flatMap (· ++ crlf) ++ crlf) ++ rest =
          utf16 line ++ 0x0d :: 0x0a :: (utf16 (headers.flatMap (· ++ crlf) ++ crlf) ++ rest) := by
        simp [utf16_crlf]
      rw [hdata, parseLines_of_some hsplit, if_neg (utf16_ne_nil (hne line (by simp))),
        ih (fun l hl => hne l (by simp [hl])) (fun l hl => hcr l (by simp [hl]))]
      simp only [List.map_cons, List.foldl_cons, headersLength, List.sum_cons]
      congr 3
      omega

theorem length_head (m : Text) :
    (utf16 m.head).length = (utf16 m.startLine).length + 2 + headersLength m.headers + 2 := by
  have hheaders : ∀ headers : List (List Char),
      (utf16 (headers.flatMap (· ++ crlf))).length = headersLength headers := by
    intro headers
    induction headers with
    | nil => rfl
    | cons line headers ih =>
        simp only [List.flatMap_cons, utf16_append, List.length_append, ih, utf16_crlf,
          headersLength, List.map_cons, List.sum_cons]
        rfl
  simp only [Text.head, utf16_append, List.length_append, hheaders, utf16_crlf, List.length_cons,
    List.length_nil]
  omega

/-! ## What `readMore` makes of a text message -/

/-- The code units that follow the headers of a message. -/
def tail (m : Text) (rest : List UInt8) : JString := utf16 m.content ++ decode .start rest

theorem newStringFromBytes_text (m : Text) (rest : List UInt8) :
    newStringFromBytes (m.bytes ++ rest) = utf16 m.head ++ tail m rest := by
  rw [newStringFromBytes, Text.bytes, decode_utf8, utf16_append, List.append_assoc, tail]

/-- The content length counts bytes, but as many characters are taken. -/
theorem parse_text (m : Text) {rest : List UInt8} (noMoreData : Bool)
    (hsize : (utf16 m.head).length + (utf8 m.content).length < 2 ^ 31) :
    parse (newStringFromBytes (m.bytes ++ rest)) noMoreData =
      if (tail m rest).length < (utf8 m.content).length then .ok none
      else .ok (some ⟨m.dict, (tail m rest).take (utf8 m.content).length,
        ((utf16 m.head).length + (utf8 m.content).length : ℕ)⟩) := by
  have hline : splitLine (utf16 m.head ++ tail m rest) = some (utf16 m.startLine,
      utf16 (m.headers.flatMap (· ++ crlf) ++ crlf) ++ tail m rest) := by
    rw [← splitLine_append (not_mem_utf16 m.startLine_cr)]
    simp [Text.head, utf16_crlf]
  have hlength : getInt ((m.headers.map utf16).foldl Headers.add
      (.start (utf16 m.startLine))).mDict (jstr "content-length") 0 =
      .ok (utf8 m.content).length := m.contentLength
  rw [newStringFromBytes_text]
  unfold parse
  rw [hline]
  dsimp only
  rw [parseLines_headers _ m.headers_ne m.headers_cr]
  dsimp only
  rw [if_neg (by simp), hlength, ok_bind]
  have hnonneg : ¬ ((utf8 m.content).length : ℤ) < 0 := by omega
  simp only [if_neg hnonneg]
  have hoffset : ((utf16 m.startLine).length + 2 + headersLength m.headers + 2 : ℕ) =
      (utf16 m.head).length := (length_head m).symm
  rw [hoffset, ← Nat.cast_add, int32_natCast hsize, List.length_append]
  by_cases hshort : (tail m rest).length < (utf8 m.content).length
  · rw [if_pos (by omega), if_pos hshort]
  · have hcontent : substring (utf16 m.head ++ tail m rest) (utf16 m.head).length
        ((utf16 m.head).length + (utf8 m.content).length : ℕ) =
        .ok ((tail m rest).take (utf8 m.content).length) := by
      rw [substring, if_neg (by rw [List.length_append]; omega), Int.toNat_natCast, List.drop_left,
        show ((((utf16 m.head).length + (utf8 m.content).length : ℕ) : ℤ) -
          ((utf16 m.head).length : ℕ)).toNat = (utf8 m.content).length by omega]
    rw [if_neg (by omega), if_neg hshort, hcontent]
    rfl

/-! ## When a text message is read right -/

theorem length_bytes_text (m : Text) :
    m.bytes.length = (utf8 m.head).length + (utf8 m.content).length := by
  rw [Text.bytes, utf8_append, List.length_append]

/-- The decoded message starts like its start line. -/
theorem head?_newStringFromBytes_text (m : Text) (rest : List UInt8) {c : Char}
    (hc : c.toNat < 128) (hline : m.startLine.head? ≠ some c) :
    (newStringFromBytes (m.bytes ++ rest)).head? ≠ some c.toNat := by
  obtain ⟨d, line, hstart⟩ := List.exists_cons_of_ne_nil m.startLine_ne
  intro hhead
  rw [newStringFromBytes_text, Text.head, hstart, List.cons_append, List.cons_append] at hhead
  have hd := Char.toNat_inj.mp (toNat_of_head?_utf16 (by omega) hhead)
  exact hline (by rw [hstart, hd]; rfl)

theorem head?_bytes_text (m : Text) (rest : List UInt8) :
    (m.bytes ++ rest).head? ≠ some 0x24 := by
  intro hhead
  obtain ⟨bs, hbs⟩ := List.head?_eq_some_iff.mp hhead
  apply head?_newStringFromBytes_text m rest (c := '$') (by decide) m.startLine_head
  rw [hbs, newStringFromBytes, show (0x24 : UInt8) = UInt8.ofNat 36 from rfl,
    decode_one (by omega)]
  rfl

/-- A message whose lines and content are seven-bit text. -/
def Text.Ascii (m : Text) : Prop := Net.Ascii (m.head ++ m.content)

theorem ascii_iff (m : Text) :
    m.Ascii ↔ (utf16 m.head).length = (utf8 m.head).length ∧
      (utf16 m.content).length = (utf8 m.content).length := by
  obtain ⟨hle, heq⟩ := length_utf16 m.head
  obtain ⟨hle', heq'⟩ := length_utf16 m.content
  rw [Text.Ascii, heq, heq']
  simp only [Net.Ascii, List.mem_append, or_imp, forall_and]

theorem post_of_ascii {m : Text} (hascii : m.Ascii) :
    m.post = .data ⟨m.dict, utf16 m.content, m.bytes.length⟩ := by
  obtain ⟨hhead, hcontent⟩ := (ascii_iff m).mp hascii
  rw [Text.post, length_bytes_text, utf16_append, List.length_append, hhead, hcontent]

/-- What the parser makes of a message of seven-bit text, whatever follows it. -/
theorem parse_of_ascii {m : Text} (hascii : m.Ascii) {rest : List UInt8}
    (hsize : m.bytes.length < 2 ^ 31) (noMoreData : Bool) :
    parse (newStringFromBytes (m.bytes ++ rest)) noMoreData =
      .ok (some ⟨m.dict, utf16 m.content, m.bytes.length⟩) := by
  obtain ⟨hhead, hcontent⟩ := (ascii_iff m).mp hascii
  have hbytes := length_bytes_text m
  have hsum : (utf16 m.head).length + (utf8 m.content).length = m.bytes.length := by omega
  rw [parse_text m _ (by omega), if_neg (by rw [tail, List.length_append]; omega), hsum, tail,
    List.take_left' hcontent]

/-- Behind a message of seven-bit text the decoded data go on with what follows it. -/
theorem getElem?_of_ascii {m : Text} (hascii : m.Ascii) (rest : List UInt8) :
    (newStringFromBytes (m.bytes ++ rest))[m.bytes.length]? =
      (newStringFromBytes rest).head? := by
  obtain ⟨hhead, hcontent⟩ := (ascii_iff m).mp hascii
  have hbytes := length_bytes_text m
  have hlength : (utf16 m.head ++ utf16 m.content).length = m.bytes.length := by
    rw [List.length_append]
    omega
  rw [newStringFromBytes_text, tail, ← List.append_assoc, List.getElem?_append_right (by omega),
    hlength, Nat.sub_self, ← List.head?_eq_getElem?]
  rfl

/-- A message of seven-bit text is taken off at its size, unless it is the request on which
`readMore` reads past the data. -/
theorem rtspTurn_text {m : Text} (hascii : m.Ascii) {rest : List UInt8}
    (hsize : m.bytes.length < 2 ^ 31)
    (hidr : m.Idr → ∃ u ≠ 0x0d, (newStringFromBytes rest).head? = some u) :
    Session.rtspTurn OK (m.bytes ++ rest) = .took m.post m.bytes.length := by
  have hchar : jstr "wfd_idr_request\r\n" <+: utf16 m.content →
      ∃ u ≠ 0x0d, (newStringFromBytes (m.bytes ++ rest))[m.bytes.length]? = some u := by
    rw [getElem?_of_ascii hascii]
    exact hidr
  rw [Session.rtspTurn, if_neg (head?_bytes_text m rest), Session.textTurn,
    parse_of_ascii hascii hsize]
  dsimp only
  rw [textLength_of_charAt hchar]
  dsimp only
  rw [if_neg (by rw [List.length_append]; omega), if_neg (by simp), post_of_ascii hascii]
  rfl

/-- At the end of the data the request is posted, but the look past the end throws. -/
theorem rtspTurn_idr {m : Text} (hascii : m.Ascii) (hsize : m.bytes.length < 2 ^ 31)
    (hidr : m.Idr) : ∃ e, Session.rtspTurn OK m.bytes = .stop [m.post] (some e) := by
  have hend : (newStringFromBytes m.bytes)[m.bytes.length]? = none := by
    have h := getElem?_of_ascii hascii []
    rwa [List.append_nil] at h
  have hparse := @parse_of_ascii _ m hascii [] hsize (decide (OK ≠ OK))
  have hhead := head?_bytes_text m []
  rw [List.append_nil] at hparse hhead
  have hprefix : 17 ≤ (utf16 m.content).length := hidr.length_le
  have hlong : 19 ≤ m.bytes.length := by
    have hlength := length_head m
    obtain ⟨hheadBytes, hcontentBytes⟩ := (ascii_iff m).mp hascii
    rw [length_bytes_text]
    omega
  rw [Session.rtspTurn, if_neg hhead, Session.textTurn, hparse]
  dsimp only
  have hthrows : ∃ e, Session.textLength (newStringFromBytes m.bytes)
      ⟨m.dict, utf16 m.content, m.bytes.length⟩ = .error e := by
    cases htext : Session.textLength (newStringFromBytes m.bytes)
        ⟨m.dict, utf16 m.content, m.bytes.length⟩ with
    | error e => exact ⟨e, rfl⟩
    | ok length =>
        rw [Session.textLength, if_pos ⟨List.isPrefixOf_iff_prefix.mpr hidr, by
          dsimp only
          omega⟩] at htext
        obtain ⟨u, hu, -⟩ := bind_eq_ok.mp htext
        rw [charAt_eq_ok, Int.toNat_natCast, hend] at hu
        cases hu
  obtain ⟨e, he⟩ := hthrows
  rw [he, post_of_ascii hascii]
  exact ⟨e, rfl⟩

end Net

end MirrorCast
