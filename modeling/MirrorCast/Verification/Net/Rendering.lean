import MirrorCast.Verification.Net.Incremental
import MirrorCast.Verification.Net.Parameters
import MirrorCast.Verification.Net.TextMessages

/-! # Messages that are written and read again -/

namespace MirrorCast.ParsedMessage

open Java

/-- A header, with everything behind the colon as its value. -/
structure Header where
  name : JString
  value : JString
  name_visible : ∀ c ∈ name, 0x20 < c ∧ c ≠ 0x3a
  value_oneLine : 0x0d ∉ value

def Header.line (header : Header) : JString := header.name ++ 0x3a :: header.value

/-- A message before it is written. -/
structure Written where
  startLine : JString
  headers : List Header
  content : JString
  startLine_oneLine : 0x0d ∉ startLine

def lineEnd : JString := [0x0d, 0x0a]

def headerLines (headers : List Header) : JString :=
  headers.flatMap fun header => header.line ++ lineEnd

def Written.text (m : Written) : JString :=
  m.startLine ++ lineEnd ++ headerLines m.headers ++ lineEnd ++ m.content

/-! ## Header lines -/

namespace Header

variable (header : Header)

theorem line_ne_nil : header.line ≠ [] := by simp [line]

theorem line_oneLine : 0x0d ∉ header.line := by
  intro hmem
  rcases List.mem_append.mp hmem with hname | hvalue
  · have hvisible := (header.name_visible _ hname).1
    omega
  · rcases List.mem_cons.mp hvalue with hcolon | hvalue
    · omega
    · exact header.value_oneLine hvalue

theorem trim_name : trim header.name = header.name :=
  trim_eq_self (fun c hc => (header.name_visible c (List.mem_of_mem_head? hc)).1)
    fun c hc => (header.name_visible c (List.mem_of_mem_getLast? hc)).1

theorem idxOf?_line : header.line.idxOf? 0x3a = some header.name.length := by
  have hfree : 0x3a ∉ header.name := fun hmem => (header.name_visible _ hmem).2 rfl
  rw [line, List.idxOf?, List.findIdx?_eq_some_iff_findIdx_eq, List.findIdx_append]
  simp [hfree, List.findIdx_cons]

/-- A header line is not the continuation of the line before it. -/
theorem head?_line : ¬ (header.line.head? = some 0x20 ∨ header.line.head? = some 0x09) := by
  have hhead : ∀ c ∈ header.line.head?, 0x20 < c := by
    intro c hc
    cases hname : header.name with
    | nil =>
        rw [line, hname] at hc
        cases hc
        decide
    | cons d name =>
        rw [line, hname] at hc
        cases hc
        exact (header.name_visible _ (hname ▸ List.mem_cons_self)).1
  rintro (h | h)
  · exact absurd (hhead _ h) (by decide)
  · exact absurd (hhead _ h) (by decide)

variable [CharData]

theorem add_line (h : Headers) :
    h.add header.line = ⟨put h.mDict (CharData.toLowerCase header.name) (trim header.value),
      some (CharData.toLowerCase header.name)⟩ := by
  have htake : header.line.take header.name.length = header.name := List.take_left
  have hdrop : header.line.drop (header.name.length + 1) = header.value := by
    rw [line, List.drop_append]
    simp
  rw [Headers.add, if_neg header.head?_line, header.idxOf?_line]
  dsimp only
  rw [htake, hdrop, header.trim_name]

theorem lookup_add_line (h : Headers) (name : JString) :
    (h.add header.line).mDict.lookup name =
      if name = CharData.toLowerCase header.name then some (trim header.value)
      else h.mDict.lookup name := by
  rw [header.add_line, Parameters.lookup_put]

end Header

theorem headerLines_cons (header : Header) (headers : List Header) :
    headerLines (header :: headers) = header.line ++ lineEnd ++ headerLines headers := rfl

theorem headerLines_append (headers headers' : List Header) :
    headerLines (headers ++ headers') = headerLines headers ++ headerLines headers' :=
  List.flatMap_append

theorem splitLine_lineEnd {line : JString} (h : 0x0d ∉ line) (rest : JString) :
    splitLine (line ++ lineEnd ++ rest) = some (line, rest) := by
  rw [List.append_assoc]
  exact Net.splitLine_append h rest

variable [CharData]

/-- The headers are read one after another, up to the empty line. -/
theorem parseLines_headerLines (headers : List Header) (h : Headers) (offset : ℕ)
    (rest : JString) :
    parseLines h offset (headerLines headers ++ lineEnd ++ rest) =
      some ((headers.map Header.line).foldl Headers.add h,
        offset + (headerLines headers).length + 2, true) := by
  induction headers generalizing h offset with
  | nil =>
      have hsplit : splitLine ([] ++ lineEnd ++ rest) = some ([], rest) :=
        splitLine_lineEnd (by simp) rest
      rw [headerLines, List.flatMap_nil, parseLines_of_some hsplit, if_pos rfl]
      rfl
  | cons header headers ih =>
      have hsplit := splitLine_lineEnd header.line_oneLine (headerLines headers ++ lineEnd ++ rest)
      have htext : headerLines (header :: headers) ++ lineEnd ++ rest =
          header.line ++ lineEnd ++ (headerLines headers ++ lineEnd ++ rest) := by
        simp [headerLines_cons]
      have hlength : lineEnd.length = 2 := rfl
      rw [htext, parseLines_of_some hsplit, if_neg header.line_ne_nil, ih, headerLines_cons]
      simp only [List.map_cons, List.foldl_cons, List.length_append, hlength]
      congr 3
      omega

theorem lookup_of_forall_ne {headers : List Header} {name : JString}
    (hne : ∀ header ∈ headers, name ≠ CharData.toLowerCase header.name) (h : Headers) :
    ((headers.map Header.line).foldl Headers.add h).mDict.lookup name = h.mDict.lookup name := by
  induction headers generalizing h with
  | nil => rfl
  | cons header headers ih =>
      rw [List.map_cons, List.foldl_cons, ih fun header' hmem => hne _ (List.mem_cons_of_mem _ hmem),
        header.lookup_add_line, if_neg (hne header List.mem_cons_self)]

/-! ## Messages -/

namespace Written

/-- The headers as they are read. -/
def mDict (m : Written) : List (JString × JString) :=
  ((m.headers.map Header.line).foldl Headers.add (.start m.startLine)).mDict

/-- The content length is that of the content. -/
def Measured (m : Written) : Prop :=
  getInt m.mDict (jstr "content-length") 0 = .ok m.content.length

def parsed (m : Written) : ParsedMessage := ⟨m.mDict, m.content, m.text.length⟩

variable {m : Written}

/-- A message is read as it was written, whatever follows it. -/
theorem parse_text (hmeasured : m.Measured) (hlength : m.text.length < 2 ^ 31) (more : JString) :
    parse (m.text ++ more) false = .ok (some m.parsed) := by
  have hend : lineEnd.length = 2 := rfl
  have htext : m.text ++ more =
      m.startLine ++ lineEnd ++ (headerLines m.headers ++ lineEnd ++ (m.content ++ more)) := by
    simp [text]
  have hline := splitLine_lineEnd m.startLine_oneLine
    (headerLines m.headers ++ lineEnd ++ (m.content ++ more))
  have hlines := parseLines_headerLines m.headers (.start m.startLine)
    (m.startLine.length + 2) (m.content ++ more)
  have htotal : m.text.length =
      m.startLine.length + 2 + (headerLines m.headers).length + 2 + m.content.length := by
    simp only [text, List.length_append, hend]
  have hint : (m.text.length : ℤ) = int32 ((m.startLine.length + 2 +
      (headerLines m.headers).length + 2 : ℕ) + if (m.content.length : ℤ) < 0 then 0
        else (m.content.length : ℤ)) := by
    rw [if_neg (by omega), ← Nat.cast_add, ← htotal, int32_natCast hlength]
  have hcontent : m.text.drop (m.startLine.length + 2 + (headerLines m.headers).length + 2) =
      m.content := by
    rw [text, List.drop_left']
    simp only [List.length_append, hend]
  rw [← htext] at hline
  rw [parse_of_lines hline hlines hmeasured hint (by omega), if_neg (by
    rw [List.length_append]
    omega), Int.toNat_natCast, List.take_left, hcontent]
  rfl

end Written

/-- The data are one message: it is read as soon as the data are there in full, whatever follows
them, and no sooner. -/
structure IsWhole (data : JString) (msg : ParsedMessage) : Prop where
  mLength_eq : msg.mLength = data.length
  parse_append : ∀ more, parse (data ++ more) false = .ok (some msg)
  parse_take : ∀ k < data.length, parse (data.take k) false = .ok none

theorem Written.isWhole {m : Written} (hmeasured : m.Measured) (hlength : m.text.length < 2 ^ 31) :
    IsWhole m.text m.parsed := by
  have hparse := m.parse_text hmeasured hlength
  have hnil := hparse []
  rw [List.append_nil] at hnil
  exact ⟨rfl, hparse, (parse_incremental hnil).2.2⟩

/-- Messages are read off the data one after another until nothing is left. -/
inductive ReadsAs : JString → List ParsedMessage → Prop
  | nil : ReadsAs [] []
  | cons {data : JString} {msg : ParsedMessage} {msgs : List ParsedMessage}
      (h : parse data false = .ok (some msg)) (hrest : ReadsAs (data.drop msg.mLength.toNat) msgs) :
      ReadsAs data (msg :: msgs)

/-- Whole messages are kept apart. -/
theorem readsAs_flatten {texts : List JString} {msgs : List ParsedMessage}
    (h : List.Forall₂ IsWhole texts msgs) : ReadsAs texts.flatten msgs := by
  induction h with
  | nil => exact .nil
  | cons hwhole _ ih =>
      rw [List.flatten_cons]
      refine .cons (hwhole.parse_append _) ?_
      rwa [hwhole.mLength_eq, Int.toNat_natCast, List.drop_left]

end MirrorCast.ParsedMessage
