import MirrorCast.Library.JavaString

/-! # `ParsedMessage`: RTSP requests and responses -/

namespace MirrorCast

open Java

/-- `mDict` keeps the headers by their lower-case names; the start line is under `_`. -/
structure ParsedMessage where
  mDict : List (JString × JString)
  mContent : JString
  mLength : ℤ
  deriving DecidableEq, Repr

namespace ParsedMessage

/-- `mDict.put(key, value)`. -/
def put (dict : List (JString × JString)) (key value : JString) : List (JString × JString) :=
  match dict with
  | [] => [(key, value)]
  | entry :: dict =>
      if entry.1 = key then (key, value) :: dict else entry :: put dict key value

/-- What `internalParse` knows after some lines; `lastKey` is the key at `lastDictIndex`. -/
structure Headers where
  mDict : List (JString × JString)
  lastKey : Option JString
  deriving DecidableEq, Repr

/-- The request or status line. -/
def Headers.start (line : JString) : Headers := ⟨put [] (jstr "_") (trim line), none⟩

/-- A header line that is not empty. -/
def Headers.add [CharData] (h : Headers) (line : JString) : Headers :=
  if line.head? = some 0x20 ∨ line.head? = some 0x09 then
    match h.lastKey with
    | none => h
    | some key =>
        { h with mDict := put h.mDict key (trim ((h.mDict.lookup key).getD [] ++ line)) }
  else
    match line.idxOf? 0x3a with
    | none => h
    | some colonPos =>
        let key := CharData.toLowerCase (trim (line.take colonPos))
        ⟨put h.mDict key (trim (line.drop (colonPos + 1))), some key⟩

/-- The first line of the data and what follows its CRLF. -/
def splitLine : JString → Option (JString × JString)
  | [] => none
  | c :: data =>
      if c = 0x0d ∧ data.head? = some 0x0a then some ([], data.tail)
      else (splitLine data).map fun (line, rest) => (c :: line, rest)

theorem length_of_splitLine {data line rest : JString} (h : splitLine data = some (line, rest)) :
    data.length = line.length + 2 + rest.length := by
  induction data generalizing line with
  | nil => cases h
  | cons c data ih =>
      rw [splitLine] at h
      split at h
      · rename_i hc
        cases h
        cases data with
        | nil => simp at hc
        | cons d data =>
            simp only [List.length_cons, List.length_nil, List.tail_cons]
            omega
      · obtain ⟨⟨line', rest'⟩, hline, heq⟩ := Option.map_eq_some_iff.mp h
        cases heq
        have := ih hline
        simp only [List.length_cons]
        omega

/-- The lines after the first one, up to the empty line: the headers, the offset reached and
whether the empty line was seen. -/
def parseLines [CharData] (h : Headers) (offset : ℕ) (data : JString) :
    Option (Headers × ℕ × Bool) :=
  if data = [] then some (h, offset, false)
  else
    match _hline : splitLine data with
    | none => none
    | some (line, rest) =>
        if line = [] then some (h, offset + 2, true)
        else parseLines (h.add line) (offset + line.length + 2) rest
termination_by data.length
decreasing_by
  have := length_of_splitLine _hline
  omega

def getString [CharData] (dict : List (JString × JString)) (name : JString) : Option JString :=
  dict.lookup (CharData.toLowerCase name)

def getInt [CharData] (dict : List (JString × JString)) (name : JString) (default : ℤ) :
    Except JavaException ℤ :=
  match getString dict name with
  | none => .ok default
  | some stringValue => parseInt stringValue

/-- `ParsedMessage.parse(data, data.length(), noMoreData)`. -/
def parse [CharData] (data : JString) (noMoreData : Bool) :
    Except JavaException (Option ParsedMessage) :=
  match splitLine data with
  | none => .ok none
  | some (line, rest) =>
      match parseLines (.start line) (line.length + 2) rest with
      | none => .ok none
      | some (h, offset, headersComplete) =>
          if headersComplete = false ∧ noMoreData = false then .ok none
          else do
            let contentLength ← getInt h.mDict (jstr "content-length") 0
            let contentLength := if contentLength < 0 then 0 else contentLength
            let totalLength := int32 (offset + contentLength)
            if (data.length : ℤ) < totalLength then .ok none
            else
              let mContent ← substring data offset totalLength
              return some ⟨h.mDict, mContent, totalLength⟩

/-! ## Reading a message -/

def getRequestField [CharData] (msg : ParsedMessage) (index : ℕ) : Except JavaException JString :=
  match getString msg.mDict (jstr "_") with
  | none => .error .runtime
  | some line =>
      match (splitSpaces line)[index]? with
      | some field => .ok field
      | none => .error .arrayIndexOutOfBounds

def getStatusCode [CharData] (msg : ParsedMessage) : Except JavaException ℤ := do
  let statusCodeString ← msg.getRequestField 1
  let statusCode ← parseInt statusCodeString
  return if statusCode < 100 ∨ 999 < statusCode then 0 else statusCode

/-- The check that `toString` makes; the text itself is only logged. -/
def checkToString [CharData] (msg : ParsedMessage) : Except JavaException Unit :=
  if getString msg.mDict (jstr "_") = some [] then .error .runtime else .ok ()

/-- The attribute, if this part of the text is it. -/
def attributeOf (key part : JString) : Option JString :=
  if key.isPrefixOf part ∧ part[key.length]? = some 0x3d then some (part.drop (key.length + 1))
  else none

/-- The loop of `getAttribute`, which cuts the text at its semicolons; only its last part is
trimmed at the end. -/
def findAttribute (key : JString) : List JString → Option JString
  | [] => none
  | [part] => attributeOf key (trim part)
  | part :: parts =>
      match attributeOf key (part.dropWhile (· ≤ 0x20)) with
      | some value => some value
      | none => findAttribute key parts

def getAttribute (s key : JString) : Option JString := findAttribute key (s.splitOn 0x3b)

/-! ## The length of a message -/

theorem parseLines_nil [CharData] (h : Headers) (offset : ℕ) :
    parseLines h offset [] = some (h, offset, false) := by
  rw [parseLines, if_pos rfl]

theorem parseLines_of_none [CharData] {data : JString} (hdata : data ≠ [])
    (hline : splitLine data = none) (h : Headers) (offset : ℕ) :
    parseLines h offset data = none := by
  rw [parseLines, if_neg hdata]
  split
  · rfl
  · simp_all

theorem parseLines_of_some [CharData] {data line rest : JString}
    (hline : splitLine data = some (line, rest)) (h : Headers) (offset : ℕ) :
    parseLines h offset data =
      if line = [] then some (h, offset + 2, true)
      else parseLines (h.add line) (offset + line.length + 2) rest := by
  have hdata : data ≠ [] := by
    rintro rfl
    cases hline
  rw [parseLines, if_neg hdata]
  split
  · rename_i hnone
    rw [hline] at hnone
    cases hnone
  · rename_i hsome
    rw [hline] at hsome
    cases hsome
    rfl

theorem le_offset_of_parseLines [CharData] {h h' : Headers} {offset offset' : ℕ} {data : JString}
    {complete : Bool} (hlines : parseLines h offset data = some (h', offset', complete)) :
    offset ≤ offset' := by
  induction hn : data.length using Nat.strongRecOn generalizing h offset data with
  | ind n ih =>
      by_cases hdata : data = []
      · subst hdata
        rw [parseLines_nil] at hlines
        cases hlines
        exact Nat.le_refl _
      cases hline : splitLine data with
      | none =>
          rw [parseLines_of_none hdata hline] at hlines
          cases hlines
      | some split =>
          rw [parseLines_of_some hline] at hlines
          split at hlines
          · cases hlines
            omega
          · have hlength := length_of_splitLine hline
            have hle := ih _ (by omega) hlines rfl
            omega

/-- A message that was parsed ends behind its start line. -/
theorem mLength_pos_of_parse [CharData] {data : JString} {noMoreData : Bool}
    {msg : ParsedMessage} (h : parse data noMoreData = .ok (some msg)) : 0 < msg.mLength := by
  unfold parse at h
  split at h
  · cases h
  split at h
  · cases h
  rename_i hlines
  have hoffset := le_offset_of_parseLines hlines
  split at h
  · cases h
  obtain ⟨contentLength, -, h⟩ := bind_eq_ok.mp h
  dsimp only at h
  generalize int32 _ = totalLength at h
  split at h
  · cases h
  obtain ⟨content, hcontent, h⟩ := bind_eq_ok.mp h
  cases h
  unfold substring at hcontent
  split at hcontent
  · cases hcontent
  · dsimp only
    omega

end ParsedMessage

end MirrorCast
