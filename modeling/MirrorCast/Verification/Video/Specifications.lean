import MirrorCast.Program.VideoFormats

/-! # Well-formed format specifications -/

namespace MirrorCast.Video

open Java VideoFormats

/-! ## The format -/

/-- The hexadecimal digits of ASCII. -/
def isXDigit (c : ℕ) : Bool :=
  (48 ≤ c && c ≤ 57) || (65 ≤ c && c ≤ 70) || (97 ≤ c && c ≤ 102)

def xdigit (c : ℕ) : ℕ := if c ≤ 57 then c - 48 else if c ≤ 70 then c - 55 else c - 87

/-- The number of a group of hexadecimal digits. -/
def hexValue (s : JString) : ℕ := s.foldl (fun v c => v * 16 + xdigit c) 0

/-- A field of `n` hexadecimal digits. -/
structure HexField (n : ℕ) where
  digits : JString
  length : digits.length = n
  hex : digits.all isXDigit = true

/-- One codec of a specification: profile, level and the masks of its resolutions. The rest
(latency, slices, frame rate control, maximal resolution) has a fixed length. -/
structure Codec where
  profile : HexField 2
  level : HexField 2
  cea : HexField 8
  vesa : HexField 8
  hh : HexField 8
  tail : JString
  length_tail : tail.length = 26

/-! What the source and a plain sink both write: no preferred mode, and the rest of a codec. -/

theorem length_zeros : (jstr "00").length = 2 := rfl

theorem isXDigit_zeros : (jstr "00").all isXDigit = true := rfl

theorem length_plain_tail : (jstr " 00 0000 0000 00 none none").length = 26 := rfl

/-- A blank in front of the rest of a text. -/
def blank (rest : JString) : JString := 0x20 :: rest

theorem blank_append (s t : JString) : blank s ++ t = blank (s ++ t) := rfl

namespace Codec

def text (c : Codec) : JString :=
  c.profile.digits ++ blank (c.level.digits ++ blank (c.cea.digits ++ blank (c.vesa.digits ++
    blank (c.hh.digits ++ c.tail))))

/-- The numbers of the codec. -/
def numbers (c : Codec) : H264Codec where
  profile := hexValue c.profile.digits
  level := hexValue c.level.digits
  res := fun
    | .RESOLUTION_CEA => BitVec.ofNat 32 (hexValue c.cea.digits)
    | .RESOLUTION_VESA => BitVec.ofNat 32 (hexValue c.vesa.digits)
    | .RESOLUTION_HH => BitVec.ofNat 32 (hexValue c.hh.digits)

theorem length_text (c : Codec) : c.text.length = 58 := by
  simp only [text, blank, List.length_append, List.length_cons, c.profile.length, c.level.length,
    c.cea.length, c.vesa.length, c.hh.length, c.length_tail]

end Codec

/-- Codecs with a comma and a blank between them. -/
def codecsText : List Codec → JString
  | [] => []
  | [c] => c.text
  | c :: cs => c.text ++ jstr ", " ++ codecsText cs

/-- The value of `wfd_video_formats` that a sink sends. -/
structure SinkSpec where
  native : HexField 2
  preferred : HexField 2
  codecs : List Codec
  nonempty : codecs ≠ []

def SinkSpec.text (spec : SinkSpec) : JString :=
  spec.native.digits ++ blank (spec.preferred.digits ++ blank (codecsText spec.codecs))

/-! ## Reading a field -/

theorem xdigit_lt {c : ℕ} (h : isXDigit c = true) : xdigit c < 16 := by
  simp only [isXDigit, Bool.or_eq_true, Bool.and_eq_true, decide_eq_true_eq] at h
  unfold xdigit
  split_ifs <;> omega

theorem hexValue_append (s t : JString) :
    hexValue (s ++ t) = t.foldl (fun v c => v * 16 + xdigit c) (hexValue s) :=
  List.foldl_append

theorem hexValue_lt {s : JString} (h : s.all isXDigit = true) : hexValue s < 16 ^ s.length := by
  induction s using List.reverseRecOn with
  | nil => exact Nat.one_pos
  | append_singleton s c ih =>
      rw [List.all_append, Bool.and_eq_true] at h
      have hs := ih h.1
      have hc := xdigit_lt (List.all_eq_true.mp h.2 c (List.mem_singleton_self c))
      rw [hexValue_append, List.length_append, List.length_singleton, pow_succ]
      change hexValue s * 16 + xdigit c < _
      omega

theorem HexField.value_lt {n : ℕ} (f : HexField n) : hexValue f.digits < 16 ^ n := by
  have h := hexValue_lt f.hex
  rwa [f.length] at h

/-- A digit of ASCII is one everywhere. -/
theorem asciiHexDigit_of_isXDigit {c : ℕ} (h : isXDigit c = true) :
    c < 128 ∧ asciiHexDigit c = some (xdigit c) := by
  simp only [isXDigit, Bool.or_eq_true, Bool.and_eq_true, decide_eq_true_eq] at h
  unfold asciiHexDigit xdigit
  refine ⟨by omega, ?_⟩
  split_ifs <;> first | rfl | omega

variable [CharData]

theorem takeXDigits_append {digits : JString} (h : digits.all isXDigit = true) (rest : JString) :
    takeXDigits digits.length (digits ++ rest) = some (digits, rest) := by
  induction digits with
  | nil => rfl
  | cons c digits ih =>
      rw [List.all_cons, Bool.and_eq_true] at h
      obtain ⟨hascii, hdigit⟩ := asciiHexDigit_of_isXDigit h.1
      rw [List.length_cons, List.cons_append, takeXDigits, takeChar_ascii hascii]
      dsimp only
      rw [CharData.isXDigit_ascii hascii, hdigit, if_pos Option.isSome_some, ih h.2]
      rfl

theorem takeXDigits_field {n : ℕ} (f : HexField n) (rest : JString) :
    takeXDigits n (f.digits ++ rest) = some (f.digits, rest) := by
  have h := takeXDigits_append f.hex rest
  rwa [f.length] at h

theorem parseHexDigits_of_hex {s : JString} (h : s.all isXDigit = true) (acc : ℕ) :
    parseHexDigits acc s = some (s.foldl (fun v c => v * 16 + xdigit c) acc) := by
  induction s generalizing acc with
  | nil => rfl
  | cons c s ih =>
      rw [List.all_cons, Bool.and_eq_true] at h
      obtain ⟨hascii, hdigit⟩ := asciiHexDigit_of_isXDigit h.1
      rw [parseHexDigits, CharData.hexDigit_ascii hascii, hdigit]
      exact ih h.2 _

theorem parseHex_field {n bound : ℕ} (f : HexField n) :
    parseHex bound f.digits =
      if hexValue f.digits < bound then .ok (hexValue f.digits) else .error .numberFormat := by
  rw [parseHex, parseHexDigits_of_hex f.hex]
  rfl

theorem parseHex_of_le {n bound : ℕ} (f : HexField n) (h : 16 ^ n ≤ bound) :
    parseHex bound f.digits = .ok (hexValue f.digits) := by
  rw [parseHex_field, if_pos (f.value_lt.trans_le h)]

theorem matchHere_last {n : ℕ} (f : HexField n) (rest : JString) :
    matchHere [n] (f.digits ++ rest) = some ([f.digits], rest) := by
  rw [matchHere, takeXDigits_field]
  rfl

theorem matchHere_blank {n m : ℕ} {ns : List ℕ} (f : HexField n) (rest : JString) :
    matchHere (n :: m :: ns) (f.digits ++ blank rest) =
      (matchHere (m :: ns) rest).map fun (groups, rest) => (f.digits :: groups, rest) := by
  rw [matchHere, takeXDigits_field]
  dsimp only [blank]
  rw [if_neg (by simp)]
  rfl

/-- A match at the start of the text is the one that `find()` returns. -/
theorem find_of_matchHere {sizes : List ℕ} {s rest : JString} {groups : List JString}
    (h : matchHere sizes s = some (groups, rest)) : find sizes s = some groups := by
  cases s with
  | nil =>
      rw [find, h]
      rfl
  | cons c s => rw [find, h]

/-! ## Reading a codec -/

theorem readCodec_text (c : Codec) (rest : JString) :
    readCodec (c.text ++ rest) = .ok (some c.numbers) := by
  have hmatch : matchHere [2, 2, 8, 8, 8] (c.text ++ rest) = some ([c.profile.digits,
      c.level.digits, c.cea.digits, c.vesa.digits, c.hh.digits], c.tail ++ rest) := by
    simp only [Codec.text, List.append_assoc, blank_append]
    rw [matchHere_blank c.profile, matchHere_blank c.level, matchHere_blank c.cea,
      matchHere_blank c.vesa, matchHere_last c.hh]
    rfl
  rw [readCodec, find_of_matchHere hmatch]
  dsimp only
  rw [parseHex_of_le c.profile (by decide), ok_bind, parseHex_of_le c.level (by decide), ok_bind,
    parseHex_of_le c.cea (by decide), ok_bind, parseHex_of_le c.vesa (by decide), ok_bind,
    parseHex_of_le c.hh (by decide), ok_bind]
  rfl

/-- The codecs `parseFormatSpec` reads off a text, sixty characters apart, up to an exception. -/
def readCodecs (text : JString) : List H264Codec :=
  if text = [] then []
  else
    match readCodec text with
    | .ok codec => codec.toList ++ readCodecs (text.drop 60)
    | .error _ => []
termination_by text.length
decreasing_by
  rename_i h
  have hpos := List.length_pos_iff.mpr h
  rw [List.length_drop]
  omega

/-- How the reading of the codecs ends. -/
def codecsResult (text : JString) : Except JavaException Unit :=
  if text = [] then .ok ()
  else
    match readCodec text with
    | .ok _ => codecsResult (text.drop 60)
    | .error e => .error e
termination_by text.length
decreasing_by
  rename_i h
  have hpos := List.length_pos_iff.mpr h
  rw [List.length_drop]
  omega

omit [CharData] in
theorem codecText_ne_nil (c : Codec) (rest : JString) : c.text ++ rest ≠ [] := by
  intro h
  have hlength := congrArg List.length h
  rw [List.length_append, c.length_text] at hlength
  simp at hlength

theorem readCodecs_nil : readCodecs [] = [] := by
  rw [readCodecs, if_pos rfl]

theorem codecsResult_nil : codecsResult [] = .ok () := by
  rw [codecsResult, if_pos rfl]

theorem readCodecs_cons {text : JString} {codec : Option H264Codec} (hne : text ≠ [])
    (h : readCodec text = .ok codec) :
    readCodecs text = codec.toList ++ readCodecs (text.drop 60) ∧
      codecsResult text = codecsResult (text.drop 60) := by
  constructor
  · rw [readCodecs, if_neg hne, h]
  · rw [codecsResult, if_neg hne, h]

theorem readCodecs_text (cs : List Codec) :
    readCodecs (codecsText cs) = cs.map Codec.numbers ∧ codecsResult (codecsText cs) = .ok () := by
  induction cs with
  | nil => exact ⟨readCodecs_nil, codecsResult_nil⟩
  | cons c cs ih =>
      cases cs with
      | nil =>
          have hne := codecText_ne_nil c []
          have hread := readCodec_text c []
          rw [List.append_nil] at hne hread
          obtain ⟨hcodecs, hresult⟩ := readCodecs_cons hne hread
          rw [codecsText, hcodecs, hresult, List.drop_eq_nil_of_le
            (by rw [c.length_text]; decide), readCodecs_nil, codecsResult_nil]
          exact ⟨rfl, rfl⟩
      | cons d ds =>
          have hlength : (c.text ++ jstr ", ").length = 60 := by
            rw [List.length_append, c.length_text]
            rfl
          have htext : codecsText (c :: d :: ds) =
              c.text ++ (jstr ", " ++ codecsText (d :: ds)) := by
            rw [codecsText, List.append_assoc]
            simp
          have hdrop : (c.text ++ (jstr ", " ++ codecsText (d :: ds))).drop 60 =
              codecsText (d :: ds) := by
            rw [← List.append_assoc, ← hlength, List.drop_left]
          obtain ⟨hcodecs, hresult⟩ :=
            readCodecs_cons (codecText_ne_nil c _) (readCodec_text c _)
          rw [htext, hcodecs, hresult, hdrop, ih.1, ih.2]
          exact ⟨rfl, rfl⟩

omit [CharData] in
theorem length_codecsText {cs : List Codec} (h : cs ≠ []) : 58 ≤ (codecsText cs).length := by
  cases cs with
  | nil => exact absurd rfl h
  | cons c cs =>
      cases cs with
      | nil => rw [codecsText, c.length_text]
      | cons d ds =>
          rw [codecsText]
          · simp only [List.length_append, c.length_text]
            omega
          · simp

/-! ## Reading a specification -/

/-- The native field is found at the beginning, whatever follows it. -/
theorem findNative_field (native preferred : HexField 2) (rest : JString) :
    findNative (native.digits ++ blank (preferred.digits ++ blank rest)) =
      some (native.digits, preferred.digits) := by
  have hmatch : matchHere [2, 2] (native.digits ++ blank (preferred.digits ++ blank rest)) =
      some ([native.digits, preferred.digits], blank rest) := by
    rw [matchHere_blank native, matchHere_last preferred]
    rfl
  cases htext : native.digits ++ blank (preferred.digits ++ blank rest) with
  | nil => simp [blank] at htext
  | cons c s =>
      rw [htext] at hmatch
      rw [findNative, hmatch]
      rfl

theorem findNative_text (spec : SinkSpec) :
    findNative spec.text = some (spec.native.digits, spec.preferred.digits) :=
  findNative_field spec.native spec.preferred (codecsText spec.codecs)

omit [CharData] in
theorem drop_text (spec : SinkSpec) : spec.text.drop 6 = codecsText spec.codecs := by
  have hlength : (spec.native.digits ++ blank (spec.preferred.digits ++ blank [])).length = 6 := by
    simp [blank, spec.native.length, spec.preferred.length]
  have htext : spec.text = (spec.native.digits ++ blank (spec.preferred.digits ++ blank [])) ++
      codecsText spec.codecs := by simp [SinkSpec.text, blank]
  rw [htext, ← hlength, List.drop_left]

omit [CharData] in
theorem length_text (spec : SinkSpec) : 64 ≤ spec.text.length := by
  have hdrop := congrArg List.length (drop_text spec)
  have hcodecs := length_codecsText spec.nonempty
  rw [List.length_drop] at hdrop
  omega

theorem parseNative_text (spec : SinkSpec) :
    parseNative spec.native.digits spec.preferred.digits spec.text =
      .ok (hexValue spec.native.digits) := by
  have hlong := length_text spec
  rw [parseNative, parseHex_of_le spec.native (by decide), ok_bind,
    parseHex_of_le spec.preferred (by decide), ok_bind, if_neg (by omega)]

/-- Parsing merges the codecs one after the other. -/
theorem parseCodecs_eq (s : State) (text : JString) :
    parseCodecs s text =
      ((readCodecs text).foldl (fun s codec => codec.merge s) s, codecsResult text) := by
  induction text using readCodecs.induct generalizing s with
  | case1 => rw [parseCodecs, readCodecs_nil, codecsResult_nil, if_pos rfl, List.foldl_nil]
  | case2 text hne codec hread ih =>
      obtain ⟨hcodecs, hresult⟩ := readCodecs_cons hne hread
      rw [parseCodecs, if_neg hne, hcodecs, hresult, parseH264Codec, hread, ok_bind,
        List.foldl_append]
      cases codec with
      | none => exact ih s
      | some codec => exact ih (codec.merge s)
  | case3 text hne e hread =>
      rw [parseCodecs, if_neg hne, readCodecs, if_neg hne, codecsResult, if_neg hne,
        parseH264Codec, hread]
      rfl

end MirrorCast.Video
