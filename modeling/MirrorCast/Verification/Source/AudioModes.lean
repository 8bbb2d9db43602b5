import MirrorCast.Program.WifiDisplaySource.Responses
import MirrorCast.Verification.Video.Capabilities

/-! # Reading the audio codecs of a sink -/

namespace MirrorCast.WifiDisplaySource

open Java VideoFormats Video

/-! ## The grammar -/

inductive AudioCodec where
  | LPCM
  | AAC
  | AC3
  deriving DecidableEq, Repr

def AudioCodec.name : AudioCodec → JString
  | .LPCM => jstr "LPCM"
  | .AAC => jstr "AAC"
  | .AC3 => jstr "AC3"

/-- One entry of a `sink_audio_list`. -/
structure AudioEntry where
  codec : AudioCodec
  modes : HexField 8
  latency : HexField 2

namespace AudioEntry

/-- The two groups of digits. -/
def digits (e : AudioEntry) : JString := e.modes.digits ++ blank e.latency.digits

def text (e : AudioEntry) : JString := e.codec.name ++ blank e.digits

def mask (e : AudioEntry) : ℕ := hexValue e.modes.digits

end AudioEntry

/-- A `sink_audio_list`. -/
def audioListText : List AudioEntry → JString
  | [] => []
  | [e] => e.text
  | e :: es => e.text ++ jstr ", " ++ audioListText es

/-- What follows an entry in a list. -/
def listTail : List AudioEntry → JString
  | [] => []
  | es => jstr ", " ++ audioListText es

theorem audioListText_cons (e : AudioEntry) (es : List AudioEntry) :
    audioListText (e :: es) = e.text ++ listTail es := by
  cases es with
  | nil => exact (List.append_nil _).symm
  | cons e' es => exact List.append_assoc _ _ _

/-! ## Entries as texts -/

theorem name_ne_nil (codec : AudioCodec) : codec.name ≠ [] := by
  cases codec <;> decide

/-- A name is a letter at least, and not the start of another name with its blank. -/
theorem name_isPrefixOf (codec codec' : AudioCodec) (rest : JString) :
    codec.name.isPrefixOf (codec'.name ++ blank rest) = decide (codec = codec') := by
  cases codec <;> cases codec' <;> rfl

theorem name_head (codec : AudioCodec) (rest : JString) :
    ∃ c name, codec.name ++ rest = c :: name ∧ 0x40 < c := by
  cases codec <;> exact ⟨_, _, rfl, by decide⟩

theorem xdigit_range {c : ℕ} (h : isXDigit c = true) : 0x2f < c := by
  simp only [isXDigit, Bool.or_eq_true, Bool.and_eq_true, decide_eq_true_eq] at h
  omega

theorem mem_digits {e : AudioEntry} {c : ℕ} (h : c ∈ e.digits) : c = 0x20 ∨ 0x2f < c := by
  rcases List.mem_append.mp h with h | h
  · exact Or.inr (xdigit_range (List.all_eq_true.mp e.modes.hex c h))
  · rcases List.mem_cons.mp h with h | h
    · exact Or.inl h
    · exact Or.inr (xdigit_range (List.all_eq_true.mp e.latency.hex c h))

theorem comma_notMem_text (e : AudioEntry) : 0x2c ∉ e.text := by
  intro h
  rcases List.mem_append.mp h with h | h
  · revert h
    cases e.codec <;> decide
  · rcases List.mem_cons.mp h with h | h
    · exact absurd h (by decide)
    · have hrange := mem_digits h
      omega

/-- The end of a list is a digit. -/
theorem getLast_audioListText {es : List AudioEntry} (h : es ≠ []) {c : ℕ}
    (hc : c ∈ (audioListText es).getLast?) : 0x20 < c := by
  induction es with
  | nil => exact absurd rfl h
  | cons e es ih =>
      cases es with
      | nil =>
          have hlatency : e.latency.digits ≠ [] := by
            intro hnil
            have hlength := e.latency.length
            rw [hnil] at hlength
            cases hlength
          have htext : e.text = (e.codec.name ++ blank (e.modes.digits ++ blank [])) ++
              e.latency.digits := by
            simp [AudioEntry.text, AudioEntry.digits, blank]
          rw [audioListText, htext, List.getLast?_append_of_ne_nil _ hlatency] at hc
          have hrange := xdigit_range (List.all_eq_true.mp e.latency.hex c
            (List.mem_of_getLast? hc))
          omega
      | cons e' es =>
          have hne : audioListText (e' :: es) ≠ [] := by
            rw [audioListText_cons, AudioEntry.text]
            simp [name_ne_nil]
          rw [audioListText, List.getLast?_append_of_ne_nil _ hne] at hc
          · exact ih (List.cons_ne_nil _ _) hc
          · simp

theorem trim_audioListText {es : List AudioEntry} (h : es ≠ []) :
    trim (audioListText es) = audioListText es := by
  refine trim_eq_self (fun c hc => ?_) fun c hc => getLast_audioListText h hc
  cases es with
  | nil => exact absurd rfl h
  | cons e es =>
      obtain ⟨d, name, hname, hd⟩ := name_head e.codec (blank e.digits ++ listTail es)
      rw [audioListText_cons, AudioEntry.text, List.append_assoc, hname, List.head?_cons,
        Option.mem_some] at hc
      omega

/-! ## The scanner -/

variable [CharData]

/-- Only at the end of the list the digits match the pattern. -/
theorem audioModes_digits (e : AudioEntry) (es : List AudioEntry) :
    audioModes (e.digits ++ listTail es) =
      if es = [] then if e.mask < 2 ^ 31 then .ok e.mask else .error .numberFormat
      else .ok 0 := by
  have hmatch : matchHere [8, 2] (e.digits ++ listTail es) =
      some ([e.modes.digits, e.latency.digits], listTail es) := by
    rw [AudioEntry.digits, List.append_assoc, blank_append, matchHere_blank e.modes,
      matchHere_last e.latency]
    rfl
  rw [audioModes, hmatch]
  cases es with
  | nil =>
      dsimp only [listTail]
      rw [parseHex_field, parseHex_of_le e.latency (by decide), if_pos rfl, AudioEntry.mask]
      split
      · rfl
      · rfl
  | cons e' es =>
      rw [if_neg (List.cons_ne_nil _ _)]
      rfl

omit [CharData] in
/-- The first comma of a text. -/
theorem idxOf?_comma {s : JString} (h : 0x2c ∉ s) (rest : JString) :
    (s ++ 0x2c :: rest).idxOf? 0x2c = some s.length := by
  induction s with
  | nil => rfl
  | cons c s ih =>
      have hc : (c == 0x2c) = false := by
        rw [beq_eq_false_iff_ne]
        exact fun hc => h (hc ▸ List.mem_cons_self)
      rw [List.cons_append, List.idxOf?_cons, hc, ih fun hs => h (List.mem_cons_of_mem c hs)]
      rfl

/-- One turn of the loop: an entry with the name ends it, another one is passed over. -/
theorem getAudioModes_cons (e : AudioEntry) (es : List AudioEntry) (codec : AudioCodec) :
    getAudioModes (audioListText (e :: es)) codec.name =
      if codec = e.codec then audioModes (e.digits ++ listTail es)
      else if es = [] then .ok 0
      else getAudioModes (audioListText es) codec.name := by
  have hlist : audioListText (e :: es) = e.codec.name ++ blank (e.digits ++ listTail es) := by
    rw [audioListText_cons, AudioEntry.text, List.append_assoc, blank_append]
  have hprefix := name_isPrefixOf codec e.codec (e.digits ++ listTail es)
  have hcomma : (audioListText (e :: es)).idxOf? 0x2c =
      if es = [] then none else some e.text.length := by
    cases es with
    | nil =>
        rw [if_pos rfl, List.idxOf?_eq_none_iff]
        exact comma_notMem_text e
    | cons e' es =>
        rw [if_neg (List.cons_ne_nil _ _), audioListText_cons]
        exact idxOf?_comma (comma_notMem_text e) (0x20 :: audioListText (e' :: es))
  obtain ⟨c, rest, htext, hc⟩ := name_head e.codec (blank (e.digits ++ listTail es))
  rw [← hlist] at hprefix
  rw [htext] at hlist
  rw [hlist] at hprefix hcomma
  rw [hlist, getAudioModes, if_neg (by omega), hprefix, hcomma]
  by_cases hcodec : codec = e.codec
  · have hlength : (c :: rest).length ≠ codec.name.length := by
      rw [← htext, hcodec, List.length_append, blank, List.length_cons]
      omega
    have hblank : (c :: rest)[codec.name.length]? = some 0x20 := by
      rw [← htext, hcodec, List.getElem?_append_right (Nat.le_refl _), Nat.sub_self]
      rfl
    have hdrop : (c :: rest).drop (codec.name.length + 1) = e.digits ++ listTail es := by
      rw [← htext, hcodec, ← List.drop_drop, List.drop_left]
      rfl
    rw [if_neg (fun h => hlength h.2), if_pos ⟨decide_eq_true hcodec, hblank⟩, if_pos hcodec, hdrop]
  · have hother : ¬ decide (codec = e.codec) = true := by simpa using hcodec
    rw [if_neg (fun h => hother h.1), if_neg (fun h => hother h.1), if_neg hcodec]
    cases es with
    | nil => rfl
    | cons e' es =>
        have hrest : rest.drop e.text.length = 0x20 :: audioListText (e' :: es) := by
          have htail : c :: rest = e.text ++ 0x2c :: 0x20 :: audioListText (e' :: es) := by
            rw [← hlist, audioListText_cons]
            rfl
          have hdrop : (c :: rest).drop (e.text.length + 1) =
              (0x2c :: 0x20 :: audioListText (e' :: es)).drop 1 := by
            rw [htail, ← List.drop_drop, List.drop_left]
          exact hdrop
        rw [if_neg (List.cons_ne_nil _ _), if_neg (List.cons_ne_nil _ _)]
        dsimp only
        rw [hrest, trim_cons (Nat.le_refl _), trim_audioListText (List.cons_ne_nil _ _)]

/-! ## The list as a whole -/

/-- The mask of the first entry with the codec, and 0 if there is none. -/
def firstMask (entries : List AudioEntry) (codec : AudioCodec) : ℕ :=
  ((entries.find? fun e => codec = e.codec).map AudioEntry.mask).getD 0

omit [CharData] in
theorem firstMask_cons_self (e : AudioEntry) (es : List AudioEntry) :
    firstMask (e :: es) e.codec = e.mask := by
  rw [firstMask, List.find?_cons_of_pos (by simp)]
  rfl

omit [CharData] in
theorem firstMask_cons_of_ne {codec : AudioCodec} {e : AudioEntry} (h : codec ≠ e.codec)
    (es : List AudioEntry) : firstMask (e :: es) codec = firstMask es codec := by
  rw [firstMask, List.find?_cons_of_neg (by simpa using h), firstMask]

/-- The first entry with the codec is the last one of the list with a mask below `2 ^ 31`, or its
mask is 0. -/
def Readable (entries : List AudioEntry) (codec : AudioCodec) : Prop :=
  ∀ before e after, entries = before ++ e :: after → (∀ e' ∈ before, codec ≠ e'.codec) →
    codec = e.codec → if after = [] then e.mask < 2 ^ 31 else e.mask = 0

omit [CharData] in
theorem readable_cons_self (e : AudioEntry) (es : List AudioEntry) :
    Readable (e :: es) e.codec ↔ if es = [] then e.mask < 2 ^ 31 else e.mask = 0 := by
  constructor
  · intro h
    exact h [] e es rfl (by simp) rfl
  · intro h before e' after hsplit hbefore _
    cases before with
    | nil =>
        cases hsplit
        exact h
    | cons e'' before =>
        cases hsplit
        exact absurd rfl (hbefore e List.mem_cons_self)

omit [CharData] in
theorem readable_cons_of_ne {codec : AudioCodec} {e : AudioEntry} (h : codec ≠ e.codec)
    (es : List AudioEntry) : Readable (e :: es) codec ↔ Readable es codec := by
  constructor
  · intro hread before e' after hsplit hbefore hcodec
    refine hread (e :: before) e' after (congrArg _ hsplit) ?_ hcodec
    exact List.forall_mem_cons.mpr ⟨h, hbefore⟩
  · intro hread before e' after hsplit hbefore hcodec
    cases before with
    | nil =>
        cases hsplit
        exact absurd hcodec h
    | cons e'' before =>
        cases hsplit
        exact hread before e' after rfl (List.forall_mem_cons.mp hbefore).2 hcodec

theorem audioModes_digits_iff (e : AudioEntry) (es : List AudioEntry) :
    audioModes (e.digits ++ listTail es) = .ok e.mask ↔
      if es = [] then e.mask < 2 ^ 31 else e.mask = 0 := by
  rw [audioModes_digits]
  split
  · split
    · rename_i hlt
      exact iff_of_true rfl hlt
    · rename_i hlt
      exact iff_of_false nofun hlt
  · rw [Except.ok.injEq]
    exact eq_comm

/-- The mask of the first entry with the codec is found exactly if the entry is the last one of the
list and its mask is an `int`, or the mask is 0, as it is read wherever else the entry is. -/
theorem getAudioModes_firstMask_iff {entries : List AudioEntry} (h : entries ≠ [])
    (codec : AudioCodec) :
    getAudioModes (audioListText entries) codec.name = .ok (firstMask entries codec) ↔
      Readable entries codec := by
  induction entries with
  | nil => exact absurd rfl h
  | cons e es ih =>
      rw [getAudioModes_cons]
      by_cases hcodec : codec = e.codec
      · subst hcodec
        rw [if_pos rfl, firstMask_cons_self, readable_cons_self, audioModes_digits_iff]
      · rw [if_neg hcodec, firstMask_cons_of_ne hcodec, readable_cons_of_ne hcodec]
        cases es with
        | nil =>
            rw [if_pos rfl]
            refine iff_of_true rfl fun before e' after hsplit => ?_
            cases before <;> cases hsplit
        | cons e' es =>
            rw [if_neg (List.cons_ne_nil _ _)]
            exact ih (List.cons_ne_nil _ _)

/-- The modes 1 and 2 of PCM, then mode 1 of AAC. -/
abbrev pcmAndAac : List AudioEntry :=
  [⟨.LPCM, hexField 8 3, hexField 2 0⟩, ⟨.AAC, hexField 8 1, hexField 2 0⟩]

omit [CharData] in
theorem getAudioModes_firstMask_last :
    @getAudioModes CharData.ascii (audioListText pcmAndAac) AudioCodec.AAC.name = .ok 1 := by
  let _ := CharData.ascii
  exact (getAudioModes_firstMask_iff (List.cons_ne_nil _ _) .AAC).mpr
    ((readable_cons_of_ne (by decide) _).mpr ((readable_cons_self _ _).mpr (by decide)))

omit [CharData] in
theorem getAudioModes_firstMask_fails : ¬ ∀ (entries : List AudioEntry), entries ≠ [] →
    ∀ codec : AudioCodec, @getAudioModes CharData.ascii (audioListText entries) codec.name =
      .ok (firstMask entries codec) := by
  let _ := CharData.ascii
  intro h
  have hpcm := h pcmAndAac (List.cons_ne_nil _ _) .LPCM
  rw [getAudioModes_cons, if_pos rfl, audioModes_digits, if_neg (List.cons_ne_nil _ _)] at hpcm
  revert hpcm
  decide

end MirrorCast.WifiDisplaySource
