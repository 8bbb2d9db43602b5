import MirrorCast.Program.ANetworkSession
import MirrorCast.Verification.Net.HeaderBlocks

/-! # Where the next RTSP message starts -/

namespace MirrorCast

open Java Scanning StringUtils ParsedMessage ANetworkSession Framing RTPUtils

namespace Net

/-! ## Sizes -/

/-- The bytes up to the empty line; without one the header lines are all there is. -/
def blockBytes (bytes : List UInt8) : ℕ := (endOf blankLine bytes).getD bytes.length

/-- The characters that the header block is decoded to. -/
def blockUnits (bytes : List UInt8) : ℕ :=
  (newStringFromBytes (bytes.take (blockBytes bytes))).length

theorem blockBytes_le (bytes : List UInt8) : blockBytes bytes ≤ bytes.length := by
  unfold blockBytes
  cases hend : endOf blankLine bytes with
  | none => exact le_refl _
  | some k => exact endOf_le hend

theorem blockUnits_le (bytes : List UInt8) : blockUnits bytes ≤ blockBytes bytes := by
  have hle := length_decode_le sound_start (bytes.take (blockBytes bytes))
  rw [pending_start, List.length_nil, Nat.add_zero] at hle
  exact hle.trans (List.length_take_le ..)

theorem length_newStringFromBytes_le (bytes : List UInt8) :
    (newStringFromBytes bytes).length ≤ bytes.length :=
  length_decode_le sound_start bytes

/-- The content that readers of the old dongle correct the length of. -/
def AsksIdr (content : JString) : Prop := jstr "wfd_idr_request\r\n" <+: content

instance : DecidablePred AsksIdr := fun _ => inferInstanceAs (Decidable (_ <+: _))

/-- `xs` goes on with CR LF at position `i`. -/
def CrlfAt {α : Type} [OfNat α 13] [OfNat α 10] (xs : List α) (i : ℕ) : Prop :=
  xs[i]? = some 13 ∧ xs[i + 1]? = some 10

instance {α : Type} [OfNat α 13] [OfNat α 10] [DecidableEq α] (xs : List α) (i : ℕ) :
    Decidable (CrlfAt xs i) := inferInstanceAs (Decidable (_ ∧ _))

/-- The two bytes of the correction, if they are there. -/
def correction {α : Type} [OfNat α 13] [OfNat α 10] [DecidableEq α] (content : JString)
    (xs : List α) (i : ℕ) : ℕ :=
  if AsksIdr content ∧ CrlfAt xs i then 2 else 0

section Decoded

variable [CharData]

/-- `Content-Length`, which counts as 0 if it is negative or no number. -/
def bodyLength (dict : List (JString × JString)) : ℕ :=
  match getInt dict (jstr "content-length") 0 with
  | .ok n => n.toNat
  | .error _ => 0

/-- The bytes that a text message takes. -/
def textSize (bytes : List UInt8) (dict : List (JString × JString)) (content : JString) : ℕ :=
  blockBytes bytes + bodyLength dict +
    correction content bytes (blockBytes bytes + bodyLength dict)

/-! ## What the parser makes of the characters -/

section

variable {s : JString} {noMoreData : Bool} {headers : Headers} {offset : ℕ} {complete : Bool}

theorem parse_of_none (h : scanned s = none) : parse s noMoreData = .ok none := by
  unfold scanned at h
  unfold parse
  cases hline : splitLine s with
  | none => rfl
  | some split =>
      rw [hline, Option.bind_some] at h
      dsimp only at h ⊢
      rw [h]

theorem parse_of_incomplete (h : scanned s = some (headers, offset, false)) :
    parse s false = .ok none := by
  obtain ⟨⟨line, rest⟩, hline, hlines⟩ := Option.bind_eq_some_iff.mp h
  unfold parse
  rw [hline]
  dsimp only at hlines ⊢
  rw [hlines]
  rfl

/-- Behind the header lines the parser looks at `Content-Length`. -/
theorem parse_of_scanned (h : scanned s = some (headers, offset, complete))
    (hcomplete : complete = true ∨ noMoreData = true) :
    parse s noMoreData = (do
      let contentLength ← getInt headers.mDict (jstr "content-length") 0
      let totalLength := int32 (offset + contentLength.toNat)
      if (s.length : ℤ) < totalLength then return none
      let mContent ← substring s offset totalLength
      return some ⟨headers.mDict, mContent, totalLength⟩) := by
  obtain ⟨⟨line, rest⟩, hline, hlines⟩ := Option.bind_eq_some_iff.mp h
  unfold parse
  rw [hline]
  dsimp only at hlines ⊢
  rw [hlines]
  have hgoes : ¬ (complete = false ∧ noMoreData = false) := by
    rintro ⟨rfl, rfl⟩
    simp at hcomplete
  dsimp only
  rw [if_neg hgoes]
  cases getInt headers.mDict (jstr "content-length") 0 with
  | error e => rw [error_bind, error_bind]
  | ok n =>
      have hmax : (if n < 0 then 0 else n) = (n.toNat : ℤ) := by
        split <;> omega
      rw [ok_bind, ok_bind, hmax]
      rfl

variable (h : scanned s = some (headers, offset, complete))
  (hcomplete : complete = true ∨ noMoreData = true)
include h hcomplete

theorem parse_of_getInt_error {e : JavaException}
    (hlength : getInt headers.mDict (jstr "content-length") 0 = .error e) :
    parse s noMoreData = .error e := by
  rw [parse_of_scanned h hcomplete, hlength]
  rfl

variable {n : ℤ} (hlength : getInt headers.mDict (jstr "content-length") 0 = .ok n)
include hlength

/-- A length that does not fit into an `int` makes `substring` throw. -/
theorem parse_of_overflow (hoffset : offset < 2 ^ 31) (hn : n < 2 ^ 31)
    (hlarge : 2 ^ 31 ≤ offset + n.toNat) : ∃ e, parse s noMoreData = .error e := by
  have hwraps : int32 ((offset : ℤ) + n.toNat) = offset + n.toNat - 2 ^ 32 :=
    int32_wraps (by omega) (by omega)
  refine ⟨.stringIndexOutOfBounds, ?_⟩
  rw [parse_of_scanned h hcomplete, hlength, ok_bind]
  dsimp only
  rw [hwraps, if_neg (by omega), substring, if_pos (by omega)]
  rfl

theorem parse_of_fits (hsmall : offset + n.toNat < 2 ^ 31) :
    parse s noMoreData = .ok (if s.length < offset + n.toNat then none
      else some ⟨headers.mDict, (s.drop offset).take n.toNat, (offset + n.toNat : ℕ)⟩) := by
  have hint : int32 ((offset : ℤ) + n.toNat) = (offset + n.toNat : ℕ) := by
    rw [← Nat.cast_add, int32_natCast hsmall]
  rw [parse_of_scanned h hcomplete, hlength, ok_bind]
  dsimp only
  rw [hint]
  by_cases hshort : s.length < offset + n.toNat
  · rw [if_pos (by omega), if_pos hshort]
    rfl
  · rw [if_neg (by omega), if_neg hshort, substring, if_neg (by omega), ok_bind, Int.toNat_natCast,
      show ((offset + n.toNat : ℕ) - (offset : ℤ)).toNat = n.toNat by omega]
    rfl

end

/-! ## The look behind a message -/

/-- There is something to look at behind a message with the content. -/
def LooksAhead (s content : JString) (i : ℕ) : Prop :=
  AsksIdr content → ∃ c, s[i]? = some c ∧ (c = 0x0d → s[i + 1]? ≠ none)

omit [CharData] in
theorem textLength_eq_ok {s : JString} {msg : ParsedMessage} {l : ℕ} (hlength : msg.mLength = l)
    (hlong : AsksIdr msg.mContent → 19 ≤ l) {m : ℤ} : Session.textLength s msg = .ok m ↔
      LooksAhead s msg.mContent l ∧ m = (l + correction msg.mContent s l : ℕ) := by
  unfold Session.textLength
  rw [hlength, Int.toNat_natCast]
  by_cases hidr : AsksIdr msg.mContent
  swap
  · rw [if_neg fun h => hidr (List.isPrefixOf_iff_prefix.mp h.1), correction,
      if_neg fun h => hidr h.1]
    constructor
    · intro h
      cases h
      exact ⟨fun h => absurd h hidr, rfl⟩
    · rintro ⟨-, rfl⟩
      rfl
  have hlong := hlong hidr
  rw [if_pos ⟨List.isPrefixOf_iff_prefix.mpr hidr, by omega⟩]
  cases hchar : s[l]? with
  | none =>
      refine iff_of_false (fun h => ?_) fun h => ?_
      · obtain ⟨c, hc, -⟩ := bind_eq_ok.mp h
        rw [charAt_eq_ok, hchar] at hc
        cases hc
      · obtain ⟨c, hc, -⟩ := h.1 hidr
        rw [hchar] at hc
        cases hc
  | some c =>
      rw [charAt_eq_ok.mpr hchar, ok_bind]
      by_cases hcr : c = 0x0d
      swap
      · rw [if_neg hcr, correction, if_neg fun h => hcr (by
          have heq := h.2.1
          rw [hchar] at heq
          exact Option.some.inj heq)]
        constructor
        · intro h
          cases h
          exact ⟨fun _ => ⟨c, hchar, fun h => absurd h hcr⟩, rfl⟩
        · rintro ⟨-, rfl⟩
          rfl
      rw [if_pos hcr]
      cases hnext : s[l + 1]? with
      | none =>
          refine iff_of_false (fun h => ?_) fun h => ?_
          · obtain ⟨c', hc', -⟩ := bind_eq_ok.mp h
            rw [charAt_eq_ok, hnext] at hc'
            cases hc'
          · obtain ⟨c', hc', hmore⟩ := h.1 hidr
            rw [hchar] at hc'
            cases hc'
            exact hmore hcr hnext
      | some c' =>
          have hlooks : LooksAhead s msg.mContent l := fun _ =>
            ⟨c, hchar, fun _ => by rw [hnext]; exact Option.some_ne_none c'⟩
          have hcrlf : CrlfAt s l ↔ c' = 0x0a := by
            unfold CrlfAt
            rw [hchar, hnext, hcr]
            exact ⟨fun h => Option.some.inj h.2, fun h => ⟨rfl, congrArg some h⟩⟩
          have hcorrection : correction msg.mContent s l = if c' = 0x0a then 2 else 0 := by
            unfold correction
            exact if_congr ((and_iff_right hidr).trans hcrlf) rfl rfl
          rw [charAt_eq_ok.mpr hnext, ok_bind, hcorrection]
          constructor
          · intro h
            cases h
            refine ⟨hlooks, ?_⟩
            split <;> rfl
          · rintro ⟨-, rfl⟩
            split <;> rfl

omit [CharData] in
theorem correction_le {s content : JString} {l : ℕ} (hle : l ≤ s.length) :
    l + correction content s l ≤ s.length := by
  unfold correction
  split
  · rename_i h
    obtain ⟨hlt, -⟩ := List.getElem?_eq_some_iff.mp h.2.2
    omega
  · exact hle

/-! ## The turns of the loop -/

/-- The text behind the header lines, as far as the parser looks at it. -/
def FineText (bytes : List UInt8) (headers : Headers) : Prop :=
  ∃ n, getInt headers.mDict (jstr "content-length") 0 = .ok n ∧
    blockUnits bytes + n.toNat < 2 ^ 31 ∧
    let units := newStringFromBytes bytes
    let content := (units.drop (blockUnits bytes)).take n.toNat
    blockUnits bytes + n.toNat ≤ units.length →
      LooksAhead units content (blockUnits bytes + n.toNat) ∧
      blockUnits bytes + correction content units (blockUnits bytes + n.toNat) =
        blockBytes bytes + correction content bytes (blockBytes bytes + n.toNat)

/-- What the bytes at the position of a message have to be for the loop to go on right. -/
def Fine (err : ℤ) (bytes : List UInt8) : Prop :=
  if bytes.head? = some 0x24 then bytes.length < 4 ∨ unsignedAt bytes 2 2 < 2 ^ 15
  else ∀ headers offset complete,
    scanned (newStringFromBytes bytes) = some (headers, offset, complete) →
      complete = true ∨ err ≠ OK → FineText bytes headers

/-- The turn throws nothing, and a text message takes the bytes that it should. -/
structure RightTurn (bytes : List UInt8) (turn : Turn Notification JavaException) : Prop where
  returns : ∀ posted e, turn ≠ .stop posted (some e)
  took : ∀ msg n, turn = .took (.data msg) n → n = textSize bytes msg.mDict msg.mContent
  stopped : ∀ msg, turn = .stop [.data msg] none →
    Session.textLength (newStringFromBytes bytes) msg =
      .ok (textSize bytes msg.mDict msg.mContent)

/-- The offset that the parser reaches is the end of the header block in characters. -/
theorem offset_eq_blockUnits {bytes : List UInt8} {headers : Headers} {offset : ℕ} {complete : Bool}
    (h : scanned (newStringFromBytes bytes) = some (headers, offset, complete)) :
    offset = blockUnits bytes := by
  have hend := scanned_end (newStringFromBytes bytes)
  have hdecode := endOf_decode sound_start bytes
  rw [h] at hend
  unfold blockUnits blockBytes
  cases complete with
  | true =>
      rw [blankLine_toNat, show decode .start bytes = newStringFromBytes bytes from rfl, hend]
        at hdecode
      obtain ⟨k, hk, hlength⟩ := Option.map_eq_some_iff.mp hdecode.symm
      rw [hk, Option.getD_some]
      exact hlength.symm
  | false =>
      rw [blankLine_toNat, show decode .start bytes = newStringFromBytes bytes from rfl, hend.1]
        at hdecode
      rw [Option.map_eq_none_iff.mp hdecode.symm, Option.getD_none, List.take_length]
      exact hend.2

theorem two_le_offset {s : JString} {headers : Headers} {offset : ℕ} {complete : Bool}
    (h : scanned s = some (headers, offset, complete)) : 2 ≤ offset := by
  obtain ⟨⟨line, rest⟩, -, hlines⟩ := Option.bind_eq_some_iff.mp h
  have hle := le_offset_of_parseLines hlines
  omega

/-- A message that is posted is taken off right if `readMore` computes its size. -/
theorem textTurn_right_iff {err : ℤ} {bytes : List UInt8} {msg : ParsedMessage} {l : ℕ}
    (hparse : parse (newStringFromBytes bytes) (err ≠ OK) = .ok (some msg))
    (hlength : msg.mLength = l) (hle : l ≤ (newStringFromBytes bytes).length)
    (hlong : AsksIdr msg.mContent → 19 ≤ l) :
    RightTurn bytes (Session.textTurn err bytes) ↔
      Session.textLength (newStringFromBytes bytes) msg =
        .ok (textSize bytes msg.mDict msg.mContent) := by
  unfold Session.textTurn
  dsimp only
  rw [hparse]
  dsimp only
  cases htext : Session.textLength (newStringFromBytes bytes) msg with
  | error e =>
      exact iff_of_false (fun h => h.returns _ _ rfl) nofun
  | ok m =>
      obtain ⟨-, rfl⟩ := (textLength_eq_ok hlength hlong).mp htext
      have hbound := (@correction_le _ msg.mContent _ hle).trans
        (length_newStringFromBytes_le bytes)
      dsimp only
      rw [if_neg (by omega), Except.ok.injEq, Nat.cast_inj, Int.toNat_natCast]
      by_cases herr : err = OK
      · rw [if_neg (not_not.mpr herr)]
        refine ⟨fun h => h.took _ _ rfl, fun h => ⟨nofun, ?_, nofun⟩⟩
        intro msg' n heq
        cases heq
        exact h
      · rw [if_pos herr]
        refine ⟨fun h => ?_, fun h => ⟨nofun, nofun, ?_⟩⟩
        · have hstopped := h.stopped msg rfl
          rw [htext, Except.ok.injEq, Nat.cast_inj] at hstopped
          exact hstopped
        · intro msg' heq
          cases heq
          rw [htext, h]

theorem rightTurn_stop (bytes : List UInt8) : RightTurn bytes (.stop [] none) :=
  ⟨nofun, nofun, nofun⟩

theorem getInt_lt {dict : List (JString × JString)} {name : JString} {n : ℤ}
    (h : getInt dict name 0 = .ok n) : n < 2 ^ 31 := by
  unfold getInt at h
  split at h
  · cases h
    decide
  · exact (parseInt_bounds h).2

theorem bodyLength_of_ok {dict : List (JString × JString)} {n : ℤ}
    (h : getInt dict (jstr "content-length") 0 = .ok n) : bodyLength dict = n.toNat := by
  rw [bodyLength, h]

omit [CharData] in
/-- A request for the old dongle is not so short. -/
theorem long_of_asksIdr {s : JString} {n offset : ℕ} (hoffset : 2 ≤ offset)
    (h : AsksIdr ((s.drop offset).take n)) : 19 ≤ offset + n := by
  have hlength := h.length_le
  have htake := List.length_take_le n (s.drop offset)
  have hidr : (jstr "wfd_idr_request\r\n").length = 17 := by decide
  omega

section

variable {err : ℤ} {bytes : List UInt8} {headers : Headers} {offset : ℕ} {complete : Bool}

theorem textTurn_of_scanned (hsize : bytes.length < 2 ^ 31)
    (h : scanned (newStringFromBytes bytes) = some (headers, offset, complete))
    (hcomplete : complete = true ∨ err ≠ OK) :
    RightTurn bytes (Session.textTurn err bytes) ↔ FineText bytes headers := by
  have hoffset := offset_eq_blockUnits h
  have htwo := two_le_offset h
  subst hoffset
  have hunits : blockUnits bytes < 2 ^ 31 :=
    ((blockUnits_le bytes).trans (blockBytes_le bytes)).trans_lt hsize
  have hcomplete' : complete = true ∨ decide (err ≠ OK) = true :=
    hcomplete.imp_right decide_eq_true
  have hthrows : ∀ e, parse (newStringFromBytes bytes) (err ≠ OK) = .error e →
      ¬ RightTurn bytes (Session.textTurn err bytes) := by
    intro e herror hright
    refine hright.returns [] e ?_
    unfold Session.textTurn
    dsimp only
    rw [herror]
  unfold FineText
  cases hlength : getInt headers.mDict (jstr "content-length") 0 with
  | error e =>
      exact iff_of_false (hthrows e (parse_of_getInt_error h hcomplete' hlength)) nofun
  | ok n =>
      have hn := getInt_lt hlength
      simp only [Except.ok.injEq, exists_eq_left']
      by_cases hfits : blockUnits bytes + n.toNat < 2 ^ 31
      swap
      · obtain ⟨e, herror⟩ := parse_of_overflow h hcomplete' hlength hunits hn (not_lt.mp hfits)
        exact iff_of_false (hthrows e herror) fun h => hfits h.1
      have hparse := parse_of_fits h hcomplete' hlength hfits
      by_cases hshort : (newStringFromBytes bytes).length < blockUnits bytes + n.toNat
      · rw [if_pos hshort] at hparse
        have hturn : Session.textTurn err bytes = .stop [] none := by
          unfold Session.textTurn
          dsimp only
          rw [hparse]
        rw [hturn]
        exact iff_of_true (rightTurn_stop bytes) ⟨hfits, fun hle => absurd hle (not_le.mpr hshort)⟩
      rw [if_neg hshort] at hparse
      have hlong := @long_of_asksIdr (newStringFromBytes bytes) n.toNat (blockUnits bytes) htwo
      rw [textTurn_right_iff hparse rfl (not_lt.mp hshort) hlong, textLength_eq_ok rfl hlong,
        textSize, bodyLength_of_ok hlength, Nat.cast_inj]
      dsimp only
      constructor
      · rintro ⟨hlooks, hequal⟩
        exact ⟨hfits, fun _ => ⟨hlooks, by omega⟩⟩
      · rintro ⟨-, hfine⟩
        obtain ⟨hlooks, hequal⟩ := hfine (not_lt.mp hshort)
        exact ⟨hlooks, by omega⟩

theorem textTurn_of_unscanned
    (h : ∀ headers offset complete,
      scanned (newStringFromBytes bytes) = some (headers, offset, complete) →
        ¬ (complete = true ∨ err ≠ OK)) : Session.textTurn err bytes = .stop [] none := by
  have hparse : parse (newStringFromBytes bytes) (err ≠ OK) = .ok none := by
    cases hscanned : scanned (newStringFromBytes bytes) with
    | none => exact parse_of_none hscanned
    | some found =>
        obtain ⟨headers, offset, complete⟩ := found
        obtain ⟨hincomplete, herr⟩ := not_or.mp (h _ _ _ hscanned)
        cases complete with
        | true => exact absurd rfl hincomplete
        | false =>
            rw [decide_eq_false herr]
            exact parse_of_incomplete hscanned
  unfold Session.textTurn
  dsimp only
  rw [hparse]

theorem binaryTurn_right_iff : RightTurn bytes (Session.binaryTurn bytes) ↔
    bytes.length < 4 ∨ unsignedAt bytes 2 2 < 2 ^ 15 := by
  unfold Session.binaryTurn
  by_cases hshort : bytes.length < 4
  · rw [if_pos hshort]
    exact iff_of_true (rightTurn_stop bytes) (Or.inl hshort)
  rw [if_neg hshort, or_iff_right hshort]
  dsimp only
  rcases U16_AT_cases bytes 2 with ⟨hsmall, heq⟩ | ⟨hlarge, heq⟩
  · refine iff_of_true ?_ hsmall
    split
    · exact rightTurn_stop bytes
    · rw [if_neg (by omega)]
      exact ⟨nofun, nofun, nofun⟩
  · have hlt := unsignedAt_lt bytes 2 2
    refine iff_of_false (fun h => ?_) (by omega)
    rw [if_neg (by omega), if_pos (by omega)] at h
    exact h.returns _ _ rfl

theorem rtspTurn_right_iff (hsize : bytes.length < 2 ^ 31) :
    RightTurn bytes (Session.rtspTurn err bytes) ↔ Fine err bytes := by
  unfold Session.rtspTurn Fine
  by_cases hdollar : bytes.head? = some 0x24
  · rw [if_pos hdollar, if_pos hdollar]
    exact binaryTurn_right_iff
  rw [if_neg hdollar, if_neg hdollar]
  by_cases hscanned : ∃ headers offset complete,
      scanned (newStringFromBytes bytes) = some (headers, offset, complete) ∧
        (complete = true ∨ err ≠ OK)
  · obtain ⟨headers, offset, complete, hfound, hcomplete⟩ := hscanned
    rw [textTurn_of_scanned hsize hfound hcomplete]
    constructor
    · intro hfine headers' offset' complete' hfound' _
      rw [hfound] at hfound'
      cases hfound'
      exact hfine
    · exact fun h => h headers offset complete hfound hcomplete
  · push Not at hscanned
    rw [textTurn_of_unscanned fun headers offset complete hfound hcomplete => by
      rcases hcomplete with hcomplete | herr
      · exact (hscanned headers offset complete hfound).1 hcomplete
      · exact herr (hscanned headers offset complete hfound).2]
    refine iff_of_true (rightTurn_stop bytes) fun headers offset complete hfound hcomplete => ?_
    rcases hcomplete with hcomplete | herr
    · exact absurd hcomplete (hscanned headers offset complete hfound).1
    · exact absurd (hscanned headers offset complete hfound).2 herr

/-! ## The positions of messages -/

/-- The number of bytes of the message at the front, if the characters that it needs are there; a
text message is the last one if nothing more is to come. -/
def messageSize (err : ℤ) (bytes : List UInt8) : Option ℕ :=
  if bytes.head? = some 0x24 then
    if 4 ≤ bytes.length ∧ 4 + unsignedAt bytes 2 2 ≤ bytes.length then
      some (4 + unsignedAt bytes 2 2)
    else none
  else
    let units := newStringFromBytes bytes
    match scanned units with
    | some (headers, _, true) =>
        let length := bodyLength headers.mDict
        if err = OK ∧ blockUnits bytes + length ≤ units.length then
          some (textSize bytes headers.mDict ((units.drop (blockUnits bytes)).take length))
        else none
    | _ => none

omit [CharData] in
theorem messageSize_binary (hfine : bytes.length < 4 ∨ unsignedAt bytes 2 2 < 2 ^ 15) (n : ℕ) :
    (if 4 ≤ bytes.length ∧ 4 + unsignedAt bytes 2 2 ≤ bytes.length then
      some (4 + unsignedAt bytes 2 2) else none) = some n ↔
      ∃ o, Session.binaryTurn bytes = .took o n := by
  unfold Session.binaryTurn
  by_cases hshort : bytes.length < 4
  · rw [if_pos hshort, if_neg (by omega)]
    exact iff_of_false nofun nofun
  rw [if_neg hshort]
  dsimp only
  have hsmall := hfine.resolve_left hshort
  rcases U16_AT_cases bytes 2 with ⟨-, heq⟩ | ⟨hlarge, -⟩
  swap
  · omega
  rw [heq]
  by_cases hlong : 4 + unsignedAt bytes 2 2 ≤ bytes.length
  · rw [if_pos ⟨by omega, hlong⟩, if_neg (by omega), if_neg (by omega), Int.toNat_natCast]
    constructor
    · intro h
      cases h
      exact ⟨_, rfl⟩
    · rintro ⟨o, h⟩
      cases h
      rfl
  · rw [if_neg fun h => hlong h.2, if_pos (by omega)]
    exact iff_of_false nofun nofun

/-- The message behind the header block. -/
def message (bytes : List UInt8) (headers : Headers) : ParsedMessage where
  mDict := headers.mDict
  mContent := ((newStringFromBytes bytes).drop (blockUnits bytes)).take (bodyLength headers.mDict)
  mLength := (blockUnits bytes + bodyLength headers.mDict : ℕ)

/-- A turn with a message that is fine. -/
theorem textTurn_of_fine
    (h : scanned (newStringFromBytes bytes) = some (headers, offset, complete))
    (hcomplete : complete = true ∨ err ≠ OK) (hfine : FineText bytes headers) :
    Session.textTurn err bytes =
      if (newStringFromBytes bytes).length < blockUnits bytes + bodyLength headers.mDict then
        .stop [] none
      else if err ≠ OK then .stop [.data (message bytes headers)] none
      else .took (.data (message bytes headers))
        (textSize bytes headers.mDict (message bytes headers).mContent) := by
  obtain ⟨n, hn, hfits, hlast⟩ := hfine
  have hoffset := offset_eq_blockUnits h
  have htwo := two_le_offset h
  subst hoffset
  have hparse := parse_of_fits h (hcomplete.imp_right decide_eq_true) hn hfits
  unfold Session.textTurn message
  rw [bodyLength_of_ok hn]
  dsimp only
  rw [hparse]
  by_cases hshort : (newStringFromBytes bytes).length < blockUnits bytes + n.toNat
  · rw [if_pos hshort, if_pos hshort]
  obtain ⟨hlooks, hequal⟩ := hlast (not_lt.mp hshort)
  have hlong := @long_of_asksIdr (newStringFromBytes bytes) n.toNat (blockUnits bytes) htwo
  have htext := (@textLength_eq_ok _ ⟨headers.mDict, _, _⟩ _ rfl hlong _).mpr ⟨hlooks, rfl⟩
  have hbound := (@correction_le _ (((newStringFromBytes bytes).drop
    (blockUnits bytes)).take n.toNat) _ (not_lt.mp hshort)).trans
      (length_newStringFromBytes_le bytes)
  rw [if_neg hshort, if_neg hshort]
  dsimp only
  rw [htext]
  dsimp only
  rw [if_neg (by omega), Int.toNat_natCast, textSize, bodyLength_of_ok hn]
  congr 2
  omega

theorem messageSize_iff (hfine : Fine err bytes) (n : ℕ) :
    messageSize err bytes = some n ↔ ∃ o, Session.rtspTurn err bytes = .took o n := by
  unfold messageSize Session.rtspTurn
  unfold Fine at hfine
  by_cases hdollar : bytes.head? = some 0x24
  · rw [if_pos hdollar] at hfine ⊢
    rw [if_pos hdollar]
    exact messageSize_binary hfine n
  rw [if_neg hdollar] at hfine ⊢
  rw [if_neg hdollar]
  dsimp only
  cases hscanned : scanned (newStringFromBytes bytes) with
  | none =>
      rw [textTurn_of_unscanned (by rw [hscanned]; nofun)]
      exact iff_of_false nofun nofun
  | some found =>
      obtain ⟨headers, offset, complete⟩ := found
      by_cases hcomplete : complete = true ∨ err ≠ OK
      swap
      · rw [textTurn_of_unscanned (by rw [hscanned]; rintro _ _ _ ⟨⟩; exact hcomplete),
          Bool.eq_false_of_not_eq_true fun h => hcomplete (.inl h)]
        exact iff_of_false nofun nofun
      rw [textTurn_of_fine hscanned hcomplete (hfine _ _ _ hscanned hcomplete)]
      by_cases hshort : (newStringFromBytes bytes).length <
          blockUnits bytes + bodyLength headers.mDict
      · rw [if_pos hshort]
        refine iff_of_false ?_ nofun
        split
        · rename_i heq
          cases heq
          rw [if_neg fun h => absurd h.2 (not_le.mpr hshort)]
          nofun
        · nofun
      rw [if_neg hshort]
      by_cases herr : err = OK
      · obtain rfl := hcomplete.resolve_right (not_not.mpr herr)
        rw [if_neg (not_not.mpr herr)]
        dsimp only
        rw [if_pos ⟨herr, not_lt.mp hshort⟩]
        constructor
        · rintro ⟨⟩
          exact ⟨_, rfl⟩
        · rintro ⟨_, ⟨⟩⟩
          rfl
      · rw [if_pos herr]
        refine iff_of_false ?_ nofun
        split
        · rw [if_neg fun h => herr h.1]
          nofun
        · nofun

/-- Of a session in `MODE_RTSP` the loop over the bytes in the buffer throws nothing and takes each
text message off at the size of its header block and its content, with the correction
for the old dongle, if and only if everything that is found at the positions
of messages is fine. -/
theorem rtsp_messages_exact_iff (err : ℤ) (data : List UInt8) (hsize : data.length < 2 ^ 31) :
    (((Session.reader err .MODE_RTSP).all data).2 = none ∧
        ∀ k, (Session.reader err .MODE_RTSP).Visits data k →
          (∀ msg n, Session.rtspTurn err (data.drop k) = .took (.data msg) n →
            n = textSize (data.drop k) msg.mDict msg.mContent) ∧
          ∀ msg, Session.rtspTurn err (data.drop k) = .stop [.data msg] none →
            Session.textLength (newStringFromBytes (data.drop k)) msg =
              .ok (textSize (data.drop k) msg.mDict msg.mContent)) ↔
      ∀ k, Reader.Boundary (messageSize err) data k → Fine err (data.drop k) := by
  have hdrop : ∀ k, (data.drop k).length < 2 ^ 31 := fun k => by
    rw [List.length_drop]
    omega
  have hturn : (Session.reader err .MODE_RTSP).turn = Session.rtspTurn err := rfl
  refine Iff.trans ?_ (Reader.visits_iff_boundary fun k n hfine => by
    rw [hturn]
    exact messageSize_iff hfine n)
  constructor
  · rintro ⟨hreturns, hexact⟩ k hk
    exact (rtspTurn_right_iff (hdrop k)).mp ⟨Reader.returns_iff.mp hreturns k hk, (hexact k hk).1,
      (hexact k hk).2⟩
  · intro hfine
    have hright := fun k hk => (rtspTurn_right_iff (hdrop k)).mpr (hfine k hk)
    exact ⟨Reader.returns_iff.mpr fun k hk => (hright k hk).returns,
      fun k hk => ⟨(hright k hk).took, (hright k hk).stopped⟩⟩

end

end Decoded

/-- A request without content. -/
theorem rtsp_messages_exact_options :
    let _ := CharData.ascii
    let data := (jstr "OPTIONS * RTSP/1.0\r\nCSeq: 1\r\n\r\n").map UInt8.ofNat
    ((Session.reader OK .MODE_RTSP).all data).2 = none ∧
      ∀ k, (Session.reader OK .MODE_RTSP).Visits data k →
        (∀ msg n, Session.rtspTurn OK (data.drop k) = .took (.data msg) n →
          n = textSize (data.drop k) msg.mDict msg.mContent) ∧
        ∀ msg, Session.rtspTurn OK (data.drop k) = .stop [.data msg] none →
          Session.textLength (newStringFromBytes (data.drop k)) msg =
            .ok (textSize (data.drop k) msg.mDict msg.mContent) := by
  intro _ data
  refine (rtsp_messages_exact_iff OK data (by decide +kernel)).mpr fun k hk => ?_
  have hpos : k = 0 ∨ k = 31 := by
    induction hk with
    | start => exact Or.inl rfl
    | @next k n _ hnext ih =>
        rcases ih with rfl | rfl
        · have hfirst : messageSize OK (data.drop 0) = some 31 := by decide +kernel
          rw [hfirst] at hnext
          cases hnext
          exact Or.inr rfl
        · have hlast : messageSize OK (data.drop 31) = none := by decide +kernel
          rw [hlast] at hnext
          cases hnext
  rcases hpos with rfl | rfl
  · intro headers offset complete hfound _
    have hscanned : scanned (newStringFromBytes (data.drop 0)) = some
        (⟨[(jstr "_", jstr "OPTIONS * RTSP/1.0"), (jstr "cseq", jstr "1")], jstr "cseq"⟩,
          31, true) := by decide +kernel
    rw [hscanned] at hfound
    cases hfound
    refine ⟨0, by decide +kernel, by decide +kernel, fun _ => ⟨fun hidr => ?_, by decide +kernel⟩⟩
    exact absurd hidr (by decide +kernel)
  · intro headers offset complete hfound _
    have hscanned : scanned (newStringFromBytes (data.drop 31)) = none := by decide +kernel
    rw [hscanned] at hfound
    cases hfound

/-- A `Content-Length` that is no number makes the loop throw. -/
theorem rtsp_messages_not_exact :
    ¬ ∀ [CharData] (err : ℤ) (data : List UInt8), data.length < 2 ^ 31 →
      ((Session.reader err .MODE_RTSP).all data).2 = none ∧
        ∀ k, (Session.reader err .MODE_RTSP).Visits data k →
          (∀ msg n, Session.rtspTurn err (data.drop k) = .took (.data msg) n →
            n = textSize (data.drop k) msg.mDict msg.mContent) ∧
          ∀ msg, Session.rtspTurn err (data.drop k) = .stop [.data msg] none →
            Session.textLength (newStringFromBytes (data.drop k)) msg =
              .ok (textSize (data.drop k) msg.mDict msg.mContent) := by
  intro h
  let _ := CharData.ascii
  have hreturns := (h OK ((jstr "OPTIONS * RTSP/1.0\r\nContent-Length: x\r\n\r\n").map
    UInt8.ofNat) (by decide +kernel)).1
  have hturn : (Session.reader OK .MODE_RTSP).turn ((jstr
      "OPTIONS * RTSP/1.0\r\nContent-Length: x\r\n\r\n").map UInt8.ofNat) =
        .stop [] (some .numberFormat) := by decide +kernel
  rw [Reader.all_of_stop hturn] at hreturns
  cases hreturns

end Net

end MirrorCast
