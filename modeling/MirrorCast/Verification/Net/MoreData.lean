import MirrorCast.Verification.Net.Boundaries
import MirrorCast.Verification.Net.Incremental

/-! # Messages with more data behind them -/

namespace MirrorCast

open Java Scanning StringUtils ParsedMessage ANetworkSession Framing RTPUtils

namespace Net

/-! ## Decoding with more data -/

theorem decode_append {d : Decoder} (hd : Sound d) (bs : List UInt8) :
    ∃ units d', Sound d' ∧ decode d bs = units ++ pending d' ∧
      ∀ more, decode d (bs ++ more) = units ++ decode d' more := by
  induction bs generalizing d with
  | nil => exact ⟨[], d, hd, rfl, fun more => rfl⟩
  | cons b bs ih =>
      have hnext : Sound (nextByte d b.toNat).2 := by
        by_cases hb : b.toNat < 0x80
        · rw [nextByte_ascii hd hb]
          exact sound_start
        · exact (nextByte_sound hd (not_lt.mp hb) b.toNat_lt).2.1
      obtain ⟨units, d', hd', hdecode, hmore⟩ := ih hnext
      refine ⟨(nextByte d b.toNat).1 ++ units, d', hd', ?_, fun more => ?_⟩
      · rw [decode_cons, hdecode, List.append_assoc]
      · rw [List.cons_append, decode_cons, hmore, List.append_assoc]

/-- Only the last character of `s'` can be another in `s`, and it is none of ASCII then. -/
structure Extends (s' s : JString) : Prop where
  length_le : s'.length ≤ s.length
  ascii : ∀ i < s'.length, ∀ c < 0x80, s'[i]? = some c ↔ s[i]? = some c
  init : ∀ i, i + 1 < s'.length → s'[i]? = s[i]?

theorem extends_decode (bs more : List UInt8) :
    Extends (newStringFromBytes bs) (newStringFromBytes (bs ++ more)) := by
  obtain ⟨units, d, hd, hdecode, hmore⟩ := decode_append sound_start bs
  rw [newStringFromBytes, newStringFromBytes, hdecode, hmore]
  by_cases hneeded : d.utf8BytesNeeded = 0
  · rw [pending, if_neg (not_not.mpr hneeded), List.append_nil]
    refine ⟨by simp, fun i hi c _ => ?_, fun i hi => ?_⟩
    · rw [List.getElem?_append_left hi]
    · rw [List.getElem?_append_left (by omega)]
  · obtain ⟨u, hu, hhead⟩ := head?_decode hd hneeded more
    obtain ⟨rest, hrest⟩ := List.head?_eq_some_iff.mp hhead
    rw [pending, if_pos hneeded, hrest]
    refine ⟨by simp, fun i hi c hc => ?_, fun i hi => ?_⟩
    · rw [List.length_append, List.length_singleton] at hi
      rcases Nat.lt_or_ge i units.length with hlt | hge
      · rw [List.getElem?_append_left hlt, List.getElem?_append_left hlt]
      · obtain rfl : i = units.length := by omega
        rw [List.getElem?_append_right hge, List.getElem?_append_right hge, Nat.sub_self]
        refine iff_of_false (fun h => ?_) fun h => ?_
        · have hval : REPLACEMENT_CHAR = c := Option.some.inj h
          exact absurd hc (by rw [← hval]; decide)
        · have hval : u = c := Option.some.inj h
          omega
    · rw [List.length_append, List.length_singleton] at hi
      rw [List.getElem?_append_left (by omega), List.getElem?_append_left (by omega)]

namespace Extends

variable {s' s : JString}

/-- Text of ASCII is found at the same places. -/
theorem prefix_iff (h : Extends s' s) {text : JString} (htext : ∀ u ∈ text, u < 0x80)
    {offset n : ℕ} (hle : offset + n ≤ s'.length) :
    text <+: (s'.drop offset).take n ↔ text <+: (s.drop offset).take n := by
  rw [List.prefix_iff_getElem?, List.prefix_iff_getElem?]
  refine forall₂_congr fun i hi => ?_
  rw [List.getElem?_take, List.getElem?_take, List.getElem?_drop, List.getElem?_drop]
  split
  · exact h.ascii _ (by omega) _ (htext _ (List.getElem_mem hi))
  · rfl

theorem take_eq (h : Extends s' s) {n c : ℕ} (hc : c < 0x80) (hlast : s'[n]? = some c) :
    s'.take (n + 1) = s.take (n + 1) := by
  obtain ⟨hn, -⟩ := List.getElem?_eq_some_iff.mp hlast
  refine List.ext_getElem? fun i => ?_
  rw [List.getElem?_take, List.getElem?_take]
  split
  · rename_i hi
    rcases Nat.lt_or_ge i n with hlt | hge
    · exact h.init i (by omega)
    · obtain rfl : i = n := by omega
      rw [hlast, (h.ascii i hn c hc).mp hlast]
  · rfl

end Extends

section Parsing

variable [CharData] {s' s : JString} {msg' msg : ParsedMessage}

theorem parse_scanned (h : parse s' false = .ok (some msg')) :
    ∃ headers offset contentLength, scanned s' = some (headers, offset, true) ∧
      getInt headers.mDict (jstr "content-length") 0 = .ok contentLength ∧
      msg'.mLength = int32 (offset + if contentLength < 0 then 0 else contentLength) ∧
      msg'.mLength ≤ s'.length ∧ (offset : ℤ) ≤ msg'.mLength ∧
      msg'.mContent = (s'.drop offset).take (msg'.mLength.toNat - offset) := by
  obtain ⟨line, rest, headers, offset, contentLength, hline, hlines, hcontent, -, htotal, hle,
    hoffset, hbody⟩ := parse_cases h
  refine ⟨headers, offset, contentLength, ?_, hcontent, htotal, hle, hoffset, ?_⟩
  · rw [scanned, hline]
    exact hlines
  · rw [hbody, List.drop_take]

/-- The header lines end where they did. -/
theorem scanned_extends (h : Extends s' s) {headers : Headers} {offset : ℕ}
    (hscanned : scanned s' = some (headers, offset, true)) :
    scanned s = some (headers, offset, true) := by
  have hend := scanned_end s'
  rw [hscanned] at hend
  obtain ⟨before, hbefore⟩ := endOf_take hend
  have hlength := congrArg List.length hbefore
  rw [List.length_take_of_le (endOf_le hend), List.length_append] at hlength
  obtain ⟨n, rfl⟩ : ∃ n, offset = n + 1 := ⟨offset - 1, by simp at hlength; omega⟩
  have hlast : s'[n]? = some 0x0a := by
    have hget : (s'.take (n + 1))[n]? = some 0x0a := by
      rw [hbefore, List.getElem?_append_right (by simp at hlength; omega),
        show n - before.length = 3 by simp at hlength; omega]
      rfl
    rwa [List.getElem?_take_of_lt (Nat.lt_succ_self n)] at hget
  have htake := h.take_eq (by decide) hlast
  obtain ⟨⟨line, rest⟩, hline, hlines⟩ := Option.bind_eq_some_iff.mp hscanned
  have hstart := le_offset_of_parseLines hlines
  have hline' := splitLine_extend (splitLine_take hline hstart) (s.drop (n + 1))
  obtain ⟨-, hlines'⟩ := parseLines_extend hlines (le_refl _) (s.drop (n + 1))
  rw [htake, List.take_append_drop] at hline'
  rw [scanned, hline']
  exact hlines'

/-- A message that is parsed with more data behind it has the same length, and the same place
for what it asks for. -/
theorem parse_extends (h : Extends s' s) (h' : parse s' false = .ok (some msg'))
    (hmsg : parse s false = .ok (some msg)) :
    msg.mLength = msg'.mLength ∧ msg'.mLength ≤ s'.length ∧
      (AsksIdr msg'.mContent ↔ AsksIdr msg.mContent) := by
  obtain ⟨headers, offset, contentLength, hscanned, hcontent, htotal, hle, hoffset, hbody⟩ :=
    parse_scanned h'
  obtain ⟨headers₂, offset₂, contentLength₂, hscanned₂, hcontent₂, htotal₂, -, -, hbody₂⟩ :=
    parse_scanned hmsg
  rw [scanned_extends h hscanned] at hscanned₂
  cases hscanned₂
  rw [hcontent] at hcontent₂
  cases hcontent₂
  have hlength : msg.mLength = msg'.mLength := htotal₂.trans htotal.symm
  refine ⟨hlength, hle, ?_⟩
  rw [AsksIdr, AsksIdr, hbody, hbody₂, hlength]
  exact h.prefix_iff (by decide) (by omega)

omit [CharData] in
/-- The look behind the message finds the same. -/
theorem textLength_extends (h : Extends s' s) (hlength : msg.mLength = msg'.mLength)
    (hpos : 0 ≤ msg'.mLength) (hidr : AsksIdr msg'.mContent ↔ AsksIdr msg.mContent) {l l' : ℤ}
    (hl' : Session.textLength s' msg' = .ok l') (hl : Session.textLength s msg = .ok l) :
    l = l' := by
  obtain ⟨n, hn⟩ := Int.eq_ofNat_of_zero_le hpos
  by_cases hasks : AsksIdr msg'.mContent ∧ 19 ≤ msg'.mLength
  swap
  · have hasks₂ : ¬ (AsksIdr msg.mContent ∧ 19 ≤ msg.mLength) := by rwa [hlength, ← hidr]
    rw [Session.textLength, if_neg (by rwa [List.isPrefixOf_iff_prefix])] at hl' hl
    cases hl'
    cases hl
    exact hlength
  obtain ⟨hasks, hlong⟩ := hasks
  obtain ⟨hlooks', rfl⟩ := (textLength_eq_ok hn fun _ => by omega).mp hl'
  obtain ⟨hlooks, rfl⟩ := (textLength_eq_ok (hlength.trans hn) fun _ => by omega).mp hl
  obtain ⟨c, hc, hnext⟩ := hlooks' hasks
  obtain ⟨hlt, -⟩ := List.getElem?_eq_some_iff.mp hc
  have hcrlf : CrlfAt s' n ↔ CrlfAt s n := by
    unfold CrlfAt
    rw [h.ascii n hlt 13 (by decide)]
    refine and_congr_right fun hcr => ?_
    have hc13 : c = 0x0d := by
      have hcr' := (h.ascii n hlt 13 (by decide)).mpr hcr
      exact Option.some.inj (hc.symm.trans hcr')
    obtain ⟨c', hc'⟩ := Option.ne_none_iff_exists'.mp (hnext hc13)
    obtain ⟨hlt', -⟩ := List.getElem?_eq_some_iff.mp hc'
    exact h.ascii (n + 1) hlt' 10 (by decide)
  rw [correction, correction, if_congr (and_congr hidr hcrlf) rfl rfl]

end Parsing

/-! ## The three loops -/

theorem unsignedAt_append {bytes : List UInt8} {offset n : ℕ} (h : offset + n ≤ bytes.length)
    (more : List UInt8) : unsignedAt (bytes ++ more) offset n = unsignedAt bytes offset n := by
  rw [unsignedAt, unsignedAt, List.drop_append_of_le_length (by omega),
    List.take_append_of_le_length (by rw [List.length_drop]; omega)]

theorem U16_AT_append {bytes : List UInt8} {offset : ℕ} (h : offset + 2 ≤ bytes.length)
    (more : List UInt8) : U16_AT (bytes ++ more) offset = U16_AT bytes offset :=
  congrArg (fun n : ℕ => (n : ℤ).bmod (2 ^ 16)) (unsignedAt_append h more)

section

variable {bytes more : List UInt8} {o : Notification} {n : ℕ}

theorem datagramTurn_took (h : Session.datagramTurn bytes = .took o n) :
    2 ≤ bytes.length ∧ n = (U16_AT bytes 0).toNat + 2 := by
  unfold Session.datagramTurn at h
  dsimp only at h
  split at h
  · cases h
  split at h
  · cases h
  split at h
  · cases h
  · cases h
    exact ⟨by omega, rfl⟩

theorem binaryTurn_took (h : Session.binaryTurn bytes = .took o n) :
    4 ≤ bytes.length ∧ n = 4 + (U16_AT bytes 2).toNat := by
  unfold Session.binaryTurn at h
  dsimp only at h
  split at h
  · cases h
  split at h
  · cases h
  split at h
  · cases h
  · cases h
    exact ⟨by omega, rfl⟩

theorem textTurn_took [CharData] {err : ℤ} (h : Session.textTurn err bytes = .took o n) :
    err = OK ∧ ∃ msg l, parse (newStringFromBytes bytes) (err ≠ OK) = .ok (some msg) ∧
      Session.textLength (newStringFromBytes bytes) msg = .ok l ∧ n = l.toNat := by
  unfold Session.textTurn at h
  dsimp only at h
  split at h
  · cases h
  · cases h
  rename_i msg hmsg
  split at h
  · cases h
  rename_i l hl
  split at h
  · cases h
  split at h
  · cases h
  · rename_i herr
    cases h
    exact ⟨not_not.mp herr, msg, l, hmsg, hl, rfl⟩

theorem webSocketTurn_took (h : Session.webSocketTurn bytes = .took o n) :
    2 ≤ bytes.length ∧ ∃ payloadLen offset mask offset',
      Session.payloadLength bytes = some (payloadLen, offset) ∧
      Session.maskingKey bytes offset = some (mask, offset') ∧
      n = offset' + (int32 payloadLen).toNat := by
  unfold Session.webSocketTurn at h
  split at h
  · cases h
  split at h
  · cases h
  rename_i payloadLen offset hpayload
  split at h
  · cases h
  rename_i mask offset' hmask
  split at h
  · cases h
  split at h
  · cases h
  dsimp only at h
  split at h
  · cases h
  · cases h
    exact ⟨by omega, payloadLen, offset, mask, offset', hpayload, hmask, rfl⟩

theorem getD_append (h : 2 ≤ bytes.length) : (bytes ++ more).getD 1 0 = bytes.getD 1 0 := by
  rw [List.getD_eq_getElem?_getD, List.getD_eq_getElem?_getD, List.getElem?_append_left (by omega)]

theorem payloadLength_append {payloadLen : ℤ} {offset : ℕ} (hlength : 2 ≤ bytes.length)
    (h : Session.payloadLength bytes = some (payloadLen, offset)) :
    Session.payloadLength (bytes ++ more) = some (payloadLen, offset) := by
  unfold Session.payloadLength at h ⊢
  rw [getD_append hlength]
  dsimp only at h ⊢
  split at h
  · rename_i hmedium
    rw [if_pos hmedium]
    split at h
    · cases h
    · rw [if_neg (by rw [List.length_append]; omega), U16_AT_append (by omega)]
      exact h
  rename_i hmedium
  rw [if_neg hmedium]
  split at h
  · rename_i hlong
    rw [if_pos hlong]
    split at h
    · cases h
    · rw [if_neg (by rw [List.length_append]; omega), U64_AT, unsignedAt_append (by omega)]
      exact h
  · rename_i hlong
    rw [if_neg hlong]
    exact h

theorem maskingKey_append {mask : ℤ} {offset offset' : ℕ} (hlength : 2 ≤ bytes.length)
    (h : Session.maskingKey bytes offset = some (mask, offset')) :
    Session.maskingKey (bytes ++ more) offset = some (mask, offset') := by
  unfold Session.maskingKey at h ⊢
  rw [getD_append hlength]
  split at h
  · rename_i hmask
    rw [if_pos hmask]
    split at h
    · cases h
    · rw [if_neg (by rw [List.length_append]; omega), U32_AT, unsignedAt_append (by omega)]
      exact h
  · rename_i hmask
    rw [if_neg hmask]
    exact h

end

theorem steady_datagram : Session.datagramReader.Steady where
  quiet {data posted} h := by
    change Session.datagramTurn data = _ at h
    unfold Session.datagramTurn at h
    dsimp only at h
    split_ifs at h <;> cases h <;> rfl
  size {data rest o o' n n'} h hle h' := by
    obtain ⟨hlength, hn'⟩ := datagramTurn_took h'
    obtain ⟨-, hn⟩ := datagramTurn_took h
    rw [hn', hn, U16_AT_append (by omega)]

theorem quiet_rtsp [CharData] {data : List UInt8} {posted : List Notification}
    (h : Session.rtspTurn OK data = .stop posted none) : posted = [] := by
  unfold Session.rtspTurn at h
  split at h
  · unfold Session.binaryTurn at h
    dsimp only at h
    split_ifs at h <;> cases h <;> rfl
  · unfold Session.textTurn at h
    dsimp only at h
    split at h
    · cases h
    · cases h
      rfl
    split at h
    · cases h
    split at h
    · cases h
    rw [if_neg (by simp)] at h
    cases h

theorem steady_rtsp [CharData] : (Session.rtspReader OK).Steady where
  quiet h := quiet_rtsp h
  size {data rest o o' n n'} h hle h' := by
    have hpos := (Session.rtspReader OK).bounds h
    have hhead : (data ++ rest).head? = data.head? :=
      List.head?_append_of_ne_nil _ (List.ne_nil_of_length_pos (by omega))
    change Session.rtspTurn OK (data ++ rest) = _ at h
    change Session.rtspTurn OK data = _ at h'
    unfold Session.rtspTurn at h h'
    rw [hhead] at h
    split at h'
    · rename_i hdollar
      rw [if_pos hdollar] at h
      obtain ⟨hlength, hn'⟩ := binaryTurn_took h'
      obtain ⟨-, hn⟩ := binaryTurn_took h
      rw [hn', hn, U16_AT_append (by omega)]
    · rename_i hdollar
      rw [if_neg hdollar] at h
      obtain ⟨-, msg', l', hmsg', hl', rfl⟩ := textTurn_took h'
      obtain ⟨-, msg, l, hmsg, hl, rfl⟩ := textTurn_took h
      have hextends := extends_decode data rest
      have hpos' := mLength_pos_of_parse hmsg'
      obtain ⟨hlength, -, hidr⟩ := parse_extends hextends hmsg' hmsg
      rw [textLength_extends hextends hlength (by omega) hidr hl' hl]

theorem steady_webSocket : Session.webSocketReader.Steady where
  quiet {data posted} h := by
    change Session.webSocketTurn data = _ at h
    unfold Session.webSocketTurn at h
    split at h
    · cases h
      rfl
    split at h
    · cases h
      rfl
    split at h
    · cases h
      rfl
    split at h
    · cases h
      rfl
    split at h
    · cases h
    dsimp only at h
    split at h
    · cases h
    · cases h
  size {data rest o o' n n'} h hle h' := by
    obtain ⟨hlength, payloadLen', offset', mask', offset₂', hpayload', hmask', rfl⟩ :=
      webSocketTurn_took h'
    obtain ⟨-, payloadLen, offset, mask, offset₂, hpayload, hmask, rfl⟩ := webSocketTurn_took h
    rw [payloadLength_append hlength hpayload'] at hpayload
    cases hpayload
    rw [maskingKey_append hlength hmask'] at hmask
    cases hmask
    rfl

/-- The loop posts nothing when it is left at an incomplete message, and a complete one has the
same size whether or not more data follow. -/
theorem steady [CharData] : ∀ mode : Session.Mode, (Session.reader OK mode).Steady
  | .MODE_DATAGRAM => steady_datagram
  | .MODE_RTSP => steady_rtsp
  | .MODE_WEBSOCKET => steady_webSocket

end Net

end MirrorCast
