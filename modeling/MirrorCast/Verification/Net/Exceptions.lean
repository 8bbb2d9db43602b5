import MirrorCast.Verification.Net.Boundaries
import MirrorCast.Verification.Net.MoreData

/-! # When the loops of `readMore` throw -/

namespace MirrorCast

open Java Scanning StringUtils ParsedMessage ANetworkSession Framing RTPUtils

namespace Net

section

variable [CharData]

/-! ## Harmless bytes -/

/-- Behind the header lines the parser can read `Content-Length`, the sum fits an `int`, and there
is something to look at behind a request of the old dongle. -/
def HarmlessText (bytes : List UInt8) (headers : Headers) : Prop :=
  ∃ n, getInt headers.mDict (jstr "content-length") 0 = .ok n ∧
    blockUnits bytes + n.toNat < 2 ^ 31 ∧
    let units := newStringFromBytes bytes
    blockUnits bytes + n.toNat ≤ units.length →
      LooksAhead units ((units.drop (blockUnits bytes)).take n.toNat) (blockUnits bytes + n.toNat)

/-- The length in the header of a frame, and the size of the header, if it is there. -/
def frameHeader (bytes : List UInt8) : Option (ℤ × ℕ) :=
  if bytes.length < 2 then none
  else do
    let (payloadLen, offset) ← Session.payloadLength bytes
    let (_, offset) ← Session.maskingKey bytes offset
    return (payloadLen, offset)

/-- A length that is negative as a `long` does no harm where the sums overflow. -/
def HarmlessLength (bytes : List UInt8) (payloadLen : ℤ) (offset : ℕ) : Prop :=
  0 ≤ payloadLen ∨ 2 ^ 63 ≤ bytes.length - payloadLen ∨
    0 ≤ int32 payloadLen ∧ offset + int32 payloadLen ≤ bytes.length

/-- What a loop finds at the position of a message is nothing that it throws on. -/
def Harmless (mode : Session.Mode) (bytes : List UInt8) : Prop :=
  match mode with
  | .MODE_DATAGRAM => bytes.length < 2 ∨ unsignedAt bytes 0 2 < 2 ^ 15
  | .MODE_RTSP =>
      if bytes.head? = some 0x24 then bytes.length < 4 ∨ unsignedAt bytes 2 2 < 2 ^ 15
      else ∀ headers offset,
        scanned (newStringFromBytes bytes) = some (headers, offset, true) →
          HarmlessText bytes headers
  | .MODE_WEBSOCKET => ∀ payloadLen offset,
      frameHeader bytes = some (payloadLen, offset) → HarmlessLength bytes payloadLen offset

/-- How far a loop goes on from the position of a message, if the message is there. -/
def advance (mode : Session.Mode) (bytes : List UInt8) : Option ℕ :=
  match mode with
  | .MODE_DATAGRAM =>
      if 2 ≤ bytes.length ∧ 2 + unsignedAt bytes 0 2 ≤ bytes.length then
        some (2 + unsignedAt bytes 0 2)
      else none
  | .MODE_RTSP =>
      if bytes.head? = some 0x24 then
        if 4 ≤ bytes.length ∧ 4 + unsignedAt bytes 2 2 ≤ bytes.length then
          some (4 + unsignedAt bytes 2 2)
        else none
      else
        let units := newStringFromBytes bytes
        match scanned units with
        | some (headers, _, true) =>
            let length := blockUnits bytes + bodyLength headers.mDict
            let content := (units.drop (blockUnits bytes)).take (bodyLength headers.mDict)
            if length ≤ units.length then some (length + correction content units length) else none
        | _ => none
  | .MODE_WEBSOCKET =>
      match frameHeader bytes with
      | some (payloadLen, offset) =>
          if 0 ≤ int32 payloadLen ∧ offset + int32 payloadLen ≤ bytes.length ∧
              payloadLen ≤ bytes.length ∧ bytes.length - payloadLen < 2 ^ 63 then
            some (offset + (int32 payloadLen).toNat)
          else none
      | none => none

/-- The loop comes to harmless bytes only. -/
def AllHarmless (mode : Session.Mode) (data : List UInt8) : Prop :=
  ∀ k, Reader.Boundary (advance mode) data k → Harmless mode (data.drop k)

/-! ## The turns -/

/-- A turn that throws unless the bytes are harmless, and goes on if the message is there. -/
structure Agrees (turn : Turn Notification JavaException) (harmless : Prop)
    (size : Option ℕ) : Prop where
  returns_iff : (∀ posted e, turn ≠ .stop posted (some e)) ↔ harmless
  size_iff : harmless → ∀ n, size = some n ↔ ∃ o, turn = .took o n

omit [CharData]

theorem agrees_stop {harmless : Prop} {size : Option ℕ} (h : harmless) (hsize : size = none) :
    Agrees (.stop [] none) harmless size where
  returns_iff := iff_of_true (fun _ _ h => by cases h) h
  size_iff _ n := by
    rw [hsize]
    exact iff_of_false (fun h => by cases h) (by rintro ⟨_, ⟨⟩⟩)

theorem agrees_throw {harmless : Prop} {size : Option ℕ} {posted : List Notification}
    {e : JavaException} (h : ¬ harmless) : Agrees (.stop posted (some e)) harmless size where
  returns_iff := iff_of_false (fun hreturns => hreturns _ _ rfl) h
  size_iff hharmless := absurd hharmless h

theorem agrees_took {harmless : Prop} {size : Option ℕ} {o : Notification} {n : ℕ}
    (h : harmless) (hsize : size = some n) : Agrees (.took o n) harmless size where
  returns_iff := iff_of_true (fun _ _ h => by cases h) h
  size_iff _ m := by
    rw [hsize, Option.some.injEq]
    constructor
    · rintro rfl
      exact ⟨o, rfl⟩
    · rintro ⟨_, ⟨⟩⟩
      rfl

variable {bytes : List UInt8}

theorem agrees_datagram : Agrees (Session.datagramTurn bytes)
    (bytes.length < 2 ∨ unsignedAt bytes 0 2 < 2 ^ 15)
    (if 2 ≤ bytes.length ∧ 2 + unsignedAt bytes 0 2 ≤ bytes.length then
      some (2 + unsignedAt bytes 0 2) else none) := by
  unfold Session.datagramTurn
  by_cases hshort : bytes.length < 2
  · rw [if_pos hshort]
    exact agrees_stop (.inl hshort) (if_neg (by omega))
  rw [if_neg hshort]
  dsimp only
  rcases U16_AT_cases bytes 0 with ⟨hsmall, heq⟩ | ⟨hlarge, heq⟩
  · by_cases hthere : (bytes.length : ℤ) < U16_AT bytes 0 + 2
    · rw [if_pos hthere]
      exact agrees_stop (.inr hsmall) (if_neg (by omega))
    · rw [if_neg hthere, if_neg (by omega), heq, Int.toNat_natCast, Nat.add_comm]
      exact agrees_took (.inr hsmall) (if_pos (by omega))
  · have hlt := unsignedAt_lt bytes 0 2
    rw [if_neg (by omega), if_pos (by omega)]
    exact agrees_throw (by omega)

theorem agrees_binary : Agrees (Session.binaryTurn bytes)
    (bytes.length < 4 ∨ unsignedAt bytes 2 2 < 2 ^ 15)
    (if 4 ≤ bytes.length ∧ 4 + unsignedAt bytes 2 2 ≤ bytes.length then
      some (4 + unsignedAt bytes 2 2) else none) := by
  unfold Session.binaryTurn
  by_cases hshort : bytes.length < 4
  · rw [if_pos hshort]
    exact agrees_stop (.inl hshort) (if_neg (by omega))
  rw [if_neg hshort]
  dsimp only
  rcases U16_AT_cases bytes 2 with ⟨hsmall, heq⟩ | ⟨hlarge, heq⟩
  · by_cases hthere : (bytes.length : ℤ) < 4 + U16_AT bytes 2
    · rw [if_pos hthere]
      exact agrees_stop (.inr hsmall) (if_neg (by omega))
    · rw [if_neg hthere, if_neg (by omega), heq, Int.toNat_natCast]
      exact agrees_took (.inr hsmall) (if_pos (by omega))
  · have hlt := unsignedAt_lt bytes 2 2
    rw [if_neg (by omega), if_pos (by omega)]
    exact agrees_throw (by omega)

theorem payloadLength_bounds {payloadLen : ℤ} {offset : ℕ}
    (h : Session.payloadLength bytes = some (payloadLen, offset)) :
    -2 ^ 63 ≤ payloadLen ∧ payloadLen < 2 ^ 63 := by
  unfold Session.payloadLength at h
  dsimp only at h
  split at h
  · split at h
    · cases h
    · obtain ⟨rfl, -⟩ := Prod.mk.inj (Option.some.inj h)
      have hlt := unsignedAt_lt bytes 2 2
      rcases U16_AT_cases bytes 2 with ⟨-, heq⟩ | ⟨-, heq⟩
      · omega
      · omega
  split at h
  · split at h
    · cases h
    · obtain ⟨rfl, -⟩ := Prod.mk.inj (Option.some.inj h)
      exact int64_bounds _
  · obtain ⟨rfl, -⟩ := Prod.mk.inj (Option.some.inj h)
    have hlt := (bytes.getD 1 0 &&& 0x7f).toNat_lt
    omega

/-- The header of a frame is there. -/
theorem maskingKey_le {offset offset' : ℕ} {payloadLen mask : ℤ}
    (hlength : 2 ≤ bytes.length) (hpayload : Session.payloadLength bytes = some (payloadLen, offset))
    (hmask : Session.maskingKey bytes offset = some (mask, offset')) :
    offset' ≤ bytes.length := by
  have hoffset : offset ≤ bytes.length := by
    unfold Session.payloadLength at hpayload
    dsimp only at hpayload
    split_ifs at hpayload
    all_goals
      obtain ⟨-, rfl⟩ := Prod.mk.inj (Option.some.inj hpayload)
      omega
  unfold Session.maskingKey at hmask
  split_ifs at hmask
  all_goals
    obtain ⟨-, rfl⟩ := Prod.mk.inj (Option.some.inj hmask)
    omega

/-- What a turn does with a frame whose header is there. -/
theorem agrees_frame {payloadLen : ℤ} {offset : ℕ} (hsize : bytes.length < 2 ^ 31 - 1)
    (hlo : -2 ^ 63 ≤ payloadLen) (hhi : payloadLen < 2 ^ 63) (hoffset : offset ≤ bytes.length)
    (o : Notification) :
    Agrees
      (if bytes.length < payloadLen ∨ int64 (bytes.length - payloadLen) < offset then .stop [] none
        else if 2 ^ 31 - 1 ≤ payloadLen then .stop [] (some .runtime)
        else if int32 payloadLen < 0 ∨ (bytes.length : ℤ) < offset + int32 payloadLen then
          .stop [] (some .illegalArgument)
        else .took o (offset + (int32 payloadLen).toNat))
      (HarmlessLength bytes payloadLen offset)
      (if 0 ≤ int32 payloadLen ∧ offset + int32 payloadLen ≤ bytes.length ∧
          payloadLen ≤ bytes.length ∧ bytes.length - payloadLen < 2 ^ 63 then
        some (offset + (int32 payloadLen).toNat)
      else none) := by
  unfold HarmlessLength
  by_cases hwraps : 2 ^ 63 ≤ bytes.length - payloadLen
  · have hint : int64 (bytes.length - payloadLen) = bytes.length - payloadLen - 2 ^ 64 :=
      int64_wraps hwraps (by omega)
    rw [if_pos (by omega)]
    exact agrees_stop (.inr (.inl hwraps)) (if_neg (by omega))
  by_cases hlarge : bytes.length < payloadLen
  · rw [if_pos (.inl hlarge)]
    exact agrees_stop (.inl (by omega)) (if_neg (by omega))
  have hint : int64 (bytes.length - payloadLen) = bytes.length - payloadLen :=
    int64_eq (by omega) (by omega)
  by_cases hthere : 0 ≤ payloadLen
  · have hint32 : int32 payloadLen = payloadLen := int32_eq (by omega) (by omega)
    rw [hint, hint32]
    by_cases hincomplete : bytes.length - payloadLen < offset
    · rw [if_pos (.inr hincomplete)]
      exact agrees_stop (.inl hthere) (if_neg (by omega))
    · rw [if_neg (by omega), if_neg (by omega), if_neg (by omega)]
      exact agrees_took (.inl hthere) (if_pos (by omega))
  rw [hint, if_neg (by omega), if_neg (by omega)]
  by_cases hlow : int32 payloadLen < 0 ∨ (bytes.length : ℤ) < offset + int32 payloadLen
  · rw [if_pos hlow]
    exact agrees_throw (by omega)
  · rw [if_neg hlow]
    exact agrees_took (.inr (.inr (by omega))) (if_pos (by omega))

theorem agrees_webSocket (hsize : bytes.length < 2 ^ 31 - 1) :
    Agrees (Session.webSocketTurn bytes)
      (∀ payloadLen offset, frameHeader bytes = some (payloadLen, offset) →
        HarmlessLength bytes payloadLen offset)
      (match frameHeader bytes with
      | some (payloadLen, offset) =>
          if 0 ≤ int32 payloadLen ∧ offset + int32 payloadLen ≤ bytes.length ∧
              payloadLen ≤ bytes.length ∧ bytes.length - payloadLen < 2 ^ 63 then
            some (offset + (int32 payloadLen).toNat)
          else none
      | none => none) := by
  have hnone : frameHeader bytes = none → ∀ payloadLen offset,
      frameHeader bytes = some (payloadLen, offset) →
        HarmlessLength bytes payloadLen offset := by
    intro h _ _ h'
    cases h.symm.trans h'
  unfold Session.webSocketTurn
  by_cases hshort : bytes.length < 2
  · have hheader : frameHeader bytes = none := if_pos hshort
    rw [if_pos hshort]
    exact agrees_stop (hnone hheader) (by rw [hheader])
  rw [if_neg hshort]
  cases hpayload : Session.payloadLength bytes with
  | none =>
      have hheader : frameHeader bytes = none := by
        rw [frameHeader, if_neg hshort, hpayload]
        rfl
      exact agrees_stop (hnone hheader) (by rw [hheader])
  | some payload =>
      obtain ⟨payloadLen, offset⟩ := payload
      dsimp only
      cases hmask : Session.maskingKey bytes offset with
      | none =>
          have hheader : frameHeader bytes = none := by
            rw [frameHeader, if_neg hshort, hpayload]
            change (Session.maskingKey bytes offset).bind _ = none
            rw [hmask]
            rfl
          exact agrees_stop (hnone hheader) (by rw [hheader])
      | some masking =>
          obtain ⟨mask, offset'⟩ := masking
          have hheader : frameHeader bytes = some (payloadLen, offset') := by
            rw [frameHeader, if_neg hshort, hpayload]
            change (Session.maskingKey bytes offset).bind _ = _
            rw [hmask]
            rfl
          obtain ⟨hlo, hhi⟩ := payloadLength_bounds hpayload
          have hle := maskingKey_le (by omega) hpayload hmask
          have hframe := agrees_frame hsize hlo hhi hle
          have hiff : (∀ payloadLen offset, frameHeader bytes = some (payloadLen, offset) →
              HarmlessLength bytes payloadLen offset) = HarmlessLength bytes payloadLen offset' := by
            refine propext ⟨fun h => h _ _ hheader, fun h payloadLen' offset'' h' => ?_⟩
            obtain ⟨rfl, rfl⟩ := Prod.mk.inj (Option.some.inj (hheader.symm.trans h'))
            exact h
          rw [hiff, hheader]
          exact hframe _

end

section

variable [CharData] {bytes : List UInt8}

/-- A turn that comes to the end of a header block. -/
theorem agrees_scanned (hsize : bytes.length < 2 ^ 31) {headers : Headers} {offset : ℕ}
    (h : scanned (newStringFromBytes bytes) = some (headers, offset, true)) :
    Agrees (Session.textTurn OK bytes) (HarmlessText bytes headers)
      (let units := newStringFromBytes bytes
       let length := blockUnits bytes + bodyLength headers.mDict
       let content := (units.drop (blockUnits bytes)).take (bodyLength headers.mDict)
       if length ≤ units.length then some (length + correction content units length)
       else none) := by
  have hoffset := offset_eq_blockUnits h
  have htwo := two_le_offset h
  subst hoffset
  have hunits : blockUnits bytes < 2 ^ 31 :=
    ((blockUnits_le bytes).trans (blockBytes_le bytes)).trans_lt hsize
  have hthrows : ∀ e, parse (newStringFromBytes bytes) (OK ≠ OK) = .error e →
      Session.textTurn OK bytes = .stop [] (some e) := by
    intro e herror
    unfold Session.textTurn
    dsimp only
    rw [herror]
  dsimp only
  cases hlength : getInt headers.mDict (jstr "content-length") 0 with
  | error e =>
      rw [hthrows e (parse_of_getInt_error h (.inl rfl) hlength)]
      refine agrees_throw ?_
      rintro ⟨n, hn, -⟩
      cases hlength.symm.trans hn
  | ok n =>
      have hharmless : HarmlessText bytes headers ↔ blockUnits bytes + n.toNat < 2 ^ 31 ∧
          (blockUnits bytes + n.toNat ≤ (newStringFromBytes bytes).length →
            LooksAhead (newStringFromBytes bytes)
              (((newStringFromBytes bytes).drop (blockUnits bytes)).take n.toNat)
              (blockUnits bytes + n.toNat)) := by
        unfold HarmlessText
        rw [hlength]
        simp only [Except.ok.injEq, exists_eq_left']
      rw [propext hharmless, bodyLength_of_ok hlength]
      by_cases hfits : blockUnits bytes + n.toNat < 2 ^ 31
      swap
      · obtain ⟨e, herror⟩ :=
          parse_of_overflow h (.inl rfl) hlength hunits (getInt_lt hlength) (not_lt.mp hfits)
        rw [hthrows e herror]
        exact agrees_throw fun h => hfits h.1
      have hparse := parse_of_fits h (.inl rfl : true = true ∨ decide (OK ≠ OK) = true) hlength hfits
      unfold Session.textTurn
      dsimp only
      rw [hparse]
      by_cases hshort : (newStringFromBytes bytes).length < blockUnits bytes + n.toNat
      · rw [if_pos hshort]
        exact agrees_stop ⟨hfits, fun hle => absurd hle (not_le.mpr hshort)⟩
          (if_neg (not_le.mpr hshort))
      rw [if_neg hshort]
      dsimp only
      have hlong := @long_of_asksIdr (newStringFromBytes bytes) n.toNat (blockUnits bytes) htwo
      cases htext : Session.textLength (newStringFromBytes bytes) ⟨headers.mDict, _, _⟩ with
      | error e =>
          refine agrees_throw fun hlooks => ?_
          have hok := (@textLength_eq_ok _ ⟨headers.mDict, _, _⟩ _ rfl hlong _).mpr
            ⟨hlooks.2 (not_lt.mp hshort), rfl⟩
          cases htext.symm.trans hok
      | ok m =>
          obtain ⟨hlooks, rfl⟩ := (textLength_eq_ok rfl hlong).mp htext
          have hbound := (@correction_le _ (((newStringFromBytes bytes).drop
            (blockUnits bytes)).take n.toNat) _ (not_lt.mp hshort)).trans
              (length_newStringFromBytes_le bytes)
          dsimp only at hbound ⊢
          rw [if_neg (by omega), if_neg (not_not.mpr rfl), Int.toNat_natCast]
          exact agrees_took ⟨hfits, fun _ => hlooks⟩ (if_pos (not_lt.mp hshort))

theorem agrees_text (hsize : bytes.length < 2 ^ 31) :
    Agrees (Session.textTurn OK bytes)
      (∀ headers offset, scanned (newStringFromBytes bytes) = some (headers, offset, true) →
        HarmlessText bytes headers)
      (let units := newStringFromBytes bytes
       match scanned units with
        | some (headers, _, true) =>
            let length := blockUnits bytes + bodyLength headers.mDict
            let content := (units.drop (blockUnits bytes)).take (bodyLength headers.mDict)
            if length ≤ units.length then some (length + correction content units length) else none
        | _ => none) := by
  dsimp only
  split
  · rename_i headers offset h
    have hiff : (∀ headers' offset', scanned (newStringFromBytes bytes) =
        some (headers', offset', true) → HarmlessText bytes headers') =
          HarmlessText bytes headers := by
      refine propext ⟨fun hall => hall _ _ h, fun hharmless headers' offset' h' => ?_⟩
      cases h.symm.trans h'
      exact hharmless
    rw [hiff]
    exact agrees_scanned hsize h
  · rename_i hother
    rw [textTurn_of_unscanned]
    · exact agrees_stop (fun headers offset h => absurd h (hother headers offset)) rfl
    · rintro headers offset complete h (rfl | hne)
      · exact hother headers offset h
      · exact hne rfl

/-- In every mode a turn of the loop throws unless the bytes are harmless. -/
theorem agrees_turn (mode : Session.Mode) (hsize : bytes.length < 2 ^ 31 - 1) :
    Agrees ((Session.reader OK mode).turn bytes) (Harmless mode bytes) (advance mode bytes) := by
  cases mode with
  | MODE_DATAGRAM => exact agrees_datagram
  | MODE_RTSP =>
      change Agrees (Session.rtspTurn OK bytes) _ _
      unfold Session.rtspTurn Harmless advance
      dsimp only
      split
      · exact agrees_binary
      · exact agrees_text (by omega)
  | MODE_WEBSOCKET => exact agrees_webSocket hsize

/-- The loop over the bytes in the buffer throws nothing exactly if everything it finds at the
positions of messages is harmless. -/
theorem reader_returns_iff (mode : Session.Mode) {data : List UInt8}
    (hsize : data.length < 2 ^ 31 - 1) :
    ((Session.reader OK mode).all data).2 = none ↔ AllHarmless mode data := by
  have hdrop : ∀ k, (data.drop k).length < 2 ^ 31 - 1 := fun k => by
    rw [List.length_drop]
    omega
  refine Reader.returns_iff.trans (Iff.trans ?_ (Reader.visits_iff_boundary fun k n hharmless =>
    (agrees_turn mode (hdrop k)).size_iff hharmless n))
  exact forall₂_congr fun k _ => (agrees_turn mode (hdrop k)).returns_iff

/-! ## `readMore` -/

/-- Between two reads nothing is kept in the buffer, and there is room for a read. -/
structure Drained (h : BytesHolder) : Prop where
  position : h.position = 0
  capacity : 512 ≤ h.array.length

omit [CharData] in
theorem drained_new {mState : Session.State} {mMode : Session.Mode} :
    Drained (Session.new mState mMode).mInBuffer :=
  ⟨rfl, by
    rw [Session.new, BytesHolder.new, List.length_replicate]
    decide⟩

omit [CharData] in
theorem fill_drained {h : BytesHolder} (hdrained : Drained h) (read : Option (List UInt8)) :
    ∃ h' err, Session.fill h read = .ok (h', err) ∧ Drained h' ∧
      h'.array.take h'.limit = (read.getD []).take 512 ∧
      (err = OK ∨ h'.array.take h'.limit = []) := by
  have hcap := hdrained.capacity
  have hresize : h.resizeTo (0 + 512) 0 0 = .ok h := by
    rw [BytesHolder.resizeTo, if_neg (by omega), if_pos (by omega)]
  rw [Session.fill, hdrained.position, hresize, ok_bind, hdrained.position, if_neg (by omega)]
  cases read with
  | none => exact ⟨_, _, rfl, ⟨rfl, hcap⟩, rfl, .inr rfl⟩
  | some bytes =>
      have hlength : (bytes.take 512).length ≤ 512 := List.length_take_le ..
      have hdata : (blit h.array 0 (bytes.take 512)).take (0 + (bytes.take 512).length) =
          bytes.take 512 := by
        rw [blit, List.take_zero, List.nil_append, Nat.zero_add, List.take_left]
      refine ⟨_, _, rfl, ⟨rfl, ?_⟩, hdata, ?_⟩
      · dsimp only
        rw [length_blit (by omega)]
        exact hcap
      · dsimp only
        rw [hdata]
        split
        · rename_i hnil
          exact .inr hnil
        · exact .inl rfl

theorem all_nil (err : ℤ) (mode : Session.Mode) :
    (Session.reader err mode).all [] = ([], none) := by
  refine Reader.all_of_stop ?_
  cases mode with
  | MODE_RTSP => rfl
  | MODE_DATAGRAM => rfl
  | MODE_WEBSOCKET => rfl

theorem allHarmless_nil (mode : Session.Mode) : AllHarmless mode [] :=
  (reader_returns_iff mode (by decide)).mp (by rw [all_nil])

/-- `readMore` returns exactly if the bytes it reads are harmless. -/
theorem readMore_returns_iff {s : Session} (hdrained : Drained s.mInBuffer)
    (read : Option (List UInt8)) :
    Drained (s.readMore read).1.mInBuffer ∧
      ((∃ err, (s.readMore read).2.2 = .ok err) ↔
        AllHarmless s.mMode ((read.getD []).take 512)) := by
  obtain ⟨h', err, hfill, hdrained', hdata, herr⟩ := fill_drained hdrained read
  have hsize : ((read.getD []).take 512).length < 2 ^ 31 - 1 :=
    (List.length_take_le ..).trans_lt (by decide)
  have hall : ((Session.reader err s.mMode).all (h'.array.take h'.limit)).2 = none ↔
      AllHarmless s.mMode ((read.getD []).take 512) := by
    rw [← reader_returns_iff s.mMode hsize, ← hdata]
    rcases herr with rfl | hnil
    · rfl
    · rw [hnil, all_nil, all_nil]
  rw [Session.readMore, hfill, ← hall]
  dsimp only
  generalize (Session.reader err s.mMode).all (h'.array.take h'.limit) = all
  obtain ⟨posted, thrown⟩ := all
  cases thrown with
  | some e => exact ⟨hdrained', iff_of_false (by rintro ⟨_, ⟨⟩⟩) (fun h => by cases h)⟩
  | none =>
      dsimp only
      split
      · exact ⟨hdrained', iff_of_true ⟨_, rfl⟩ rfl⟩
      · exact ⟨hdrained', iff_of_true ⟨_, rfl⟩ rfl⟩

end

end Net

end MirrorCast
