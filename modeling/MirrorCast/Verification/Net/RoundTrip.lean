import MirrorCast.Program.WifiDisplaySource
import MirrorCast.Verification.Net.Sending

/-! # Framing against unframing -/

namespace MirrorCast

open Java Framing RTPUtils ANetworkSession

namespace Net

/-- A reading loop takes exactly one message off the bytes, and all of them. -/
structure Unframes (r : Reader UInt8 Notification JavaException) (bytes : List UInt8)
    (o : Notification) : Prop where
  turn : r.turn bytes = .took o bytes.length
  all : r.all bytes = ([o], none)

theorem unframes_iff {r : Reader UInt8 Notification JavaException} (hnil : r.turn [] = .stop [] none)
    {bytes : List UInt8} {o : Notification} :
    Unframes r bytes o ↔ r.turn bytes = .took o bytes.length := by
  constructor
  · exact Unframes.turn
  · intro h
    refine ⟨h, ?_⟩
    rw [Reader.all_of_took h, List.drop_length, Reader.all_of_stop hnil]

/-! ## What a session queues -/

/-- The only request of a session is queued as it goes over the wire. -/
theorem queued_sendRequest {mode : Session.Mode} {data : Data} {size err : ℤ}
    {timeUs : Option ℤ} {s' : Session} (hne : requested data size ≠ [])
    (h : (Session.new .CONNECTED mode).sendRequest data size timeUs = .ok (s', err)) :
    (queued s').flatten = wire mode (requested data size) := by
  rcases sendRequest_cases h with ⟨hnil, -⟩ | ⟨-, buffer, k, hbuffer, hk, rfl⟩
  · exact absurd hnil hne
  · have hwire := framed_connected rfl hbuffer
    rw [hk] at hwire
    simp [queued, Session.new, data_ofBytes, hwire]

theorem length_requested_datagram {data : Data} {size err : ℤ} {timeUs : Option ℤ} {s' : Session}
    (hne : requested data size ≠ [])
    (h : (Session.new .CONNECTED .MODE_DATAGRAM).sendRequest data size timeUs = .ok (s', err)) :
    (requested data size).length < 65536 := by
  rcases sendRequest_cases h with ⟨hnil, -⟩ | ⟨-, buffer, k, hbuffer, hk, -⟩
  · exact absurd hnil hne
  · unfold Session.framed at hbuffer
    rw [if_pos ⟨rfl, rfl⟩] at hbuffer
    split at hbuffer
    · cases hbuffer
    · rw [← hk, List.length_take]
      omega

theorem length_requested_webSocket {data : Data} {size err : ℤ} {timeUs : Option ℤ} {s' : Session}
    (hne : requested data size ≠ [])
    (h : (Session.new .CONNECTED .MODE_WEBSOCKET).sendRequest data size timeUs = .ok (s', err)) :
    (requested data size).length < 2 ^ 31 - 1 := by
  have hlt := data.length_lt
  rcases sendRequest_cases h with ⟨hnil, -⟩ | ⟨-, buffer, k, hbuffer, hk, -⟩
  · exact absurd hnil hne
  · unfold Session.framed at hbuffer
    rw [if_neg (by simp [Session.new]), if_pos ⟨rfl, rfl⟩] at hbuffer
    split at hbuffer
    · cases hbuffer
    rename_i hfits
    obtain ⟨payload, hpayload, -⟩ := bind_eq_ok.mp hbuffer
    obtain ⟨hpayload, hlength⟩ := length_of_next hpayload
    have hheader : 2 ≤ (Session.webSocketHeader k).length ∧
        (Session.webSocketHeader k).length ≤ 10 := by
      unfold Session.webSocketHeader
      split_ifs <;> simp only [List.length_cons, List.length_nil] <;> omega
    have hk' : k < 2 ^ 31 := by
      rw [← hlength, hpayload, List.length_take, List.length_drop]
      omega
    rw [← hk, ← hpayload, hlength]
    by_contra hlarge
    apply hfits
    rw [int32_wraps (by omega) (by omega)]
    omega

/-! ## Datagrams -/

theorem sendRequest_datagram (data : Data) (size : ℕ) (hpos : 0 < size) (hmax : size ≤ 65535)
    (hle : data.position + size ≤ data.array.length) :
    ∃ s', (Session.new .CONNECTED .MODE_DATAGRAM).sendRequest data size none = .ok (s', OK) := by
  have hnext : data.next size = .ok ((data.array.drop data.position).take size) := by
    rw [Data.next, if_neg (by omega)]
  have hframed : (Session.new .CONNECTED .MODE_DATAGRAM).framed data size =
      .ok ([toByte (size / 2 ^ 8 : ℕ), toByte size] ++
        (data.array.drop data.position).take size) := by
    rw [Session.framed, if_pos ⟨rfl, rfl⟩, if_neg (by omega), hnext, ok_bind]
    rfl
  have hneg : ¬ (size : ℤ) < 0 := by omega
  rw [Session.sendRequest, if_neg (by simp [Session.new])]
  simp only [if_neg hneg, Int.toNat_natCast]
  rw [if_neg (by omega), hframed, ok_bind]
  exact ⟨_, rfl⟩

theorem unframes_datagram_iff {payload : List UInt8} (h : payload.length < 65536) :
    Unframes Session.datagramReader (datagramBytes payload) (.datagram payload) ↔
      payload.length < 32768 := by
  have hturn := datagramTurn_append h []
  rw [List.append_nil] at hturn
  rw [unframes_iff rfl, show Session.datagramReader.turn = Session.datagramTurn from rfl, hturn]
  split
  · rename_i hlt
    exact iff_of_true rfl hlt
  · rename_i hlt
    exact iff_of_false (by simp) hlt

/-- A datagram of a length that is read as a negative one. -/
theorem exists_not_unframes_datagram {n : ℕ} (hlo : 32768 ≤ n) (hhi : n ≤ 65535) :
    ∃ (data : Data) (s' : Session),
      (Session.new .CONNECTED .MODE_DATAGRAM).sendRequest data n none = .ok (s', OK) ∧
      requested data n ≠ [] ∧
      ¬ Unframes Session.datagramReader (queued s').flatten (.datagram (requested data n)) := by
  let data := Data.allocate n (Nat.lt_of_le_of_lt hhi (by decide))
  have hlength : data.array.length = n := List.length_replicate
  have hpayload : (requested data n).length = n := by
    rw [requested, if_neg (by omega), List.length_take, List.length_drop, hlength,
      Int.toNat_natCast, show data.position = 0 from rfl]
    omega
  have hne : requested data n ≠ [] := List.ne_nil_of_length_pos (by omega)
  obtain ⟨s', hsend⟩ := sendRequest_datagram data n (by omega) hhi
    (by rw [hlength]; exact Nat.le_of_eq (Nat.zero_add n))
  refine ⟨data, s', hsend, hne, ?_⟩
  rw [queued_sendRequest hne hsend, wire, unframes_datagram_iff (by omega), hpayload]
  omega

/-! ## WebSocket frames -/

/-- The frame that `sendRequest` builds. -/
def textFrame (payload : List UInt8) (h : payload.length < 2 ^ 31) : Frame where
  headerByte := 0x81
  payload
  form := .ofLength payload.length
  key := none
  fits := by
    unfold LengthForm.ofLength
    split
    · exact Nat.lt_trans h (by decide)
    split
    · simp only [LengthForm.bound]
      omega
    · simp only [LengthForm.bound]
      omega
  key_lt _ hk := by cases hk

theorem bytes_textFrame (payload : List UInt8) (h : payload.length < 2 ^ 31) :
    (textFrame payload h).bytes = textFrameBytes payload := by
  simp [Frame.bytes, textFrame, textFrameBytes, Frame.maskBit, Frame.keyBytes,
    Frame.maskedPayload]

/-- A 16-bit length from `2 ^ 15` on is read as a negative one, and no buffer can be allocated. -/
theorem webSocketTurn_medium {payload : List UInt8} (hlo : 32768 ≤ payload.length)
    (hhi : payload.length ≤ 65535) :
    Session.webSocketTurn (textFrameBytes payload) = .stop [] (some .illegalArgument) := by
  have hform : LengthForm.ofLength payload.length = .medium := by
    rw [LengthForm.ofLength, if_neg (by omega), if_pos (by omega)]
  have hbytes : textFrameBytes payload = [0x81, 126] ++ (bigEndian 2 payload.length ++ payload) := by
    simp [textFrameBytes, hform, LengthForm.code, LengthForm.extended]
  have hlength : (textFrameBytes payload).length = payload.length + 4 := by
    rw [hbytes]
    simp only [List.length_append, List.length_cons, List.length_nil, length_bigEndian]
    omega
  have hU16 : U16_AT (textFrameBytes payload) 2 = payload.length - 65536 := by
    have hvalue := U16_AT_bigEndian [0x81, 126] payload (Nat.lt_succ_of_le hhi)
    rw [if_neg (by omega), ← hbytes] at hvalue
    exact hvalue
  have hget : (textFrameBytes payload).getD 1 0 = 126 := by rw [hbytes]; rfl
  have hand : (126 : UInt8) &&& 0x7f = 126 := by decide
  have hpayload : Session.payloadLength (textFrameBytes payload) =
      some ((payload.length : ℤ) - 65536, 4) := by
    rw [Session.payloadLength, hget, hand, if_pos rfl, if_neg (by omega), hU16]
  have hmask : Session.maskingKey (textFrameBytes payload) 4 = some (0, 4) := by
    rw [Session.maskingKey, hget, if_neg (by decide)]
  rw [Session.webSocketTurn, if_neg (by omega), hpayload]
  dsimp only
  rw [hmask]
  dsimp only
  rw [int64_eq (by omega) (by omega), if_neg (by omega), if_neg (by omega),
    int32_eq (by omega) (by omega), if_pos (by omega)]

theorem unframes_webSocket_iff {payload : List UInt8} (h : payload.length < 2 ^ 31 - 1) :
    Unframes Session.webSocketReader (textFrameBytes payload) (.webSocketMessage payload 0x81) ↔
      ¬ (32768 ≤ payload.length ∧ payload.length ≤ 65535) := by
  rw [unframes_iff rfl, show Session.webSocketReader.turn = Session.webSocketTurn from rfl]
  by_cases hrange : 32768 ≤ payload.length ∧ payload.length ≤ 65535
  · rw [webSocketTurn_medium hrange.1 hrange.2]
    exact iff_of_false (by simp) (not_not_intro hrange)
  · have hmedium : (textFrame payload (by omega)).form = .medium →
        (textFrame payload (by omega)).payload.length < 32768 := by
      intro hform
      simp only [textFrame, LengthForm.ofLength] at hform ⊢
      split at hform
      · cases hform
      · omega
    have hlength := (textFrame payload (by omega)).length_bytes
    have hturn := webSocketTurn_append (textFrame payload (by omega)) hmedium h []
      (by
        have hext : ((LengthForm.ofLength payload.length).extended payload.length).length ≤ 8 := by
          cases LengthForm.ofLength payload.length <;>
            simp [LengthForm.extended]
        rw [List.append_nil, hlength]
        simp only [textFrame, Frame.keyBytes, List.length_nil]
        omega)
    rw [List.append_nil, bytes_textFrame] at hturn
    exact iff_of_true hturn hrange

/-! ## Interleaved packets -/

/-- Of an interleaved packet only the data is queued: after the header was put in, none of it
remains. -/
theorem put_eq_ok {d d' : Data} {b : UInt8} (h : d.put b = .ok d') :
    d'.position = d.position + 1 ∧ d'.limit = d.limit := by
  unfold Data.put at h
  split at h
  · cases h
    exact ⟨rfl, rfl⟩
  · cases h

theorem sendBinaryData_eq_ok {s s' : Session} {channel : ℤ} {data : Data} {size : ℕ}
    (h : WifiDisplaySource.sendBinaryData s channel data size = .ok s') :
    ∃ err, s.sendRequest data size none = .ok (s', err) := by
  unfold WifiDisplaySource.sendBinaryData at h
  split at h
  · cases h
  split at h
  · cases h
  obtain ⟨header₁, hput₁, h⟩ := bind_eq_ok.mp h
  obtain ⟨header₂, hput₂, h⟩ := bind_eq_ok.mp h
  obtain ⟨header₃, hput₃, h⟩ := bind_eq_ok.mp h
  obtain ⟨header, hput, h⟩ := bind_eq_ok.mp h
  obtain ⟨⟨s₁, err₁⟩, hsend₁, h⟩ := bind_eq_ok.mp h
  obtain ⟨⟨s₂, err₂⟩, hsend₂, h⟩ := bind_eq_ok.mp h
  have hposition : header.position = 4 := by
    rw [(put_eq_ok hput).1, (put_eq_ok hput₃).1, (put_eq_ok hput₂).1, (put_eq_ok hput₁).1]
    rfl
  have hlimit : header.limit = 4 := by
    rw [(put_eq_ok hput).2, (put_eq_ok hput₃).2, (put_eq_ok hput₂).2, (put_eq_ok hput₁).2]
    rfl
  have hremaining : header.remaining = 0 := by rw [Data.remaining, hposition, hlimit]
  rw [hremaining] at hsend₁
  cases h
  unfold Session.sendRequest at hsend₁
  split at hsend₁
  · cases hsend₁
  · cases hsend₁
    exact ⟨err₂, hsend₂⟩

/-- Bare data is never read as an interleaved packet that carries it. -/
theorem not_unframes_bare [CharData] {payload : List UInt8} (channel : ℕ) :
    ¬ Unframes (Session.rtspReader OK) payload (.binaryData channel payload) := by
  intro h
  have hturn : Session.rtspTurn OK payload = _ := h.turn
  unfold Session.rtspTurn at hturn
  split at hturn
  · unfold Session.binaryTurn at hturn
    dsimp only at hturn
    split at hturn
    · cases hturn
    split at hturn
    · cases hturn
    split at hturn
    · cases hturn
    · simp only [Turn.took.injEq, Notification.binaryData.injEq] at hturn
      have hlength := congrArg List.length hturn.1.2
      rw [List.length_take, List.length_drop] at hlength
      omega
  · unfold Session.textTurn at hturn
    dsimp only at hturn
    split at hturn
    · cases hturn
    · cases hturn
    split at hturn
    · cases hturn
    split at hturn
    · cases hturn
    split at hturn
    · cases hturn
    · cases hturn

/-! ## All three formats -/

/-- When the bytes that a session queues for a payload are read back as that payload. -/
theorem framing_round_trip [CharData] :
    (∀ (data : Data) (size : ℤ) (timeUs : Option ℤ) (s' : Session) (err : ℤ),
      (Session.new .CONNECTED .MODE_DATAGRAM).sendRequest data size timeUs = .ok (s', err) →
      requested data size ≠ [] →
      (Unframes (Session.reader OK .MODE_DATAGRAM) (queued s').flatten
        (.datagram (requested data size)) ↔ (requested data size).length < 32768)) ∧
    (∀ (data : Data) (size : ℤ) (timeUs : Option ℤ) (s' : Session) (err : ℤ),
      (Session.new .CONNECTED .MODE_WEBSOCKET).sendRequest data size timeUs = .ok (s', err) →
      requested data size ≠ [] →
      (Unframes (Session.reader OK .MODE_WEBSOCKET) (queued s').flatten
        (.webSocketMessage (requested data size) 0x81) ↔
          ¬ (32768 ≤ (requested data size).length ∧ (requested data size).length ≤ 65535))) ∧
    (∀ (channel : ℤ) (data : Data) (size : ℕ) (s' : Session),
      WifiDisplaySource.sendBinaryData (.new .CONNECTED .MODE_RTSP) channel data size = .ok s' →
      requested data size ≠ [] →
      ¬ Unframes (Session.reader OK .MODE_RTSP) (queued s').flatten
        (.binaryData channel.toNat (requested data size))) := by
  refine ⟨?_, ?_, ?_⟩
  · intro data size timeUs s' err hsend hne
    rw [queued_sendRequest hne hsend]
    exact unframes_datagram_iff (length_requested_datagram hne hsend)
  · intro data size timeUs s' err hsend hne
    rw [queued_sendRequest hne hsend]
    exact unframes_webSocket_iff (length_requested_webSocket hne hsend)
  · intro channel data size s' hsend hne
    obtain ⟨err, hsend⟩ := sendBinaryData_eq_ok hsend
    rw [queued_sendRequest hne hsend]
    exact not_unframes_bare channel.toNat

set_option maxRecDepth 2048 in
/-- 130 bytes make the round trip as a datagram and in a WebSocket frame with an extended length, not
as a packet. -/
theorem framing_round_trip_extended :
    letI := CharData.ascii
    Unframes (Session.reader OK .MODE_DATAGRAM) ([0, 130] ++ List.replicate 130 0)
        (.datagram (List.replicate 130 0)) ∧
      Unframes (Session.reader OK .MODE_WEBSOCKET) ([0x81, 126, 0, 130] ++ List.replicate 130 0)
        (.webSocketMessage (List.replicate 130 0) 0x81) ∧
      ¬ Unframes (Session.reader OK .MODE_RTSP) (List.replicate 130 0)
        (.binaryData 0 (List.replicate 130 0)) := by
  let _ := CharData.ascii
  obtain ⟨hdatagram, hwebSocket, hpacket⟩ := framing_round_trip
  let data := Data.allocate 130 (by decide)
  refine ⟨?_, ?_, ?_⟩
  · exact (hdatagram data 130 none { Session.new .CONNECTED .MODE_DATAGRAM with
      mOutFragments := [⟨none, .ofBytes ([0, 130] ++ List.replicate 130 0)⟩] } OK
      (by decide +kernel) (by decide +kernel)).mpr (by decide +kernel)
  · exact (hwebSocket data 130 none { Session.new .CONNECTED .MODE_WEBSOCKET with
      mOutFragments := [⟨none, .ofBytes ([0x81, 126, 0, 130] ++ List.replicate 130 0)⟩] } OK
      (by decide +kernel) (by decide +kernel)).mpr (by decide +kernel)
  · exact hpacket 0 data 130 { Session.new .CONNECTED .MODE_RTSP with
      mOutFragments := [⟨none, .ofBytes (List.replicate 130 0)⟩] } (by decide +kernel)
      (by decide +kernel)

/-- A datagram of `2 ^ 15` bytes and an interleaved packet of one byte are not read back. -/
theorem framing_round_trip_fails :
    (¬ ∀ [CharData] (data : Data) (size : ℤ) (timeUs : Option ℤ) (s' : Session) (err : ℤ),
      (Session.new .CONNECTED .MODE_DATAGRAM).sendRequest data size timeUs = .ok (s', err) →
      requested data size ≠ [] →
      Unframes (Session.reader OK .MODE_DATAGRAM) (queued s').flatten
        (.datagram (requested data size))) ∧
    ¬ ∀ [CharData] (channel : ℤ) (data : Data) (size : ℕ) (s' : Session),
      WifiDisplaySource.sendBinaryData (.new .CONNECTED .MODE_RTSP) channel data size = .ok s' →
      requested data size ≠ [] →
      Unframes (Session.reader OK .MODE_RTSP) (queued s').flatten
        (.binaryData channel.toNat (requested data size)) := by
  let _ := CharData.ascii
  constructor
  · intro h
    obtain ⟨data, s', hsend, hne, hlong⟩ :=
      exists_not_unframes_datagram (Nat.le_refl 32768) (by omega)
    exact hlong (h data (32768 : ℕ) none s' OK hsend hne)
  · intro h
    let data := Data.allocate 1 (by decide)
    exact not_unframes_bare 0 (h 0 data 1 { Session.new .CONNECTED .MODE_RTSP with
      mOutFragments := [⟨none, .ofBytes [0]⟩] } (by decide +kernel) (by decide))

end Net

end MirrorCast
