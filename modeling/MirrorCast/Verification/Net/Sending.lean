import MirrorCast.Verification.Net.Messages

/-! # Outgoing bytes -/

namespace MirrorCast

open Java ANetworkSession

namespace Net

/-! ## The bytes of a request on the wire -/

/-- The least form that can state the length. -/
def LengthForm.ofLength (length : ℕ) : LengthForm :=
  if 65535 < length then .long else if 125 < length then .medium else .short

def textFrameBytes (payload : List UInt8) : List UInt8 :=
  let form := LengthForm.ofLength payload.length
  [0x81, UInt8.ofNat (form.code payload.length)] ++ (form.extended payload.length ++ payload)

/-- What a request becomes on a stream. -/
def wire : Session.Mode → List UInt8 → List UInt8
  | .MODE_DATAGRAM, payload => datagramBytes payload
  | .MODE_RTSP, payload => payload
  | .MODE_WEBSOCKET, payload => textFrameBytes payload

/-- The bytes that a call with these arguments asks to send. -/
def requested (data : Data) (size : ℤ) : List UInt8 :=
  (data.array.drop data.position).take (if size < 0 then data.remaining else size.toNat)

theorem length_of_next {data : Data} {size : ℕ} {payload : List UInt8}
    (h : data.next size = .ok payload) :
    payload = (data.array.drop data.position).take size ∧ payload.length = size := by
  unfold Data.next at h
  split at h
  · cases h
  · cases h
    refine ⟨rfl, ?_⟩
    rw [List.length_take, List.length_drop]
    omega

theorem bigEndian_two (n : ℕ) :
    bigEndian 2 n = [toByte (n / 2 ^ 8 : ℕ), toByte n] := by
  simp only [toByte_natCast, bigEndian, Nat.pow_zero, Nat.div_one, Nat.pow_one]
  rfl

theorem bigEndian_eight {n : ℕ} (h : n < 2 ^ 32) :
    bigEndian 8 n = [0, 0, 0, 0, toByte (n / 2 ^ 24 : ℕ), toByte (n / 2 ^ 16 : ℕ),
      toByte (n / 2 ^ 8 : ℕ), toByte n] := by
  have hzero : ∀ k, 4 ≤ k → n / 256 ^ k = 0 := by
    intro k hk
    apply Nat.div_eq_of_lt
    calc n < 256 ^ 4 := Nat.lt_of_lt_of_eq h (by norm_num)
      _ ≤ 256 ^ k := Nat.pow_le_pow_right (by omega) hk
  simp only [toByte_natCast, bigEndian]
  rw [hzero 7 (by omega), hzero 6 (by omega), hzero 5 (by omega), hzero 4 (by omega)]
  norm_num
  rfl

theorem webSocketHeader_eq {size : ℕ} (h : size < 2 ^ 32) :
    Session.webSocketHeader size =
      [0x81, UInt8.ofNat ((LengthForm.ofLength size).code size)] ++
        (LengthForm.ofLength size).extended size := by
  unfold Session.webSocketHeader LengthForm.ofLength
  split
  · rw [LengthForm.code, LengthForm.extended, bigEndian_eight h]
    rfl
  · split
    · rw [LengthForm.code, LengthForm.extended, bigEndian_two]
      rfl
    · rw [LengthForm.code, LengthForm.extended, toByte_natCast]
      rfl

/-- A request is queued only if the bytes are there. -/
theorem next_of_framed {s : Session} {data : Data} {size : ℕ} {buffer : List UInt8}
    (h : s.framed data size = .ok buffer) : ∃ payload, data.next size = .ok payload := by
  unfold Session.framed at h
  split at h
  · split at h
    · cases h
    obtain ⟨payload, hpayload, -⟩ := bind_eq_ok.mp h
    exact ⟨payload, hpayload⟩
  split at h
  · split at h
    · cases h
    obtain ⟨payload, hpayload, -⟩ := bind_eq_ok.mp h
    exact ⟨payload, hpayload⟩
  · exact ⟨buffer, h⟩

theorem framed_connected {s : Session} (hstate : s.mState = .CONNECTED) {data : Data} {size : ℕ}
    {buffer : List UInt8} (h : s.framed data size = .ok buffer) :
    buffer = wire s.mMode ((data.array.drop data.position).take size) := by
  unfold Session.framed at h
  cases hmode : s.mMode with
  | MODE_DATAGRAM =>
      rw [if_pos ⟨hstate, hmode⟩] at h
      split at h
      · cases h
      obtain ⟨payload, hpayload, h⟩ := bind_eq_ok.mp h
      obtain ⟨rfl, hlength⟩ := length_of_next hpayload
      cases h
      rw [wire, datagramBytes, hlength, bigEndian_two]
  | MODE_RTSP =>
      rw [if_neg (by simp [hmode]), if_neg (by simp [hmode])] at h
      exact (length_of_next h).1
  | MODE_WEBSOCKET =>
      rw [if_neg (by simp [hmode]), if_pos ⟨hstate, hmode⟩] at h
      split at h
      · cases h
      obtain ⟨payload, hpayload, h⟩ := bind_eq_ok.mp h
      obtain ⟨hpayload, hlength⟩ := length_of_next hpayload
      cases h
      have hlt := data.length_lt
      have hsize : size < 2 ^ 32 := by
        rw [hpayload, List.length_take, List.length_drop] at hlength
        omega
      rw [wire, textFrameBytes, ← hpayload, hlength, webSocketHeader_eq hsize, List.append_assoc]

theorem framed_datagram {s : Session} (hstate : s.mState = .DATAGRAM) {data : Data} {size : ℕ}
    {buffer : List UInt8} (h : s.framed data size = .ok buffer) :
    buffer = (data.array.drop data.position).take size := by
  unfold Session.framed at h
  rw [if_neg (by simp [hstate]), if_neg (by simp [hstate])] at h
  exact (length_of_next h).1

/-! ## Runs -/

/-- A call on a session; `outcomes` is what the channel is ready for in each write. -/
inductive Call where
  | sendRequest (data : Data) (size : ℤ) (timeUs : Option ℤ)
  | writeMore (isConnected : Bool) (outcomes : ℕ → Option ℕ)

/-- A session, the requests that were accepted and what the channel took. -/
structure History where
  session : Session
  requests : List (List UInt8)
  written : List (List UInt8)

/-- One call; a call that throws leaves the session as it is. -/
def call (h : History) : Call → History
  | .sendRequest data size timeUs =>
      match h.session.sendRequest data size timeUs with
      | .ok (session, _) =>
          { h with
            session
            requests := h.requests ++
              if requested data size = [] then [] else [requested data size] }
      | .error _ => h
  | .writeMore isConnected outcomes =>
      match h.session.writeMore isConnected outcomes with
      | .ok w => { h with session := w.session, written := h.written ++ w.written }
      | .error _ => h

def run (s : Session) (calls : List Call) : History := calls.foldl call ⟨s, [], []⟩

def queued (s : Session) : List (List UInt8) := s.mOutFragments.map fun frag => frag.mBuffer.data

/-! ## The two loops -/

/-- A fragment with something left to send, inside its buffer. -/
structure InRange (frag : Fragment) : Prop where
  pos : 0 < frag.mBuffer.mRangeLength
  le : frag.mBuffer.mRangeOffset + frag.mBuffer.mRangeLength ≤ frag.mBuffer.mData.length

theorem InRange.length_data {frag : Fragment} (h : InRange frag) :
    frag.mBuffer.data.length = frag.mBuffer.mRangeLength := by
  have hle := h.le
  rw [ANetworkSession.ABuffer.data, List.length_take, List.length_drop]
  omega

theorem inRange_ofBytes {buffer : List UInt8} (h : buffer ≠ []) (timeUs : Option ℤ) :
    InRange ⟨timeUs, .ofBytes buffer⟩ :=
  ⟨List.length_pos_of_ne_nil h, Nat.le_of_eq (Nat.zero_add _)⟩

theorem data_ofBytes (buffer : List UInt8) :
    (ANetworkSession.ABuffer.ofBytes buffer).data = buffer := by
  rw [ANetworkSession.ABuffer.data, ANetworkSession.ABuffer.ofBytes, List.drop_zero,
    List.take_length]

/-- After a write the range is what was not taken. -/
theorem setRange_data {b b' : ANetworkSession.ABuffer} {n : ℕ}
    (h : b.setRange (b.mRangeOffset + n) (b.mRangeLength - n) = .ok b') :
    b.data.take n ++ b'.data = b.data := by
  unfold ANetworkSession.ABuffer.setRange at h
  split at h
  · cases h
  · cases h
    have hdrop : (b.mData.drop (b.mRangeOffset + n)).take (b.mRangeLength - n) =
        b.data.drop n := by
      rw [ANetworkSession.ABuffer.data, List.drop_take, List.drop_drop]
    exact (congrArg (b.data.take n ++ ·) hdrop).trans (List.take_append_drop n b.data)

theorem writeLoop_spec (n : ℤ) (frags : List Fragment) (outcomes : ℕ → Option ℕ)
    (hfrags : ∀ frag ∈ frags, InRange frag) :
    ∃ frags' written last, Session.writeLoop n frags outcomes = .ok (frags', written, last) ∧
      (∀ frag ∈ frags', InRange frag) ∧
      written.flatten ++ frags'.flatMap (fun frag => frag.mBuffer.data) =
        frags.flatMap fun frag => frag.mBuffer.data := by
  induction frags generalizing n outcomes with
  | nil => exact ⟨[], [], n, rfl, by simp, rfl⟩
  | cons frag frags ih =>
      have hfrag := hfrags frag (by simp)
      have hle := hfrag.le
      rw [Session.writeLoop]
      cases outcomes 0 with
      | none => exact ⟨_, [], -1, rfl, hfrags, rfl⟩
      | some ready =>
          dsimp only
          by_cases hzero : min ready frag.mBuffer.data.length = 0
          · rw [if_pos hzero]
            exact ⟨_, [], 0, rfl, hfrags, rfl⟩
          rw [if_neg hzero]
          generalize hn : min ready frag.mBuffer.data.length = k at hzero
          have hk : k ≤ frag.mBuffer.mRangeLength := by
            rw [← hfrag.length_data]
            omega
          have hset : frag.mBuffer.setRange (frag.mBuffer.mRangeOffset + k)
              (frag.mBuffer.mRangeLength - k) = .ok { frag.mBuffer with
                mRangeOffset := frag.mBuffer.mRangeOffset + k
                mRangeLength := frag.mBuffer.mRangeLength - k } := by
            rw [ANetworkSession.ABuffer.setRange, if_neg (by omega)]
          have hdata := setRange_data hset
          rw [hset, ok_bind]
          by_cases hmore : 0 < frag.mBuffer.mRangeLength - k
          · rw [if_pos hmore]
            refine ⟨_, _, _, rfl, ?_, ?_⟩
            · intro f hf
              rcases List.mem_cons.mp hf with rfl | hf
              · exact ⟨hmore, by dsimp only; omega⟩
              · exact hfrags f (by simp [hf])
            · rw [List.flatMap_cons, List.flatMap_cons, ← List.append_assoc]
              simp only [List.flatten_cons, List.flatten_nil, List.append_nil, hdata]
          · rw [if_neg hmore]
            obtain ⟨frags', written, last, hrest, hfrags', hbytes⟩ :=
              ih k (fun i => outcomes (i + 1)) fun f hf => hfrags f (by simp [hf])
            rw [hrest, ok_bind]
            refine ⟨frags', _, last, rfl, hfrags', ?_⟩
            have hall : frag.mBuffer.data.take k = frag.mBuffer.data :=
              List.take_of_length_le (by rw [hfrag.length_data]; omega)
            rw [List.flatten_cons, List.append_assoc, hbytes, hall, List.flatMap_cons]

theorem sendLoop_spec (frags : List Fragment) (outcomes : ℕ → Option ℕ) :
    (Session.sendLoop frags outcomes).2.1 ++
        (Session.sendLoop frags outcomes).1.map (fun frag => frag.mBuffer.data) =
      frags.map (fun frag => frag.mBuffer.data) := by
  induction frags generalizing outcomes with
  | nil => rfl
  | cons frag frags ih =>
      rw [Session.sendLoop]
      cases outcomes 0 with
      | none => rfl
      | some ready =>
          dsimp only
          split
          · rfl
          · rw [List.cons_append, ih, List.map_cons]

/-! ## What every call keeps -/

/-- On a stream the bytes taken and those still queued are the framed requests. -/
structure Streamed (mode : Session.Mode) (h : History) : Prop where
  state_eq : h.session.mState = .CONNECTED
  mode_eq : h.session.mMode = mode
  inRange : ∀ frag ∈ h.session.mOutFragments, InRange frag
  bytes_eq : h.written.flatten ++ (queued h.session).flatten = h.requests.flatMap (wire mode)

/-- On a datagram channel each request is taken once or still queued. -/
structure Sent (h : History) : Prop where
  state_eq : h.session.mState = .DATAGRAM
  requests_eq : h.written ++ queued h.session = h.requests

/-- What `sendRequest` does when it returns. -/
theorem sendRequest_cases {s s' : Session} {data : Data} {size err : ℤ} {timeUs : Option ℤ}
    (h : s.sendRequest data size timeUs = .ok (s', err)) :
    (requested data size = [] ∧ s' = s) ∨
      (requested data size ≠ [] ∧ ∃ buffer k, s.framed data k = .ok buffer ∧
        (data.array.drop data.position).take k = requested data size ∧
        s' = { s with mOutFragments := s.mOutFragments ++ [⟨timeUs, .ofBytes buffer⟩] }) := by
  unfold Session.sendRequest at h
  split at h
  · cases h
  dsimp only at h
  unfold requested
  generalize (if size < 0 then data.remaining else size.toNat) = k at h ⊢
  split at h
  · rename_i hzero
    left
    cases h
    exact ⟨by rw [hzero, List.take_zero], rfl⟩
  · rename_i hpos
    right
    obtain ⟨buffer, hbuffer, h⟩ := bind_eq_ok.mp h
    cases h
    refine ⟨?_, buffer, k, hbuffer, rfl, rfl⟩
    obtain ⟨payload, hpayload⟩ := next_of_framed hbuffer
    obtain ⟨rfl, hlength⟩ := length_of_next hpayload
    intro hnil
    rw [hnil] at hlength
    exact hpos hlength.symm

theorem wire_ne_nil {mode : Session.Mode} {payload : List UInt8} (h : payload ≠ []) :
    wire mode payload ≠ [] := by
  cases mode with
  | MODE_DATAGRAM =>
      apply List.ne_nil_of_length_pos
      rw [wire, length_datagramBytes]
      omega
  | MODE_RTSP => exact h
  | MODE_WEBSOCKET => exact List.cons_ne_nil _ _

theorem streamed_call {mode : Session.Mode} {h : History} (hinv : Streamed mode h) (c : Call) :
    Streamed mode (call h c) := by
  cases c with
  | sendRequest data size timeUs =>
      rw [call]
      cases hsend : h.session.sendRequest data size timeUs with
      | error e => exact hinv
      | ok result =>
          rcases sendRequest_cases hsend with ⟨hnil, hs⟩ | ⟨hne, buffer, k, hbuffer, hk, hs⟩
          · rw [hnil, if_pos rfl, List.append_nil]
            dsimp only
            rw [hs]
            exact hinv
          · have hwire := framed_connected hinv.state_eq hbuffer
            rw [hk, hinv.mode_eq] at hwire
            rw [if_neg hne]
            constructor
            · dsimp only
              rw [hs]
              exact hinv.state_eq
            · dsimp only
              rw [hs]
              exact hinv.mode_eq
            · dsimp only
              rw [hs]
              intro frag hfrag
              rcases List.mem_append.mp hfrag with hfrag | hfrag
              · exact hinv.inRange frag hfrag
              · rw [List.mem_singleton.mp hfrag]
                exact inRange_ofBytes (by rw [hwire]; exact wire_ne_nil hne) timeUs
            · dsimp only
              rw [hs]
              simp only [queued, List.map_append, List.map_cons, List.map_nil, List.flatten_append,
                data_ofBytes, List.flatMap_append, List.flatMap_cons, List.flatMap_nil,
                List.append_nil, List.flatten_cons, List.flatten_nil]
              rw [← List.append_assoc, hwire]
              exact congrArg (· ++ wire mode (requested data size)) hinv.bytes_eq
  | writeMore isConnected outcomes =>
      rw [call]
      cases hwrite : h.session.writeMore isConnected outcomes with
      | error e => exact hinv
      | ok w =>
          unfold Session.writeMore at hwrite
          rw [if_neg (by simp [hinv.state_eq]), if_neg (by simp [hinv.state_eq])] at hwrite
          split at hwrite
          · cases hwrite
          obtain ⟨frags', written, last, hloop, hinRange, hbytes⟩ :=
            writeLoop_spec (-1) h.session.mOutFragments outcomes hinv.inRange
          rw [hloop, ok_bind] at hwrite
          dsimp only at hwrite
          have hall : (h.written ++ written).flatten ++
              (frags'.map fun frag => frag.mBuffer.data).flatten =
              h.requests.flatMap (wire mode) := by
            rw [← List.flatMap_def, List.flatten_append, List.append_assoc, hbytes,
              List.flatMap_def]
            exact hinv.bytes_eq
          generalize (if last < 0 then _ else _) = err at hwrite
          split at hwrite
          · cases hwrite
            exact ⟨hinv.state_eq, hinv.mode_eq, hinRange, hall⟩
          · cases hwrite
            exact ⟨hinv.state_eq, hinv.mode_eq, hinRange, hall⟩

theorem sent_call {h : History} (hinv : Sent h) (c : Call) : Sent (call h c) := by
  cases c with
  | sendRequest data size timeUs =>
      rw [call]
      cases hsend : h.session.sendRequest data size timeUs with
      | error e => exact hinv
      | ok result =>
          rcases sendRequest_cases hsend with ⟨hnil, hs⟩ | ⟨hne, buffer, k, hbuffer, hk, hs⟩
          · rw [hnil, if_pos rfl, List.append_nil]
            dsimp only
            rw [hs]
            exact hinv
          · have hpayload := framed_datagram hinv.state_eq hbuffer
            rw [hk] at hpayload
            rw [if_neg hne]
            constructor
            · dsimp only
              rw [hs]
              exact hinv.state_eq
            · dsimp only
              rw [hs, ← hinv.requests_eq]
              simp only [queued, List.map_append, List.map_cons, List.map_nil, data_ofBytes,
                List.append_assoc, hpayload]
  | writeMore isConnected outcomes =>
      rw [call]
      cases hwrite : h.session.writeMore isConnected outcomes with
      | error e => exact hinv
      | ok w =>
          unfold Session.writeMore Session.sendDatagrams at hwrite
          rw [if_pos hinv.state_eq] at hwrite
          split at hwrite
          · cases hwrite
          have hall : (h.written ++ (Session.sendLoop h.session.mOutFragments outcomes).2.1) ++
              (Session.sendLoop h.session.mOutFragments outcomes).1.map
                (fun frag => frag.mBuffer.data) = h.requests := by
            rw [List.append_assoc, sendLoop_spec]
            exact hinv.requests_eq
          dsimp only at hwrite
          generalize (if _ = -EAGAIN then OK else _) = err at hwrite
          split at hwrite
          · split at hwrite
            · cases hwrite
              exact ⟨hinv.state_eq, hall⟩
            · cases hwrite
              exact ⟨hinv.state_eq, hall⟩
          · cases hwrite
            exact ⟨hinv.state_eq, hall⟩

theorem invariant_run {P : History → Prop} (hcall : ∀ h c, P h → P (call h c)) {s : Session}
    (hinit : P ⟨s, [], []⟩) (calls : List Call) : P (run s calls) := by
  suffices h : ∀ h, P h → P (calls.foldl call h) from h _ hinit
  induction calls with
  | nil => exact fun _ h => h
  | cons c calls ih => exact fun h hinv => ih _ (hcall h c hinv)

/-- No outgoing byte is lost, duplicated or reordered. -/
theorem outgoing_conserved (mode : Session.Mode) (calls : List Call) :
    ((run (.new .CONNECTED mode) calls).written.flatten ++
        (queued (run (.new .CONNECTED mode) calls).session).flatten =
      (run (.new .CONNECTED mode) calls).requests.flatMap (wire mode)) ∧
    (run (.new .DATAGRAM mode) calls).written ++ queued (run (.new .DATAGRAM mode) calls).session =
      (run (.new .DATAGRAM mode) calls).requests := by
  constructor
  · exact (invariant_run (P := Streamed mode) (fun h c hinv => streamed_call hinv c)
      ⟨rfl, rfl, by simp [Session.new], rfl⟩ calls).bytes_eq
  · exact (invariant_run (P := Sent) (fun h c hinv => sent_call hinv c) ⟨rfl, rfl⟩
      calls).requests_eq

end Net

end MirrorCast
