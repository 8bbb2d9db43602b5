import MirrorCast.Library.Framing
import MirrorCast.Program.ParsedMessage
import MirrorCast.Program.RTPUtils
import MirrorCast.Program.StringUtils

/-! # `ANetworkSession`: the sessions of the network thread -/

namespace MirrorCast

open Java Framing RTPUtils

/-! ## `BytesHolder` -/

/-- A buffer that grows; `array.length` is its capacity. -/
structure BytesHolder where
  array : List UInt8
  position : ℕ
  limit : ℕ
  deriving DecidableEq, Repr

namespace BytesHolder

/-- The power of two that `newCapacity` is rounded up to. -/
def roundUp (newCapacity : ℕ) : ℕ :=
  let n := newCapacity - 1
  let n := n ||| n >>> 1
  let n := n ||| n >>> 2
  let n := n ||| n >>> 4
  let n := n ||| n >>> 8
  let n := n ||| n >>> 16
  n + 1

def new (capacity : ℕ) : BytesHolder :=
  ⟨List.replicate (roundUp capacity) 0, 0, roundUp capacity⟩

def resizeTo (h : BytesHolder) (newCapacity copyStart copyEnd : ℕ) :
    Except JavaException BytesHolder :=
  if h.array.length < copyEnd ∨ copyEnd < copyStart then .error .illegalArgument
  else if newCapacity ≤ h.array.length then .ok h
  else do
    let array ← newArray (int32 (roundUp newCapacity))
    if copyStart < copyEnd then
      if h.limit < copyStart then .error .illegalArgument
      else
        let array ← putAt array 0 ((h.array.drop copyStart).take (copyEnd - copyStart))
        return ⟨array, copyEnd - copyStart, array.length⟩
    else return ⟨array, 0, array.length⟩

/-- The bytes in front of the position. -/
def kept (h : BytesHolder) : List UInt8 := h.array.take h.position

end BytesHolder

namespace ANetworkSession

def OK : ℤ := 0
def EIO : ℤ := 5
def EAGAIN : ℤ := 11
def INVALID_OPERATION : ℤ := -38

/-- What a session posts to its handler; arrival times are left out. -/
inductive Notification where
  | error (send : Bool) (err : ℤ) (detail : String)
  | connected
  | data (msg : ParsedMessage)
  | datagram (data : List UInt8)
  | binaryData (channel : ℕ) (data : List UInt8)
  | webSocketMessage (data : List UInt8) (headerByte : ℕ)
  deriving DecidableEq, Repr

namespace Session

inductive Mode where
  | MODE_RTSP
  | MODE_DATAGRAM
  | MODE_WEBSOCKET
  deriving DecidableEq, Repr

inductive State where
  | CONNECTING
  | CONNECTED
  | LISTENING_RTSP
  | LISTENING_TCP_DGRAMS
  | DATAGRAM
  deriving DecidableEq, Repr

/-! ## The parsers of `readMore`, one turn of each -/

def datagramTurn (data : List UInt8) : Turn Notification JavaException :=
  if data.length < 2 then .stop [] none
  else
    let packetSize := U16_AT data 0
    if (data.length : ℤ) < packetSize + 2 then .stop [] none
    else if packetSize < 0 then .stop [] (some .illegalArgument)
    else .took (.datagram ((data.drop 2).take packetSize.toNat)) (packetSize.toNat + 2)

def binaryTurn (data : List UInt8) : Turn Notification JavaException :=
  if data.length < 4 then .stop [] none
  else
    let length := U16_AT data 2
    if (data.length : ℤ) < 4 + length then .stop [] none
    else if length < 0 then .stop [] (some .illegalArgument)
    else
      .took (.binaryData (data.getD 1 0).toNat ((data.drop 4).take length.toNat))
        (4 + length.toNat)

/-- What `readMore` advances by: two more for the sinks that count their request too short. -/
def textLength (str : JString) (msg : ParsedMessage) : Except JavaException ℤ :=
  if (jstr "wfd_idr_request\r\n").isPrefixOf msg.mContent ∧ 19 ≤ msg.mLength then do
    let c ← charAt str msg.mLength.toNat
    if c = 0x0d then
      let c' ← charAt str (msg.mLength.toNat + 1)
      return if c' = 0x0a then msg.mLength + 2 else msg.mLength
    else return msg.mLength
  else return msg.mLength

def textTurn [CharData] (err : ℤ) (data : List UInt8) : Turn Notification JavaException :=
  let str := StringUtils.newStringFromBytes data
  match ParsedMessage.parse str (err ≠ OK) with
  | .error e => .stop [] (some e)
  | .ok none => .stop [] none
  | .ok (some msg) =>
      match textLength str msg with
      | .error e => .stop [.data msg] (some e)
      | .ok length =>
          if length < 0 ∨ (data.length : ℤ) < length then
            .stop [.data msg] (some .illegalArgument)
          else if err ≠ OK then .stop [.data msg] none
          else .took (.data msg) length.toNat

def rtspTurn [CharData] (err : ℤ) (data : List UInt8) : Turn Notification JavaException :=
  if data.head? = some 0x24 then binaryTurn data else textTurn err data

/-- `payloadLen` and the offset behind it. -/
def payloadLength (data : List UInt8) : Option (ℤ × ℕ) :=
  let payloadLen := data.getD 1 0 &&& 0x7f
  if payloadLen = 126 then if data.length < 4 then none else some (U16_AT data 2, 4)
  else if payloadLen = 127 then if data.length < 10 then none else some (U64_AT data 2, 10)
  else some (payloadLen.toNat, 2)

/-- `mask` and the offset behind it. -/
def maskingKey (data : List UInt8) (offset : ℕ) : Option (ℤ × ℕ) :=
  if data.getD 1 0 &&& 0x80 ≠ 0 then
    if data.length < offset + 4 then none else some (U32_AT data offset, offset + 4)
  else some (0, offset)

/-- `b ^ (mask >>> (8 * (3 - (i % 4))))`, for each byte. -/
def unmask (mask : ℤ) (payload : List UInt8) : List UInt8 :=
  payload.mapIdx fun i b =>
    b ^^^ UInt8.ofNat (BitVec.ofInt 32 mask >>> (8 * (3 - i % 4))).toNat

def webSocketTurn (data : List UInt8) : Turn Notification JavaException :=
  if data.length < 2 then .stop [] none
  else
    match payloadLength data with
    | none => .stop [] none
    | some (payloadLen, offset) =>
        match maskingKey data offset with
        | none => .stop [] none
        | some (mask, offset) =>
            if data.length < payloadLen ∨ int64 (data.length - payloadLen) < offset then
              .stop [] none
            else if 2 ^ 31 - 1 ≤ payloadLen then .stop [] (some .runtime)
            else
              let size := int32 payloadLen
              if size < 0 ∨ (data.length : ℤ) < offset + size then
                .stop [] (some .illegalArgument)
              else
                let payload := (data.drop offset).take size.toNat
                let packet := if mask ≠ 0 ∧ 0 < payloadLen then unmask mask payload else payload
                .took (.webSocketMessage packet (data.getD 0 0).toNat) (offset + size.toNat)

def datagramReader : Reader UInt8 Notification JavaException where
  turn := datagramTurn
  bounds {data o n} h := by
    unfold datagramTurn at h
    dsimp only at h
    split at h
    · cases h
    split at h
    · cases h
    split at h
    · cases h
    · cases h
      omega

theorem binaryTurn_bounds {data : List UInt8} {o : Notification} {n : ℕ}
    (h : binaryTurn data = .took o n) : 0 < n ∧ n ≤ data.length := by
  unfold binaryTurn at h
  dsimp only at h
  split at h
  · cases h
  split at h
  · cases h
  split at h
  · cases h
  · cases h
    omega

theorem textLength_ge {str : JString} {msg : ParsedMessage} {length : ℤ}
    (h : textLength str msg = .ok length) : msg.mLength ≤ length := by
  unfold textLength at h
  split at h
  · obtain ⟨c, -, h⟩ := bind_eq_ok.mp h
    split at h
    · obtain ⟨c', -, h⟩ := bind_eq_ok.mp h
      cases h
      split <;> omega
    · cases h
      exact Int.le_refl _
  · cases h
    exact Int.le_refl _

theorem textTurn_bounds [CharData] {err : ℤ} {data : List UInt8} {o : Notification} {n : ℕ}
    (h : textTurn err data = .took o n) : 0 < n ∧ n ≤ data.length := by
  unfold textTurn at h
  dsimp only at h
  split at h
  · cases h
  · cases h
  rename_i msg hmsg
  have hpos := ParsedMessage.mLength_pos_of_parse hmsg
  split at h
  · cases h
  rename_i length hlength
  have hge := textLength_ge hlength
  split at h
  · cases h
  split at h
  · cases h
  · cases h
    omega

def rtspReader [CharData] (err : ℤ) : Reader UInt8 Notification JavaException where
  turn := rtspTurn err
  bounds {data o n} h := by
    unfold rtspTurn at h
    split at h
    · exact binaryTurn_bounds h
    · exact textTurn_bounds h

theorem payloadLength_offset {data : List UInt8} {payloadLen : ℤ} {offset : ℕ}
    (h : payloadLength data = some (payloadLen, offset)) : 2 ≤ offset := by
  unfold payloadLength at h
  dsimp only at h
  split at h
  · split at h
    · cases h
    · obtain ⟨-, rfl⟩ := Prod.mk.inj (Option.some.inj h)
      omega
  split at h
  · split at h
    · cases h
    · obtain ⟨-, rfl⟩ := Prod.mk.inj (Option.some.inj h)
      omega
  · obtain ⟨-, rfl⟩ := Prod.mk.inj (Option.some.inj h)
    omega

theorem maskingKey_offset {data : List UInt8} {offset offset' : ℕ} {mask : ℤ}
    (h : maskingKey data offset = some (mask, offset')) : offset ≤ offset' := by
  unfold maskingKey at h
  split at h
  · split at h
    · cases h
    · obtain ⟨-, rfl⟩ := Prod.mk.inj (Option.some.inj h)
      omega
  · obtain ⟨-, rfl⟩ := Prod.mk.inj (Option.some.inj h)
    omega

def webSocketReader : Reader UInt8 Notification JavaException where
  turn := webSocketTurn
  bounds {data o n} h := by
    unfold webSocketTurn at h
    split at h
    · cases h
    split at h
    · cases h
    rename_i hpayload
    have hoffset := payloadLength_offset hpayload
    split at h
    · cases h
    rename_i hmask
    have hoffset' := maskingKey_offset hmask
    split at h
    · cases h
    split at h
    · cases h
    dsimp only at h
    split at h
    · cases h
    · cases h
      omega

/-- The loop of `readMore` for the mode of the session. -/
def reader [CharData] (err : ℤ) : Mode → Reader UInt8 Notification JavaException
  | .MODE_DATAGRAM => datagramReader
  | .MODE_RTSP => rtspReader err
  | .MODE_WEBSOCKET => webSocketReader

end Session

/-! ## Outgoing buffers -/

/-- A range of a buffer that is sent; `mData.length` is `mCapacity`. -/
structure ABuffer where
  mData : List UInt8
  mRangeOffset : ℕ
  mRangeLength : ℕ
  deriving DecidableEq, Repr

namespace ABuffer

/-- A new buffer that was filled from its start. -/
def ofBytes (data : List UInt8) : ABuffer := ⟨data, 0, data.length⟩

/-- `data()`, limited to `size()`. -/
def data (b : ABuffer) : List UInt8 := (b.mData.drop b.mRangeOffset).take b.mRangeLength

def setRange (b : ABuffer) (offset size : ℕ) : Except JavaException ABuffer :=
  if b.mData.length < offset ∨ b.mData.length < offset + size then .error .runtime
  else .ok { b with mRangeOffset := offset, mRangeLength := size }

end ABuffer

/-- The `ByteBuffer` of a request. -/
structure Data where
  array : List UInt8
  position : ℕ
  limit : ℕ
  position_le : position ≤ limit
  limit_le : limit ≤ array.length
  length_lt : array.length < 2 ^ 31

namespace Data

def remaining (d : Data) : ℕ := d.limit - d.position

/-- `ByteBuffer.allocate(capacity)`. -/
def allocate (capacity : ℕ) (h : capacity < 2 ^ 31) : Data where
  array := List.replicate capacity 0
  position := 0
  limit := capacity
  position_le := Nat.zero_le _
  limit_le := by rw [List.length_replicate]
  length_lt := by rwa [List.length_replicate]

/-- `data.put(b)`. -/
def put (d : Data) (b : UInt8) : Except JavaException Data :=
  if h : d.position < d.limit then
    .ok { array := d.array.set d.position b
          position := d.position + 1
          limit := d.limit
          position_le := h
          limit_le := by
            rw [List.length_set]
            exact d.limit_le
          length_lt := by
            rw [List.length_set]
            exact d.length_lt }
  else .error .bufferOverflow

/-- `data.limit(data.position() + size)`, and the bytes a `put` then copies. -/
def next (d : Data) (size : ℕ) : Except JavaException (List UInt8) :=
  if d.array.length < d.position + size then .error .illegalArgument
  else .ok ((d.array.drop d.position).take size)

end Data

structure Fragment where
  mTimeUs : Option ℤ
  mBuffer : ABuffer
  deriving DecidableEq, Repr

def MAX_UDP_RETRIES : ℕ := 200

structure Session where
  mState : Session.State
  mMode : Session.Mode
  mSawReceiveFailure : Bool
  mSawSendFailure : Bool
  mUDPRetries : ℕ
  mOutFragments : List Fragment
  mInBuffer : BytesHolder
  deriving DecidableEq, Repr

namespace Session

def new (mState : State) (mMode : Mode) : Session :=
  { mState, mMode
    mSawReceiveFailure := false
    mSawSendFailure := false
    mUDPRetries := MAX_UDP_RETRIES
    mOutFragments := []
    mInBuffer := .new 512 }

/-! ## `readMore` on a stream -/

/-- The buffer after `channel.read`, rewound, and `err`; `none` stands for a failed or closed
channel, and at most `remaining()` of the bytes are stored. -/
def fill (h : BytesHolder) (read : Option (List UInt8)) :
    Except JavaException (BytesHolder × ℤ) := do
  let h ← h.resizeTo (h.position + 512) 0 h.position
  if h.array.length < h.position + 512 then .error .illegalArgument
  else
    match read with
    | none => return (⟨h.array, 0, h.position⟩, - EIO)
    | some bytes =>
        let bytes := bytes.take 512
        let array := blit h.array h.position bytes
        return (⟨array, 0, h.position + bytes.length⟩, if bytes = [] then -EAGAIN else OK)

/-- `readMore` in a stream state: the session, what is posted and what is returned. -/
def readMore [CharData] (s : Session) (read : Option (List UInt8)) :
    Session × List Notification × Except JavaException ℤ :=
  match fill s.mInBuffer read with
  | .error e => (s, [], .error e)
  | .ok (mInBuffer, err) =>
      let s := { s with mInBuffer }
      match (reader err s.mMode).all (mInBuffer.array.take mInBuffer.limit) with
      | (posted, some e) => (s, posted, .error e)
      | (posted, none) =>
          if err ≠ OK then
            ({ s with mSawReceiveFailure := true }, posted ++ [.error false err "Recv failed"],
              .ok err)
          else (s, posted, .ok err)

/-! ## `sendRequest` -/

/-- The header of a WebSocket frame; `mUseMask` is false. -/
def webSocketHeader (size : ℕ) : List UInt8 :=
  if 65535 < size then
    [0x81, 127, 0, 0, 0, 0, toByte (size / 2 ^ 24 : ℕ), toByte (size / 2 ^ 16 : ℕ),
      toByte (size / 2 ^ 8 : ℕ), toByte size]
  else if 125 < size then [0x81, 126, toByte (size / 2 ^ 8 : ℕ), toByte size]
  else [0x81, toByte size]

/-- The buffer that is queued for `size` bytes of `data`. -/
def framed (s : Session) (data : Data) (size : ℕ) : Except JavaException (List UInt8) :=
  if s.mState = .CONNECTED ∧ s.mMode = .MODE_DATAGRAM then
    if 65535 < size then .error .runtime
    else do
      let payload ← data.next size
      return [toByte (size / 2 ^ 8 : ℕ), toByte size] ++ payload
  else if s.mState = .CONNECTED ∧ s.mMode = .MODE_WEBSOCKET then
    if int32 ((webSocketHeader size).length + size) < 0 then .error .illegalArgument
    else do
      let payload ← data.next size
      return webSocketHeader size ++ payload
  else data.next size

/-- `sendRequest(data, size, timeValid, timeUs)`: the session and what is returned. -/
def sendRequest (s : Session) (data : Data) (size : ℤ) (mTimeUs : Option ℤ) :
    Except JavaException (Session × ℤ) :=
  if s.mState ≠ .CONNECTED ∧ s.mState ≠ .DATAGRAM then .error .runtime
  else
    let size := if size < 0 then data.remaining else size.toNat
    if size = 0 then .ok (s, OK)
    else do
      let buffer ← s.framed data size
      let frag : Fragment := ⟨mTimeUs, .ofBytes buffer⟩
      return ({ s with mOutFragments := s.mOutFragments ++ [frag] }, OK)

/-! ## `writeMore` -/

/-- The loop on a stream. `outcomes` tells how many bytes each write is ready for, where `none`
stands for a failed write; the result is what stays queued, what was written and the last `n`. -/
def writeLoop (n : ℤ) : List Fragment → (ℕ → Option ℕ) →
    Except JavaException (List Fragment × List (List UInt8) × ℤ)
  | [], _ => .ok ([], [], n)
  | frag :: frags, outcomes =>
      let fragData := frag.mBuffer.data
      match outcomes 0 with
      | none => .ok (frag :: frags, [], -1)
      | some ready =>
          let n := min ready fragData.length
          if n = 0 then .ok (frag :: frags, [], 0)
          else do
            let mBuffer ← frag.mBuffer.setRange (frag.mBuffer.mRangeOffset + n)
              (frag.mBuffer.mRangeLength - n)
            if 0 < mBuffer.mRangeLength then
              return ({ frag with mBuffer } :: frags, [fragData.take n], n)
            else
              let (frags, written, last) ← writeLoop n frags fun k => outcomes (k + 1)
              return (frags, fragData.take n :: written, last)

/-- The loop on a datagram channel, which takes a datagram as a whole or not at all. -/
def sendLoop : List Fragment → (ℕ → Option ℕ) → List Fragment × List (List UInt8) × ℤ
  | [], _ => ([], [], OK)
  | frag :: frags, outcomes =>
      let dgData := frag.mBuffer.data
      match outcomes 0 with
      | none => (frag :: frags, [], - EIO)
      | some ready =>
          if ready = 0 ∨ dgData = [] then (frag :: frags, [], -EAGAIN)
          else
            let (frags, sent, err) := sendLoop frags fun k => outcomes (k + 1)
            (frags, dgData :: sent, err)

structure Written where
  session : Session
  posted : List Notification
  written : List (List UInt8)
  err : ℤ
  deriving DecidableEq, Repr

def sendDatagrams (s : Session) (outcomes : ℕ → Option ℕ) : Except JavaException Written :=
  if s.mOutFragments = [] then .error .runtime
  else
    let (mOutFragments, written, err) := sendLoop s.mOutFragments outcomes
    let s := { s with mOutFragments }
    let err := if err = -EAGAIN then OK else err
    if err ≠ OK then
      if s.mUDPRetries = 0 then
        .ok ⟨{ s with mSawSendFailure := true }, [.error true err "Send datagram failed"], written,
          err⟩
      else .ok ⟨{ s with mUDPRetries := s.mUDPRetries - 1 }, [], written, OK⟩
    else .ok ⟨{ s with mUDPRetries := MAX_UDP_RETRIES }, [], written, OK⟩

def writeMore (s : Session) (isConnected : Bool) (outcomes : ℕ → Option ℕ) :
    Except JavaException Written :=
  if s.mState = .DATAGRAM then s.sendDatagrams outcomes
  else if s.mState = .CONNECTING then
    if isConnected = false then
      .ok ⟨{ s with mSawSendFailure := true }, [.error false (- EIO) "Connection failed"], [], - EIO⟩
    else .ok ⟨{ s with mState := .CONNECTED }, [.connected], [], OK⟩
  else if s.mState ≠ .CONNECTED ∨ s.mOutFragments = [] then .error .runtime
  else do
    let (mOutFragments, written, n) ← writeLoop (-1) s.mOutFragments outcomes
    let s := { s with mOutFragments }
    let err := if n < 0 then - EIO else if n = 0 then -EAGAIN else OK
    if err ≠ OK then
      return ⟨{ s with mSawSendFailure := true }, [.error true err "Send failed"], written, err⟩
    else return ⟨s, [], written, OK⟩

end Session

end ANetworkSession

end MirrorCast
