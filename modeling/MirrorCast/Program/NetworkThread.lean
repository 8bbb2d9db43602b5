import MirrorCast.Library.Machine
import MirrorCast.Program.ANetworkSession

/-! # `ANetworkSession.threadLoop` and the calls of other threads

A synchronized block is one step, but in the block that handles the selected keys each key
test is one; a key is cancelled and a channel closed outside of `mLock`. -/

namespace MirrorCast.ANetworkSession

open Java

/-! ## Sessions on either kind of channel -/

namespace Session

/-- What a channel has: the bytes of one read, where `none` stands for a failed or closed
channel, or the datagrams until there is none left or, if `failed`, an `IOException`. -/
structure Incoming where
  read : Option (List UInt8)
  received : List (List UInt8)
  failed : Bool

/-- `readMore` on a datagram channel; the addresses are left out. -/
def receiveMore (s : Session) (incoming : Incoming) :
    Session × List Notification × Except JavaException ℤ :=
  if s.mMode ≠ .MODE_DATAGRAM then (s, [], .error .runtime)
  else
    let posted := incoming.received.map .datagram
    if incoming.failed then
      if s.mUDPRetries = 0 then
        ({ s with mSawReceiveFailure := true },
          posted ++ [.error false (- EIO) "Recvfrom failed"], .ok (- EIO))
      else ({ s with mUDPRetries := s.mUDPRetries - 1 }, posted, .ok OK)
    else ({ s with mUDPRetries := MAX_UDP_RETRIES }, posted, .ok OK)

/-- `readMore` in any state. -/
def readMoreFrom [CharData] (s : Session) (incoming : Incoming) :
    Session × List Notification × Except JavaException ℤ :=
  if s.mState = .DATAGRAM then s.receiveMore incoming else s.readMore incoming.read

/-- What a channel does with what is written: whether it is connected, and how many bytes each
write is ready for. -/
structure Outgoing where
  isConnected : Bool
  outcomes : ℕ → Option ℕ

/-- `writeMore`; `send` needs the address a datagram channel is connected to. -/
def writeMoreTo (s : Session) (outgoing : Outgoing) : Except JavaException Written :=
  if s.mState = .DATAGRAM ∧ s.mOutFragments ≠ [] ∧ outgoing.isConnected = false then
    .error .nullPointer
  else s.writeMore outgoing.isConnected outgoing.outcomes

def switchToWebSocketMode (s : Session) : Session × ℤ :=
  if s.mState ≠ .CONNECTED ∨ s.mMode ≠ .MODE_RTSP then (s, INVALID_OPERATION)
  else ({ s with mMode := .MODE_WEBSOCKET }, OK)

def isServer (s : Session) : Bool :=
  s.mState = .LISTENING_RTSP || s.mState = .LISTENING_TCP_DGRAMS

def wantsToRead (s : Session) : Bool := !s.mSawReceiveFailure && s.mState != .CONNECTING

def wantsToWrite (s : Session) : Bool :=
  !s.mSawSendFailure && (s.mState == .CONNECTING ||
    (s.mState == .CONNECTED && s.mOutFragments != []) ||
    (s.mState == .DATAGRAM && s.mOutFragments != []))

end Session

namespace NetworkThread

/-! ## State -/

/-- A set of `OP_ACCEPT`, `OP_READ` and `OP_WRITE`. -/
structure Ops where
  accept : Bool
  read : Bool
  write : Bool
  deriving DecidableEq, Repr

structure SelectionKey where
  interestOps : Ops
  isCancelled : Bool
  deriving DecidableEq, Repr

/-- How far `destroySession` is with a session. -/
inductive Destroying where
  | no
  | removed
  | cancelled
  | closed
  deriving DecidableEq, Repr

/-- A session with its channel and the key the channel has at `mSelector`. -/
structure Entry where
  session : Session
  isServerSocketChannel : Bool
  isOpen : Bool
  key : Option SelectionKey
  destroying : Destroying
  deriving DecidableEq, Repr

def Entry.new (session : Session) (isServerSocketChannel : Bool) : Entry :=
  ⟨session, isServerSocketChannel, true, none, .no⟩

/-- The key test that comes next for the first of the selected keys. -/
inductive Test where
  | acceptable
  | readable
  | writable
  deriving DecidableEq, Repr

/-- Where `threadLoop` is; a selected key is the session it is attached to with its ready
operations. -/
inductive Loop where
  | updating
  | selecting
  | selected (keys : List (ℕ × Ops))
  | handling (test : Test) (keys : List (ℕ × Ops)) (sessionsToAdd : List ℕ)
  deriving DecidableEq, Repr

/-- The sessions constructed so far are those below `mNextSessionID`. -/
structure State where
  entries : ℕ → Entry
  mSessions : List ℕ
  mNextSessionID : ℕ
  loop : Loop

def State.initial : State where
  entries := fun _ => .new (.new .CONNECTING .MODE_DATAGRAM) false
  mSessions := []
  mNextSessionID := 1
  loop := .updating

def State.setEntry (s : State) (id : ℕ) (e : Entry) : State :=
  { s with entries := Function.update s.entries id e }

/-- `mLock` is held while the selected keys are handled. -/
def State.isLocked (s : State) : Bool :=
  match s.loop with
  | .handling _ _ _ => true
  | _ => false

/-- What leaves `threadLoop`. -/
inductive Thrown where
  | cancelledKey
  | classCast
  | unchecked (e : JavaException)
  deriving DecidableEq, Repr

/-- What `threadLoop` calls: `present` tells if the session is in `mSessions`. -/
inductive Event where
  | clientConnected (id : ℕ)
  | readMore (id : ℕ) (present : Bool) (posted : List Notification)
  | writeMore (id : ℕ) (present : Bool) (posted : List Notification)
  deriving DecidableEq, Repr

/-! ## `updateSelectionKeys` and `select` -/

def Entry.ops (e : Entry) : Ops where
  accept := e.session.wantsToRead && e.isServerSocketChannel
  read := e.session.wantsToRead && !e.isServerSocketChannel
  write := e.session.wantsToWrite

/-- `channel.register(mSelector, ops, session)`, unless the channel is closed. -/
def Entry.register (e : Entry) : Except Thrown Entry :=
  if e.isOpen = false then .ok e
  else
    match e.key with
    | some ⟨_, true⟩ => .error .cancelledKey
    | _ => .ok { e with key := some ⟨e.ops, false⟩ }

def updateSelectionKeys (s : State) : List ℕ → Except Thrown State
  | [] => .ok s
  | id :: ids => do
      let e ← (s.entries id).register
      updateSelectionKeys (s.setEntry id e) ids

/-- The key of the session is valid. -/
def Entry.isValid (e : Entry) : Bool :=
  e.isOpen && e.key.any fun key => !key.isCancelled

/-- The operations are among those that the key of the session is registered for. -/
def Entry.offers (e : Entry) (ready : Ops) : Bool :=
  e.key.any fun key =>
    (!ready.accept || key.interestOps.accept) && (!ready.read || key.interestOps.read) &&
      (!ready.write || key.interestOps.write)

/-- `select` may return these keys: each once, valid, and ready for something it is registered
for. -/
def Selectable (s : State) (keys : List (ℕ × Ops)) : Prop :=
  (keys.map Prod.fst).Nodup ∧ ∀ key ∈ keys, (s.entries key.1).isValid ∧
    (s.entries key.1).offers key.2 ∧ key.2 ≠ ⟨false, false, false⟩

instance (s : State) (keys : List (ℕ × Ops)) : Decidable (Selectable s keys) :=
  inferInstanceAs (Decidable (_ ∧ _))

/-! ## The selected keys -/

/-- The outcome of `accept` on a non-blocking channel; `failed` is an `IOException`. -/
inductive Accepted where
  | failed
  | null
  | channel
  deriving DecidableEq, Repr

/-- The session of an incoming connection. -/
def clientSession (server : Session) : Session :=
  .new .CONNECTED (if server.mState = .LISTENING_RTSP then .MODE_RTSP else .MODE_DATAGRAM)

def testAcceptable (s : State) (accepted : Accepted) (id : ℕ) (ready : Ops)
    (keys : List (ℕ × Ops)) (sessionsToAdd : List ℕ) : Except Thrown (State × List Event) :=
  let e := s.entries id
  let next := fun s : State => { s with loop := .handling .readable ((id, ready) :: keys) sessionsToAdd }
  if e.isValid = false then .error .cancelledKey
  else if ready.accept = false then .ok (next s, [])
  else if e.session.isServer = false then .error (.unchecked .runtime)
  else if e.isServerSocketChannel = false then .error .classCast
  else
    match accepted with
    | .failed => .ok (next s, [])
    | .null => .error (.unchecked .nullPointer)
    | .channel =>
        let s' := { s.setEntry s.mNextSessionID (.new (clientSession e.session) false) with
          mNextSessionID := s.mNextSessionID + 1
          loop := .handling .readable ((id, ready) :: keys) (sessionsToAdd ++ [s.mNextSessionID]) }
        .ok (s', [.clientConnected s.mNextSessionID])

def testReadable [CharData] (s : State) (incoming : Session.Incoming) (id : ℕ) (ready : Ops)
    (keys : List (ℕ × Ops)) (sessionsToAdd : List ℕ) : Except Thrown (State × List Event) :=
  let e := s.entries id
  let loop := .handling .writable ((id, ready) :: keys) sessionsToAdd
  if e.isValid = false then .error .cancelledKey
  else if ready.read = false then .ok ({ s with loop }, [])
  else if e.isServerSocketChannel then .error .classCast
  else
    match e.session.readMoreFrom incoming with
    | (_, _, .error err) => .error (.unchecked err)
    | (session, posted, .ok _) =>
        .ok ({ s.setEntry id { e with session } with loop },
          [.readMore id (s.mSessions.contains id) posted])

def testWritable (s : State) (outgoing : Session.Outgoing) (id : ℕ) (ready : Ops)
    (keys : List (ℕ × Ops)) (sessionsToAdd : List ℕ) : Except Thrown (State × List Event) :=
  let e := s.entries id
  let loop := .handling .acceptable keys sessionsToAdd
  if e.isValid = false then .error .cancelledKey
  else if ready.write = false then .ok ({ s with loop }, [])
  else if e.isServerSocketChannel then .error .classCast
  else
    match e.session.writeMoreTo outgoing with
    | .error err => .error (.unchecked err)
    | .ok w =>
        .ok ({ s.setEntry id { e with session := w.session } with loop },
          [.writeMore id (s.mSessions.contains id) w.posted])

/-! ## Calls of other threads -/

/-- `ANetworkSession.Mode`. -/
inductive Mode where
  | MODE_CREATE_UDP_SESSION
  | MODE_CREATE_TCP_DATAGRAM_SESSION_PASSIVE
  | MODE_CREATE_TCP_DATAGRAM_SESSION_ACTIVE
  | MODE_CREATE_RTSP_SERVER
  | MODE_CREATE_RTSP_CLIENT
  deriving DecidableEq, Repr

/-- The session that `createClientOrServer` constructs. -/
def Mode.entry : Mode → Entry
  | .MODE_CREATE_UDP_SESSION => .new (.new .DATAGRAM .MODE_DATAGRAM) false
  | .MODE_CREATE_TCP_DATAGRAM_SESSION_PASSIVE =>
      .new (.new .LISTENING_TCP_DGRAMS .MODE_DATAGRAM) true
  | .MODE_CREATE_TCP_DATAGRAM_SESSION_ACTIVE => .new (.new .CONNECTING .MODE_DATAGRAM) false
  | .MODE_CREATE_RTSP_SERVER => .new (.new .LISTENING_RTSP .MODE_DATAGRAM) true
  | .MODE_CREATE_RTSP_CLIENT => .new (.new .CONNECTING .MODE_RTSP) false

inductive Input where
  /-- The steps of `threadLoop`. -/
  | updateSelectionKeys
  | select (keys : List (ℕ × Ops))
  | selectFailed
  | lock
  | testAcceptable (accepted : Accepted)
  | testReadable (incoming : Session.Incoming)
  | testWritable (outgoing : Session.Outgoing)
  | unlock
  /-- `createClientOrServer`, which ends with `addSession`. -/
  | addSession (mode : Mode)
  | sendRequest (id : ℕ) (data : Data) (size : ℤ) (timeUs : Option ℤ)
  | switchToWebSocketMode (id : ℕ)
  /-- The synchronized block of `destroySession`, and its two steps after it. -/
  | destroySession (id : ℕ)
  | cancel (id : ℕ)
  | close (id : ℕ)

/-- One step; it does nothing if it is not the turn of its thread. An exception in a call of
another thread leaves that call only. -/
def step [CharData] : Machine.Step State Input Event Thrown := fun s i =>
  match i, s.loop with
  | .updateSelectionKeys, .updating => do
      let s ← updateSelectionKeys s s.mSessions
      return ({ s with loop := .selecting }, [])
  | .select keys, .selecting =>
      if keys = [] then .ok ({ s with loop := .updating }, [])
      else if Selectable s keys then .ok ({ s with loop := .selected keys }, [])
      else .ok (s, [])
  | .selectFailed, .selecting => .ok ({ s with loop := .updating }, [])
  | .lock, .selected keys => .ok ({ s with loop := .handling .acceptable keys [] }, [])
  | .testAcceptable accepted, .handling .acceptable ((id, ready) :: keys) sessionsToAdd =>
      testAcceptable s accepted id ready keys sessionsToAdd
  | .testReadable incoming, .handling .readable ((id, ready) :: keys) sessionsToAdd =>
      testReadable s incoming id ready keys sessionsToAdd
  | .testWritable outgoing, .handling .writable ((id, ready) :: keys) sessionsToAdd =>
      testWritable s outgoing id ready keys sessionsToAdd
  | .unlock, .handling .acceptable [] sessionsToAdd =>
      .ok ({ s with mSessions := s.mSessions ++ sessionsToAdd, loop := .updating }, [])
  | .addSession mode, _ =>
      if s.isLocked then .ok (s, [])
      else
        .ok ({ s.setEntry s.mNextSessionID mode.entry with
          mSessions := s.mSessions ++ [s.mNextSessionID]
          mNextSessionID := s.mNextSessionID + 1 }, [])
  | .sendRequest id data size timeUs, _ =>
      if s.isLocked ∨ id ∉ s.mSessions then .ok (s, [])
      else
        match (s.entries id).session.sendRequest data size timeUs with
        | .error _ => .ok (s, [])
        | .ok (session, _) => .ok (s.setEntry id { s.entries id with session }, [])
  | .switchToWebSocketMode id, _ =>
      if s.isLocked ∨ id ∉ s.mSessions then .ok (s, [])
      else
        let session := (s.entries id).session.switchToWebSocketMode.1
        .ok (s.setEntry id { s.entries id with session }, [])
  | .destroySession id, _ =>
      if s.isLocked ∨ id ∉ s.mSessions then .ok (s, [])
      else
        .ok ({ s.setEntry id { s.entries id with destroying := .removed } with
          mSessions := s.mSessions.filter (· != id) }, [])
  | .cancel id, _ =>
      let e := s.entries id
      if e.destroying = .removed then
        let key := e.key.map fun key => { key with isCancelled := true }
        .ok (s.setEntry id { e with key, destroying := .cancelled }, [])
      else .ok (s, [])
  | .close id, _ =>
      let e := s.entries id
      if e.destroying = .cancelled then
        .ok (s.setEntry id { e with isOpen := false, destroying := .closed }, [])
      else .ok (s, [])
  | _, _ => .ok (s, [])

end NetworkThread

end MirrorCast.ANetworkSession
