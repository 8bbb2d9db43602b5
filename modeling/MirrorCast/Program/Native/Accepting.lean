import MirrorCast.Library.Machine
import Mathlib.Data.Int.Notation
import Mathlib.Logic.Function.Basic

/-! # `MediaServer.cpp`: the accept loop and the sockets of the receive threads -/

namespace MirrorCast.Native.Accepting

/-- The globals with a `1` and those with a `2` in their names. -/
inductive Slot where
  | one
  | two
  deriving DecidableEq, Repr

/-- The steps of `close_client_sock`. -/
inductive Close where
  /-- `*client_sock_fd != -1` is next. -/
  | testing
  /-- `close(*client_sock_fd)` is next. -/
  | closing
  /-- `*client_sock_fd = -1` is next. -/
  | clearing
  deriving DecidableEq, Repr

/-- How far `server_accept` is with the connection it has accepted. -/
inductive Loop where
  | accepting
  /-- `which_client = 0` is next. -/
  | resetting (fd conn : ℕ)
  /-- `client_sock_fd1 == -1` or `client_sock_fd2 == -1` is next. -/
  | testing (slot : Slot) (onlyOne : Bool) (fd conn : ℕ)
  | replacing (close : Close) (slot : Slot) (fd conn : ℕ)
  | sleeping (slot : Slot) (fd conn : ℕ)
  /-- `which_client` is written next. -/
  | numbering (slot : Slot) (fd conn : ℕ)
  /-- `client_sock_fd1` or `client_sock_fd2` is written next. -/
  | assigning (slot : Slot) (fd conn : ℕ)
  /-- `pthread_create` is next. -/
  | creating (conn : ℕ)
  /-- In `server_close_all`. -/
  | closing (close : Close) (slot : Slot)
  | ended
  deriving DecidableEq, Repr

/-- The calls of `read_data` in `receive_data`. -/
inductive Stage where
  | infoLength
  | info
  | firstLength
  | firstSpsPps
  | secondLength
  | secondSpsPps
  | frameLength
  | frame
  deriving DecidableEq, Repr

/-- How far a receive thread is. -/
inductive Receive where
  /-- `*argc` is read next. -/
  | starting
  /-- `client_sock_fd1` or `client_sock_fd2` is read next. -/
  | opening (slot : Slot)
  /-- `client_info1` or `client_info2` is cleared next. -/
  | clearing (slot : Slot) (fd : Option ℕ)
  | reading (slot : Slot) (fd : Option ℕ) (stage : Stage)
  /-- What was read is stored next: in `client_info1` or `client_info2`, by `setSpsPps` or by
  `putData`. -/
  | filling (slot : Slot) (fd : Option ℕ) (stage : Stage)
  | closing (close : Close) (slot : Slot)
  | ended
  deriving DecidableEq, Repr

/-- A receive thread, and the connection and slot it was created for. -/
structure Thread where
  conn : ℕ
  slot : Option Slot
  receive : Receive
  deriving DecidableEq, Repr

/-- What a thread does to a connection or a slot. -/
inductive Action where
  | reads (conn : ℕ)
  | clears (slot : Slot)
  | fills (slot : Slot)
  | closes (conn : ℕ)
  deriving DecidableEq, Repr

/-- An action of a thread that was created for `conn` and `slot`. -/
structure Event where
  conn : ℕ
  slot : Option Slot
  action : Action
  deriving DecidableEq, Repr

/-- The globals, the open sockets by their numbers, and the threads; `-1` and the number of no
client are `none`. -/
structure State where
  client_sock_fd : Slot → Option ℕ
  which_client : Option Slot
  sockets : ℕ → Option ℕ
  accepted : ℕ
  loop : Loop
  threads : List Thread

def State.initial : State where
  client_sock_fd := fun _ => none
  which_client := none
  sockets := fun _ => none
  accepted := 0
  loop := .accepting
  threads := []

/-- What the accept loop finds: the number `accept` returns, and the globals it reads. -/
structure Environment where
  fd : Option ℕ
  server_is_live : Bool
  what_is_device : ℤ
  MAXIMUM_NUMBER : ℤ
  which_replace : ℤ
  deriving DecidableEq, Repr

/-- How a `read` goes on. -/
inductive Read where
  | more
  /-- All bytes are there; a length is positive or not. -/
  | whole (positive : Bool)
  | fails
  deriving DecidableEq, Repr

/-- Who moves next. -/
inductive Input where
  | server_accept (e : Environment)
  | receive_data (thread : ℕ) (read : Read)
  deriving DecidableEq, Repr

def Environment.onlyOne (e : Environment) : Bool :=
  if e.what_is_device ≠ 4 then true else e.MAXIMUM_NUMBER == 1

/-- `close` of a number. -/
def State.close (s : State) : Option ℕ → State
  | some fd => { s with sockets := Function.update s.sockets fd none }
  | none => s

/-- `client_sock_fd1 = fd` or `client_sock_fd2 = fd`. -/
def State.assign (s : State) (slot : Slot) (fd : Option ℕ) : State :=
  { s with client_sock_fd := Function.update s.client_sock_fd slot fd }

/-- A step of `close_client_sock(&client_sock_fd1)` or `(&client_sock_fd2)`, and what is next. -/
def closeClientSock (s : State) (slot : Slot) : Close → State × Option Close
  | .testing => (s, if s.client_sock_fd slot = none then none else some .closing)
  | .closing => (s.close (s.client_sock_fd slot), some .clearing)
  | .clearing => (s.assign slot none, none)

/-- The next step of `server_accept`. -/
def server_accept (s : State) (e : Environment) : State :=
  match s.loop with
  | .accepting =>
      match e.fd with
      | none => { s with loop := if e.server_is_live then .accepting else .closing .testing .one }
      | some fd =>
          if s.sockets fd = none then
            let conn := s.accepted
            { s with
              sockets := Function.update s.sockets fd (some conn)
              accepted := s.accepted + 1
              loop := if e.server_is_live then .resetting fd conn else .closing .testing .one }
          else s
  | .resetting fd conn =>
      { s with which_client := none, loop := .testing .one e.onlyOne fd conn }
  | .testing slot onlyOne fd conn =>
      let loop :=
        if s.client_sock_fd slot = none then .numbering slot fd conn
        else if onlyOne then .replacing .testing .one fd conn
        else
          match slot with
          | .one => .testing .two onlyOne fd conn
          | .two =>
              if e.which_replace = 1 then .replacing .testing .one fd conn
              else if e.which_replace = 2 then .replacing .testing .two fd conn
              else .creating conn
      { s with loop }
  | .replacing close slot fd conn =>
      let (s, next) := closeClientSock s slot close
      { s with
        loop := match next with
          | some close => .replacing close slot fd conn
          | none => .sleeping slot fd conn }
  | .sleeping slot fd conn => { s with loop := .numbering slot fd conn }
  | .numbering slot fd conn =>
      { s with which_client := some slot, loop := .assigning slot fd conn }
  | .assigning slot fd conn => { s.assign slot (some fd) with loop := .creating conn }
  | .creating conn =>
      { s with
        threads := s.threads ++ [⟨conn, s.which_client, .starting⟩]
        loop := if e.server_is_live then .accepting else .closing .testing .one }
  | .closing close slot =>
      let (s, next) := closeClientSock s slot close
      { s with
        loop := match next, slot with
          | some close, slot => .closing close slot
          | none, .one => .closing .testing .two
          | none, .two => .ended }
  | .ended => s

/-- What a thread does after a `read`. Only in the loop over the frames a failing `read` is the
last one. -/
def afterRead (slot : Slot) (fd : Option ℕ) (stage : Stage) (read : Read) : Receive :=
  match stage, read with
  | stage, .more => .reading slot fd stage
  | .infoLength, .whole true => .reading slot fd .info
  | .infoLength, _ => .reading slot fd .firstLength
  | .info, .whole _ => .filling slot fd .firstLength
  | .info, .fails => .reading slot fd .firstLength
  | .firstLength, .whole true => .reading slot fd .firstSpsPps
  -- nothing is read and setSpsPps is called
  | .firstLength, .whole false => .filling slot fd .secondLength
  | .firstSpsPps, .whole _ => .filling slot fd .secondLength
  | .firstLength, .fails | .firstSpsPps, .fails => .reading slot fd .secondLength
  | .secondLength, .whole true => .reading slot fd .secondSpsPps
  | .secondLength, .whole false => .filling slot fd .frameLength
  | .secondSpsPps, .whole _ => .filling slot fd .frameLength
  | .secondLength, .fails | .secondSpsPps, .fails => .reading slot fd .frameLength
  | .frameLength, .whole true => .reading slot fd .frame
  | .frameLength, .whole false => .reading slot fd .frameLength
  | .frame, .whole _ => .filling slot fd .frameLength
  | .frameLength, .fails | .frame, .fails => .closing .testing slot

/-- The next step of `receive_data` in a thread. -/
def receive_data (s : State) (thread : Thread) (read : Read) : State × Receive × List Action :=
  match thread.receive with
  | .starting =>
      match s.which_client with
      | some slot => (s, .opening slot, [])
      | none => (s, .ended, [])
  | .opening slot => (s, .clearing slot (s.client_sock_fd slot), [])
  | .clearing slot fd => (s, .reading slot fd .infoLength, [.clears slot])
  | .reading slot fd stage =>
      match fd.bind s.sockets with
      | some conn => (s, afterRead slot fd stage read, [.reads conn])
      | none => (s, afterRead slot fd stage .fails, [])
  | .filling slot fd stage => (s, .reading slot fd stage, [.fills slot])
  | .closing close slot =>
      let closed :=
        if close = .closing then (s.client_sock_fd slot).bind s.sockets else none
      let (s, next) := closeClientSock s slot close
      let receive :=
        match next with
        | some close => .closing close slot
        | none => .ended
      (s, receive, closed.toList.map .closes)
  | .ended => (s, .ended, [])

def step : Machine.Step State Input Event Empty := fun s i =>
  match i with
  | .server_accept e => .ok (server_accept s e, [])
  | .receive_data k read =>
      match s.threads[k]? with
      | none => .ok (s, [])
      | some thread =>
          let (s, receive, actions) := receive_data s thread read
          .ok ({ s with threads := s.threads.set k { thread with receive } },
            actions.map fun action => ⟨thread.conn, thread.slot, action⟩)

end MirrorCast.Native.Accepting
