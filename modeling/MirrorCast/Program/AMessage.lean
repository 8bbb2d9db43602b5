import MirrorCast.Library.JavaString
import MirrorCast.Library.LinkedStack
import MirrorCast.Library.Machine

/-! # `AMessage`: the pool of messages

The calls of all threads are interleaved one atomic step at a time: a read or write of a
field that another thread can see. Messages are numbered in the order of their construction. -/

namespace MirrorCast.AMessage

open Java

/-! ## State -/

/-- `Integer.MIN_VALUE`. -/
def MIN_VALUE : ℤ := -2147483648

/-- The fields of a message. An `android.os.Message` counts for its target only, a handler. -/
structure Fields (V : Type) where
  mInUse : Bool
  mWaitingForResponse : Bool
  mMap : List (JString × V)
  mResponseQueue : Option ℕ
  mAWhat : ℤ
  mMsg : Option (Option ℕ)
  mNext : Option ℕ

/-- The fields after the constructor, which acquires the message. -/
def Fields.new (V : Type) : Fields V := ⟨true, false, [], none, MIN_VALUE, none, none⟩

/-- Where a call of `obtain` is. -/
inductive Obtaining where
  | get
  | readNext (cur : ℕ)
  | swap (cur : ℕ) (next : Option ℕ)
  | unlink (cur : ℕ)
  | acquire (cur : ℕ)
  | construct
  deriving DecidableEq, Repr

/-- Where a call of `dup` is, after its `obtain`. -/
inductive Copying where
  | map
  | what
  | target
  deriving DecidableEq, Repr

/-- Where a call of `recycle` is. -/
inductive Recycling where
  | checkWaiting
  | checkInUse
  | clearQueue
  | clearMap
  | clearWhat
  | clearMsg
  | get
  | link (cur : Option ℕ)
  | swap (cur : Option ℕ)
  deriving DecidableEq, Repr

/-- Where a call of `postAndAwaitResponse` is, before its `recycle`. -/
inductive Awaiting where
  | send
  | take
  | unmark (response : ℕ)
  deriving DecidableEq, Repr

/-- The call a thread is in. An `obtain` may belong to a `dup` of `source`, and a `recycle`
to a `postAndAwaitResponse` that returns `response` after it. -/
inductive Call where
  | idle
  | obtain (stage : Obtaining) (source : Option ℕ)
  | copy (source dupMsg : ℕ) (stage : Copying)
  | recycle (m : ℕ) (stage : Recycling) (response : Option ℕ)
  | await (m : ℕ) (stage : Awaiting)
  deriving DecidableEq, Repr

/-- Who has a message: nobody (it is in the pool, on the way to it, or lost), an owner that
may do with it what it likes, the thread of a `dup` or of a `postAndAwaitResponse` that is
about to send it, the receiver of a posted message, the thread that waits for a response to
it, the message it is a response to, or the thread that is about to return it as a response. -/
inductive Hold where
  | nobody
  | owner
  | dup (thread : ℕ)
  | sender (thread : ℕ)
  | receiver
  | awaiter (thread : ℕ)
  | response (message : ℕ)
  | answer (thread : ℕ)
  deriving DecidableEq, Repr

/-- A message sent to a handler; `awaited` if the sender waits for a response. -/
structure Delivery where
  handler : ℕ
  message : ℕ
  awaited : Bool
  deriving DecidableEq, Repr

/-- `dispatching` is the message whose `onMessageReceived` runs on a thread. -/
structure State (V : Type) where
  POOL : Option ℕ
  messages : ℕ → Fields V
  constructed : ℕ
  mailbox : List Delivery
  dispatching : ℕ → Option (ℕ × Bool)
  call : ℕ → Call
  hold : ℕ → Hold

def State.initial (V : Type) : State V where
  POOL := none
  messages := fun _ => .new V
  constructed := 0
  mailbox := []
  dispatching := fun _ => none
  call := fun _ => .idle
  hold := fun _ => .nobody

namespace State

variable {V : Type}

def setCall (s : State V) (t : ℕ) (c : Call) : State V :=
  { s with call := Function.update s.call t c }

def setHold (s : State V) (m : ℕ) (h : Hold) : State V :=
  { s with hold := Function.update s.hold m h }

def setMessage (s : State V) (m : ℕ) (fields : Fields V) : State V :=
  { s with messages := Function.update s.messages m fields }

end State

/-! ## Steps -/

variable {V : Type}

/-- `obtain` returns `m`. -/
def obtained (s : State V) (t m : ℕ) : Option ℕ → State V
  | none => (s.setCall t .idle).setHold m .owner
  | some source => (s.setHold m (.dup t)).setCall t (.copy source m .map)

def obtain (s : State V) (t : ℕ) (source : Option ℕ) : Obtaining → State V
  | .get =>
      match s.POOL with
      | none => s.setCall t (.obtain .construct source)
      | some cur => s.setCall t (.obtain (.readNext cur) source)
  | .readNext cur => s.setCall t (.obtain (.swap cur (s.messages cur).mNext) source)
  | .swap cur next =>
      if s.POOL = some cur then { s with POOL := next }.setCall t (.obtain (.unlink cur) source)
      else s.setCall t (.obtain .get source)
  | .unlink cur =>
      (s.setMessage cur { s.messages cur with mNext := none }).setCall t
        (.obtain (.acquire cur) source)
  | .acquire cur =>
      -- The result of `compareAndSet(false, true)` is ignored.
      obtained ((s.setCall t .idle).setMessage cur { s.messages cur with mInUse := true }) t cur
        source
  | .construct =>
      obtained ({ s with constructed := s.constructed + 1 }.setMessage s.constructed (.new V)) t
        s.constructed source

/-- `ArrayMap.putAll`. -/
def putAll (map entries : List (JString × V)) : List (JString × V) :=
  entries ++ map.filter fun entry => entries.all fun other => entry.1 != other.1

/-- What `dup` does after its `obtain`. -/
def copy (s : State V) (t source dupMsg : ℕ) : Copying → State V
  | .map =>
      (s.setMessage dupMsg { s.messages dupMsg with
        mMap := putAll (s.messages dupMsg).mMap (s.messages source).mMap }).setCall t
          (.copy source dupMsg .what)
  | .what =>
      (s.setMessage dupMsg { s.messages dupMsg with
        mAWhat := (s.messages source).mAWhat }).setCall t (.copy source dupMsg .target)
  | .target =>
      ((s.setMessage dupMsg { s.messages dupMsg with
        mMsg := (s.messages source).mMsg.or (s.messages dupMsg).mMsg }).setCall t .idle).setHold
          dupMsg .owner

/-- `recycle` returns; a response is returned after it. -/
def recycled (s : State V) (t : ℕ) : Option ℕ → State V
  | none => s.setCall t .idle
  | some response => (s.setCall t .idle).setHold response .owner

def recycle (s : State V) (t m : ℕ) (response : Option ℕ) : Recycling → State V
  | .checkWaiting =>
      if (s.messages m).mWaitingForResponse then recycled s t response
      else s.setCall t (.recycle m .checkInUse response)
  | .checkInUse =>
      if (s.messages m).mInUse then
        (s.setMessage m { s.messages m with mInUse := false }).setCall t
          (.recycle m .clearQueue response)
      else recycled s t response
  | .clearQueue =>
      (s.setMessage m { s.messages m with mResponseQueue := none }).setCall t
        (.recycle m .clearMap response)
  | .clearMap =>
      (s.setMessage m { s.messages m with mMap := [] }).setCall t (.recycle m .clearWhat response)
  | .clearWhat =>
      (s.setMessage m { s.messages m with mAWhat := MIN_VALUE }).setCall t
        (.recycle m .clearMsg response)
  | .clearMsg =>
      (s.setMessage m { s.messages m with mMsg := none }).setCall t (.recycle m .get response)
  | .get => s.setCall t (.recycle m (.link s.POOL) response)
  | .link cur =>
      (s.setMessage m { s.messages m with mNext := cur }).setCall t
        (.recycle m (.swap cur) response)
  | .swap cur =>
      if s.POOL = cur then recycled { s with POOL := some m } t response
      else s.setCall t (.recycle m .get response)

/-- `getMessage()`. -/
def Fields.getMessage (f : Fields V) : Fields V := { f with mMsg := f.mMsg.or (some none) }

/-- The target of the `android.os.Message`, if it is set. -/
def Fields.target (f : Fields V) : Option ℕ := f.mMsg.join

/-- `postAndAwaitResponse` from `sendToTarget` on; `looper` is the thread of a handler. -/
def await (looper : ℕ → ℕ) (s : State V) (t m : ℕ) : Awaiting → State V
  | .send =>
      let s := s.setMessage m (s.messages m).getMessage
      match (s.messages m).target with
      | none => (s.setCall t .idle).setHold m .owner
      | some handler =>
          if looper handler = t then (s.setCall t .idle).setHold m .owner
          else { (s.setHold m (.awaiter t)).setCall t (.await m .take) with
            mailbox := s.mailbox ++ [⟨handler, m, true⟩] }
  | .take =>
      match (s.messages m).mResponseQueue with
      | none => s
      | some response =>
          ((s.setMessage m { s.messages m with mResponseQueue := none }).setHold response
            (.answer t)).setCall t (.await m (.unmark response))
  | .unmark response =>
      ((s.setCall t (.recycle m .checkWaiting (some response))).setHold m .nobody).setMessage m
        { s.messages m with mWaitingForResponse := false }

/-- The next step of the call a thread is in. -/
def advance (looper : ℕ → ℕ) (s : State V) (t : ℕ) : State V :=
  match s.call t with
  | .idle => s
  | .obtain stage source => obtain s t source stage
  | .copy source dupMsg stage => copy s t source dupMsg stage
  | .recycle m stage response => recycle s t m response stage
  | .await m stage => await looper s t m stage

/-- Who does what next. Threads call methods of messages that they own; `postResponse` may be
called on any message. -/
inductive Input (V : Type) where
  | obtain (t : ℕ)
  | dup (t source : ℕ)
  | recycle (t m : ℕ)
  | set (m : ℕ) (key : JString) (value : V)
  | setWhat (m : ℕ) (what : ℤ)
  | setTarget (m : ℕ) (handler : Option ℕ)
  | post (m : ℕ)
  | postAndAwaitResponse (t m : ℕ)
  | postResponse (m response : ℕ)
  /-- The looper of a handler takes one of the messages sent and calls `dispatchMessage`. -/
  | deliver (k : ℕ)
  /-- `onMessageReceived` returns to `dispatchMessage`. -/
  | finish (t : ℕ)
  /-- A thread that waits for a response is interrupted. -/
  | interrupt (t : ℕ)
  | advance (t : ℕ)

/-- The state after a step; it stays as it is if the step is not possible. -/
def next (looper : ℕ → ℕ) (s : State V) : Input V → State V
  | .obtain t => if s.call t = .idle then s.setCall t (.obtain .get none) else s
  | .dup t source =>
      if s.call t = .idle ∧ source < s.constructed then s.setCall t (.obtain .get (some source))
      else s
  | .recycle t m =>
      if s.call t = .idle ∧ s.hold m = .owner then
        (s.setHold m .nobody).setCall t (.recycle m .checkWaiting none)
      else s
  | .set m key value =>
      if s.hold m = .owner then
        s.setMessage m { s.messages m with mMap := putAll (s.messages m).mMap [(key, value)] }
      else s
  | .setWhat m what =>
      if s.hold m = .owner then s.setMessage m { s.messages m with mAWhat := what } else s
  | .setTarget m handler =>
      if s.hold m = .owner then s.setMessage m { s.messages m with mMsg := some handler } else s
  | .post m =>
      if s.hold m = .owner then
        let s := s.setMessage m (s.messages m).getMessage
        match (s.messages m).target with
        | none => s
        | some handler =>
            { s.setHold m .receiver with mailbox := s.mailbox ++ [⟨handler, m, false⟩] }
      else s
  | .postAndAwaitResponse t m =>
      if s.call t = .idle ∧ s.hold m = .owner ∧ (s.messages m).mWaitingForResponse = false then
        ((s.setMessage m { s.messages m with mWaitingForResponse := true }).setHold m
          (.sender t)).setCall t (.await m .send)
      else s
  | .postResponse m response =>
      if s.hold response = .owner ∧ m < s.constructed ∧ (s.messages m).mResponseQueue = none then
        (s.setHold response (.response m)).setMessage m
          { s.messages m with mResponseQueue := some response }
      else s
  | .deliver k =>
      match s.mailbox[k]? with
      | none => s
      | some d =>
          let t := looper d.handler
          if s.call t = .idle ∧ s.dispatching t = none then
            { s with
              mailbox := s.mailbox.eraseIdx k
              dispatching := Function.update s.dispatching t (some (d.message, d.awaited)) }
          else s
  | .finish t =>
      match s.call t, s.dispatching t with
      | .idle, some (m, awaited) =>
          let s := { s with dispatching := Function.update s.dispatching t none }
          let s := if awaited then s else s.setHold m .nobody
          s.setCall t (.recycle m .checkWaiting none)
      | _, _ => s
  | .interrupt t =>
      match s.call t with
      | .await _ .take => s.setCall t .idle
      | _ => s
  | .advance t => advance looper s t

def step (looper : ℕ → ℕ) : Machine.Step (State V) (Input V) Unit Unit :=
  fun s i => .ok (next looper s i, [])

end MirrorCast.AMessage
