import MirrorCast.Library.BlockingQueue
import MirrorCast.Library.JavaString
import MirrorCast.Library.Machine
import MirrorCast.Program.MediaClient

/-! # `MyJni`: the client info, the play queue and its two threads -/

namespace MirrorCast.MyJni

open Java MediaClient BlockingQueue

/-! ## `DO_SOMETHING_CODE_Client_set_info` -/

def FLAG : JString := jstr "@@@@@"

/-- `infos[0]` to `infos[4]` in `jni2Java`. -/
def infos (client_info : JString) : Except JavaException (List JString) :=
  let infos := split FLAG client_info
  if infos.length < 5 then .error .arrayIndexOutOfBounds else .ok (infos.take 5)

/-! ## Frames -/

def QUEUE_LENGTH : ℕ := 50

/-- `frame[frame.length - 1]`. -/
def flags (frame : List UInt8) : Except JavaException UInt8 :=
  match frame.getLast? with
  | some flags => .ok flags
  | none => .error .arrayIndexOutOfBounds

/-- The test of `drainFrame()`. -/
def isKeyFrame (frame : List UInt8) : Except JavaException Bool := do
  let flags ← flags frame
  return flags == BUFFER_FLAG_KEY_FRAME

/-- The test of `drainFrame(queue, takeCount)`. -/
def hasKeyFlag (frame : List UInt8) : Except JavaException Bool := do
  let flags ← flags frame
  return (flags &&& BUFFER_FLAG_KEY_FRAME) != 0

/-! ## `drainFrame(queue, takeCount)` on a queue that nothing else changes -/

/-- The search for the first key frame: whether the last frame looked at is one, and how many
were looked at. -/
def firstScan (firstKeyFrame : Bool) (count : ℕ) :
    List (List UInt8) → Except JavaException (Bool × ℕ)
  | [] => .ok (firstKeyFrame, count)
  | frame :: queue => do
      let firstKeyFrame ← hasKeyFlag frame
      if firstKeyFrame then return (true, count + 1) else firstScan false (count + 1) queue

def firstPass : List (List UInt8) → Except JavaException (List (List UInt8))
  | [] => .ok []
  | frame :: queue => do
      if ← hasKeyFlag frame then return frame :: queue else firstPass queue

def secondScan (firstKeyFrame secondKeyFrame : Bool) :
    List (List UInt8) → Except JavaException (Bool × Bool)
  | [] => .ok (firstKeyFrame, secondKeyFrame)
  | frame :: queue => do
      let firstKeyFrame ← hasKeyFlag frame
      if firstKeyFrame && secondKeyFrame then return (true, true)
      else secondScan firstKeyFrame (firstKeyFrame || secondKeyFrame) queue

/-- The iterator of the second pass goes on behind the first key frame. -/
def secondPass (secondKeyFrame : Bool) : List (List UInt8) →
    Except JavaException (List (List UInt8))
  | [] => .ok []
  | frame :: queue => do
      if ← hasKeyFlag frame then
        if secondKeyFrame then return frame :: queue
        else return frame :: (← secondPass true queue)
      else secondPass secondKeyFrame queue

/-- `drainFrame(queue, takeCount)`: the frames it leaves in the queue. -/
def drainFrame (queue : List (List UInt8)) (takeCount : ℕ) :
    Except JavaException (List (List UInt8)) :=
  let size1 := queue.length
  if takeCount < 10 then .ok queue
  else do
    let (firstKeyFrame, count) ← firstScan false 0 queue
    if firstKeyFrame ∧ 1 < count then
      let queue ← firstPass queue
      let size2 := queue.length
      if size2 < size1 then
        let (firstKeyFrame, secondKeyFrame) ← secondScan firstKeyFrame false queue
        if firstKeyFrame ∧ secondKeyFrame then secondPass false queue else return queue
      else return queue
    else return queue

/-- An array given to `putData`, with its place among all arrays given. -/
structure Item where
  number : ℕ
  frame : List UInt8
  deriving DecidableEq, Repr

/-! ## The copy `drainFrame()` edits -/

/-- The last index whose frame is a key frame, looked for from the end. -/
def lastKey : List Item → Except JavaException (Option ℕ)
  | [] => .ok none
  | x :: xs => do
      match ← lastKey xs with
      | some index => return some (index + 1)
      | none =>
          let key ← isKeyFrame x.frame
          return if key then some 0 else none

/-- `n` rounds of `list.remove(i)`, each with the next `i`. -/
def prune : ℕ → ℕ → List Item → Except JavaException (List Item)
  | 0, _, list => .ok list
  | n + 1, i, list =>
      if i < list.length then prune n (i + 1) (list.eraseIdx i)
      else .error .arrayIndexOutOfBounds

/-- What `drainFrame()` writes back for the copy it took: nothing without a key frame. -/
def pruned (list : List Item) : Except JavaException (Option (List Item)) := do
  match ← lastKey list with
  | none => return none
  | some index =>
      let list ← prune (list.length - (index + 1)) (index + 1) list
      return some list

/-- `drainFrame()` on a queue that nothing else changes: the frames it leaves there. -/
def drainPlayQueue (queue : List Item) : List Item :=
  match pruned queue with
  | .ok list => list.getD []
  | .error _ => queue

/-! ## Threads -/

/-- How far the receive thread is in `drainFrame()`. -/
inductive Producer where
  | idle
  /-- The queue was not empty; `list.addAll(mPlayQueue1)` is next. -/
  | snapshot
  /-- `mPlayQueue1.clear()` is next, and then the copy, if any, goes back. -/
  | clearing (list : Option (List Item))
  /-- Inside `mPlayQueue1.addAll(list)`. -/
  | adding (list : List Item)
  deriving DecidableEq, Repr

/-- How far the decode thread is in `getData`. The scans and passes over the queue are
those of `drainFrame(queue, takeCount)`. -/
inductive Consumer where
  | idle
  | beforeFirstScan (size1 : ℕ)
  | firstScan (size1 : ℕ) (it : Iterator Item) (count : ℕ)
  | beforeFirstPass (size1 : ℕ)
  | firstPass (size1 : ℕ) (it : Iterator Item)
  | firstRemoval (size1 : ℕ) (it : Iterator Item) (ticket : ℕ)
  | measuring (size1 : ℕ)
  | beforeSecondScan
  | secondScan (it : Iterator Item) (firstKeyFrame secondKeyFrame : Bool)
  | beforeSecondPass
  /-- `dropped` records whether the pass has removed a frame. -/
  | secondPass (it : Iterator Item) (secondKeyFrame dropped : Bool)
  | secondRemoval (it : Iterator Item) (secondKeyFrame : Bool) (ticket : ℕ)
  | taking
  deriving DecidableEq, Repr

/-- The fields of client 1, with the history of what was given and returned; a call of
`getData` that ends in a caught exception returns null. -/
structure State where
  mPlayQueue1 : Queue Item
  mTakeCount1 : ℕ
  producer : Producer
  consumer : Consumer
  given : List Item
  returned : List (Option Item)

def State.initial : State where
  mPlayQueue1 := .empty
  mTakeCount1 := 0
  producer := .idle
  consumer := .idle
  given := []
  returned := []

/-- Who moves next. -/
inductive Input where
  /-- The receive thread calls `putData`. -/
  | putData (frame : List UInt8)
  /-- The receive thread calls `drainFrame()`. -/
  | drainFrame
  /-- The next queue operation of a `drainFrame()` under way. -/
  | producer
  /-- The next queue operation of the decode thread, which calls `getData` over and over. -/
  | consumer
  /-- The iterator of the decode thread comes to reflect later insertions. -/
  | reveal (n : ℕ)
  /-- The iterator of the decode thread comes to reflect a removal. -/
  | forget (ticket : ℕ)
  deriving DecidableEq, Repr

/-- `mPlayQueue1.put(frame)`, which waits while the queue is full. -/
def putData (s : State) (frame : List UInt8) : State :=
  let item : Item := ⟨s.given.length, frame⟩
  match s.mPlayQueue1.offer QUEUE_LENGTH item with
  | some queue => { s with mPlayQueue1 := queue, given := s.given ++ [item] }
  | none => s

/-- `drainFrame()`, one queue operation at a time. -/
def produce (s : State) : State :=
  match s.producer with
  | .idle => s
  | .snapshot =>
      match pruned s.mPlayQueue1.values with
      | .ok list => { s with producer := .clearing list }
      | .error _ => { s with producer := .idle }
  | .clearing none => { s with mPlayQueue1 := s.mPlayQueue1.clear, producer := .idle }
  | .clearing (some list) => { s with mPlayQueue1 := s.mPlayQueue1.clear, producer := .adding list }
  | .adding [] => { s with producer := .idle }
  | .adding (x :: list) =>
      match s.mPlayQueue1.offer QUEUE_LENGTH x with
      | some queue => { s with mPlayQueue1 := queue, producer := .adding list }
      | none => { s with producer := .idle }

/-- What a scan or pass does with the frame its iterator returns next. -/
def look (s : State) (it : Iterator Item) (finished : Consumer)
    (frame : Cell Item → Iterator Item → Bool → Consumer) : State :=
  match it.ahead with
  | [] => { s with consumer := finished }
  | c :: ahead =>
      match hasKeyFlag c.value.frame with
      | .ok key => { s with consumer := frame c { it with ahead } key }
      | .error _ => { s with consumer := .idle, returned := s.returned ++ [none] }

/-- `getData`, one queue operation at a time. -/
def consume (s : State) : State :=
  match s.consumer with
  | .idle =>
      let size1 := s.mPlayQueue1.size
      let consumer := if 10 ≤ s.mTakeCount1 then .beforeFirstScan size1 else .taking
      { s with mTakeCount1 := s.mTakeCount1 + 1, consumer }
  | .beforeFirstScan size1 =>
      { s with consumer := .firstScan size1 s.mPlayQueue1.iterator 0 }
  | .firstScan size1 it count =>
      look s it .taking fun _ it key =>
        if key then if 1 < count + 1 then .beforeFirstPass size1 else .taking
        else .firstScan size1 it (count + 1)
  | .beforeFirstPass size1 => { s with consumer := .firstPass size1 s.mPlayQueue1.iterator }
  | .firstPass size1 it =>
      look s it (.measuring size1) fun c it key =>
        if key then .measuring size1 else .firstRemoval size1 it c.ticket
  | .firstRemoval size1 it ticket =>
      { s with mPlayQueue1 := s.mPlayQueue1.remove ticket, consumer := .firstPass size1 it }
  | .measuring size1 =>
      { s with consumer := if s.mPlayQueue1.size < size1 then .beforeSecondScan else .taking }
  | .beforeSecondScan => { s with consumer := .secondScan s.mPlayQueue1.iterator true false }
  | .secondScan it firstKeyFrame secondKeyFrame =>
      look s it (if firstKeyFrame && secondKeyFrame then .beforeSecondPass else .taking)
        fun _ it key =>
          if key && secondKeyFrame then .beforeSecondPass
          else .secondScan it key (key || secondKeyFrame)
  | .beforeSecondPass => { s with consumer := .secondPass s.mPlayQueue1.iterator false false }
  | .secondPass it secondKeyFrame dropped =>
      look s it .taking fun c it key =>
        if key then if secondKeyFrame then .taking else .secondPass it true dropped
        else .secondRemoval it secondKeyFrame c.ticket
  | .secondRemoval it secondKeyFrame ticket =>
      { s with
        mPlayQueue1 := s.mPlayQueue1.remove ticket
        consumer := .secondPass it secondKeyFrame true }
  | .taking =>
      match s.mPlayQueue1.poll with
      | some (item, queue) =>
          { s with mPlayQueue1 := queue, consumer := .idle, returned := s.returned ++ [some item] }
      | none => s

/-- A change of the iterator the decode thread is working with, if any. -/
def Consumer.mapIterator (f : Iterator Item → Iterator Item) : Consumer → Consumer
  | .firstScan size1 it count => .firstScan size1 (f it) count
  | .firstPass size1 it => .firstPass size1 (f it)
  | .firstRemoval size1 it ticket => .firstRemoval size1 (f it) ticket
  | .secondScan it first second => .secondScan (f it) first second
  | .secondPass it second dropped => .secondPass (f it) second dropped
  | .secondRemoval it second ticket => .secondRemoval (f it) second ticket
  | c => c

/-- One step of one thread. A thread that has to wait, or has nothing to do, stays. -/
def next (s : State) : Input → State
  | .putData frame => if s.producer = .idle then putData s frame else s
  | .drainFrame =>
      if s.producer = .idle ∧ s.mPlayQueue1.values ≠ [] then { s with producer := .snapshot }
      else s
  | .producer => produce s
  | .consumer => consume s
  | .reveal n =>
      let queue := s.mPlayQueue1
      { s with consumer := s.consumer.mapIterator fun it => it.reveal queue (min n queue.issued) }
  | .forget ticket =>
      { s with consumer := s.consumer.mapIterator fun it => it.forget s.mPlayQueue1 ticket }

def step : Machine.Step State Input Empty JavaException := fun s i => .ok (next s i, [])

end MirrorCast.MyJni
