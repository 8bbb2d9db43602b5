import MirrorCast.Program.Native.MediaData

/-! # `MediaData.cpp`: `putData` and `getData` of one client, in threads that come and go -/

namespace MirrorCast.Native.Waiting

/-- How far a decode thread is. -/
inductive Decoder where
  /-- `*isPlaying` is read next, in `startDecoder`. -/
  | looping
  /-- `pthread_mutex_lock` is next, in `getData`. -/
  | locking
  /-- In `pthread_cond_wait`, and whether a signal has unblocked it. -/
  | waiting (signalled : Bool)
  /-- `isPlaying1 = false` is next, in `free1`. -/
  | ending
  /-- `list1.size()` is next, in `free1`. -/
  | freeing
  /-- The loop over the frames is next, in `free1`. -/
  | iterating
  /-- `list1.clear()` is next, in `free1`. -/
  | clearing
  | ended
  deriving DecidableEq, Repr

/-- How far a call of `startMediaCodec` is. -/
inductive Starter where
  /-- `isPlaying1` and the codec, format and surface are tested next. -/
  | testing
  /-- `isPlaying1 = true` is next. -/
  | playing
  /-- `isPlaying1` is tested again next. -/
  | retesting
  /-- `pthread_create` is next. -/
  | creating
  | ended
  deriving DecidableEq, Repr

/-- How the process dies. -/
inductive Crash where
  /-- `front()` and `pop_front()` of an empty list. -/
  | emptyList
  /-- `free` of an address that `malloc` did not return. -/
  | invalidFree
  deriving DecidableEq, Repr

/-- The globals of the client and the threads; `stopping` counts those that have written
`isPlaying1 = false` and signal `cond1` next. -/
structure State where
  list : List Data
  isPlaying : Bool
  decoders : List Decoder
  starters : List Starter
  stopping : ℕ
  deriving DecidableEq, Repr

def State.initial : State where
  list := []
  isPlaying := false
  decoders := []
  starters := []
  stopping := 0

/-- Who moves next. Which of the waiting threads a signal unblocks is up to the system. -/
inductive Input where
  | putData (data : Data) (unblocked : List ℕ)
  /-- `startMediaCodec` is called. -/
  | connect
  /-- A call of `startMediaCodec` goes on; `ready` says whether there are a codec, a format and a
  surface. -/
  | startMediaCodec (caller : ℕ) (ready : Bool)
  /-- `isPlaying1 = false`, at the end of `receive_data` or in `close_all_clients`. -/
  | stop
  /-- The signal after it. -/
  | signal (unblocked : List ℕ)
  /-- A decode thread goes on; `ret` is what feeding the frame it gets returns. -/
  | startDecoder (thread : ℕ) (ret : Bool)
  deriving DecidableEq, Repr

/-- `pthread_cond_signal`. -/
def unblock (decoders : List Decoder) (unblocked : List ℕ) : List Decoder :=
  decoders.mapIdx fun k decoder =>
    if k ∈ unblocked ∧ decoder = .waiting false then .waiting true else decoder

def State.moveDecoder (s : State) (thread : ℕ) (decoder : Decoder) : State :=
  { s with decoders := s.decoders.set thread decoder }

def State.moveStarter (s : State) (caller : ℕ) (starter : Starter) : State :=
  { s with starters := s.starters.set caller starter }

/-- `list1.front()` and `list1.pop_front()`. -/
def pop (s : State) (thread : ℕ) (ret : Bool) (list : List Data) : Except Crash State :=
  match list with
  | [] => .error .emptyList
  | _ :: list => .ok (State.moveDecoder { s with list } thread (if ret then .looping else .ending))

def startDecoder (s : State) (thread : ℕ) (ret : Bool) : Except Crash State :=
  match s.decoders[thread]? with
  | some .looping => .ok (s.moveDecoder thread (if s.isPlaying then .locking else .ending))
  | some .locking =>
      let list := MediaData.drainFrame s.list
      if list = [] then .ok (State.moveDecoder { s with list } thread (.waiting false))
      else pop s thread ret list
  | some (.waiting _) =>
      -- whatever has ended the wait, only `isPlaying1` is tested
      if s.isPlaying then pop s thread ret s.list else .ok (s.moveDecoder thread .ending)
  | some .ending => .ok (State.moveDecoder { s with isPlaying := false } thread .freeing)
  | some .freeing => .ok (s.moveDecoder thread (if s.list = [] then .ended else .iterating))
  | some .iterating =>
      -- `free(&data)` is given the address of a local variable
      if s.list = [] then .ok (s.moveDecoder thread .clearing) else .error .invalidFree
  | some .clearing => .ok (State.moveDecoder { s with list := [] } thread .ended)
  | some .ended => .ok s
  | none => .ok s

def startMediaCodec (s : State) (caller : ℕ) (ready : Bool) : State :=
  match s.starters[caller]? with
  | some .testing =>
      s.moveStarter caller (if s.isPlaying = true ∨ ready = false then .ended else .playing)
  | some .playing => State.moveStarter { s with isPlaying := true } caller .retesting
  | some .retesting => s.moveStarter caller (if s.isPlaying then .creating else .ended)
  | some .creating => State.moveStarter { s with decoders := s.decoders ++ [.looping] } caller .ended
  | some .ended => s
  | none => s

def next (s : State) : Input → Except Crash State
  | .putData data unblocked =>
      .ok { s with list := s.list ++ [data], decoders := unblock s.decoders unblocked }
  | .connect => .ok { s with starters := s.starters ++ [.testing] }
  | .startMediaCodec caller ready => .ok (startMediaCodec s caller ready)
  | .stop => .ok { s with isPlaying := false, stopping := s.stopping + 1 }
  | .signal unblocked =>
      .ok (if s.stopping = 0 then s
        else { s with decoders := unblock s.decoders unblocked, stopping := s.stopping - 1 })
  | .startDecoder thread ret => startDecoder s thread ret

def step : Machine.Step State Input Empty Crash := fun s i => do
  let s ← next s i
  return (s, [])

end MirrorCast.Native.Waiting
