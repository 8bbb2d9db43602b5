import MirrorCast.Library.C
import MirrorCast.Library.Machine

/-! # `MediaData.cpp`: the frames waiting for the decoder, and the decode thread -/

namespace MirrorCast.Native

/-- The bytes of a queued frame. -/
structure Data where
  data : List UInt8
  size_pos : 0 < data.length
  deriving DecidableEq, Repr

namespace Data

/-- `data->data[data->size - 1]`. -/
def flags (d : Data) : UInt8 := d.data.get ⟨d.data.length - 1, Nat.sub_lt d.size_pos Nat.one_pos⟩

def isKey (d : Data) : Bool := (d.flags &&& 1) != 0

/-- `frame[size - 2]`. -/
def orientation (d : Data) : Except C.Undefined UInt8 :=
  match d.data.dropLast.getLast? with
  | some orientation => .ok orientation
  | none => .error .outOfBounds

end Data

namespace MediaData

/-! ## Dropping frames -/

/-- The search for the first key frame: whether the last frame looked at is one, and how many
were looked at. -/
def firstScan (firstKeyFrame : Bool) (count : ℕ) : List Data → Bool × ℕ
  | [] => (firstKeyFrame, count)
  | data :: list =>
      if data.isKey then (true, count + 1) else firstScan false (count + 1) list

/-- Frames leave at the front up to the first key frame. -/
def firstPass : List Data → List Data
  | [] => []
  | data :: list => if data.isKey then data :: list else firstPass list

/-- The search for the second key frame. -/
def secondScan (firstKeyFrame secondKeyFrame : Bool) (count : ℕ) :
    List Data → Bool × Bool × ℕ
  | [] => (firstKeyFrame, secondKeyFrame, count)
  | data :: list =>
      if data.isKey && secondKeyFrame then (true, true, count + 1)
      else secondScan data.isKey (data.isKey || secondKeyFrame) (count + 1) list

/-- The second pass looks at the front of the list, too: a key frame stays there. -/
def secondPass (secondKeyFrame : Bool) : List Data → List Data
  | [] => []
  | data :: list =>
      if data.isKey = false then secondPass secondKeyFrame list
      else if secondKeyFrame then data :: list
      else secondPass true (data :: list)
termination_by list => 2 * list.length + if secondKeyFrame then 0 else 1
decreasing_by
  · rw [List.length_cons]
    omega
  · rename_i hsecond
    rw [if_neg hsecond, if_pos trivial]
    omega

/-- The static `drainFrame(list)`. -/
def drainFrame (list : List Data) : List Data :=
  let size1 := list.length
  let (firstKeyFrame, count) := firstScan false 0 list
  if firstKeyFrame ∧ 1 < count then
    let list := firstPass list
    let size2 := list.length
    if size2 < size1 then
      let (firstKeyFrame, secondKeyFrame, count) := secondScan false false 0 list
      if firstKeyFrame ∧ secondKeyFrame ∧ 2 < count then secondPass false list else list
    else list
  else list

/-! ## The decode thread -/

/-- How far the decode thread is in `startDecoder`; each read of `isCurPortrait` is a step of
its own. -/
inductive Decoder where
  /-- `isPrePortrait = isCurPortrait` is next. -/
  | starting
  | looping
  | getting
  /-- In `pthread_cond_wait`. -/
  | waiting
  /-- The frame is tested against `isCurPortrait` next. -/
  | testing (data : Data)
  | comparing (data : Data)
  /-- `isPrePortrait` differed; `isCurPortrait` chooses the SPS and PPS next. -/
  | choosing (data : Data)
  | configuring (data : Data) (isPortrait : Bool)
  | remembering (data : Data)
  | feeding (data : Data)
  | ended
  deriving DecidableEq, Repr

/-- What is passed to `feedInputBufferAndDrainOutputBuffer`. -/
inductive Fed where
  | sps_pps_frame (isPortrait : Bool)
  | frame (data : Data)
  deriving DecidableEq, Repr

/-- The globals of one client. -/
structure State where
  isCurPortrait : Bool
  isPrePortrait : Bool
  isPlaying : Bool
  list : List Data
  decoder : Decoder
  deriving DecidableEq, Repr

/-- The decode thread has been created. -/
def State.initial (isCurPortrait : Bool) : State where
  isCurPortrait
  isPrePortrait := true
  isPlaying := true
  list := []
  decoder := .starting

/-- Who moves next. -/
inductive Input where
  | setOrientation (orientation : ℕ)
  | putData (data : Data)
  /-- The receive thread ends and writes `isPlaying`. -/
  | stop
  /-- The decode thread; `ret` is what feeding a frame returns. -/
  | startDecoder (ret : Bool)
  deriving DecidableEq, Repr

/-- The next step of `startDecoder`. -/
def startDecoder (s : State) (ret : Bool) : Except C.Undefined (State × List Fed) :=
  match s.decoder with
  | .starting => .ok ({ s with isPrePortrait := s.isCurPortrait, decoder := .looping }, [])
  | .looping => .ok ({ s with decoder := if s.isPlaying then .getting else .ended }, [])
  | .getting =>
      match drainFrame s.list with
      | [] => .ok ({ s with list := [], decoder := .waiting }, [])
      | data :: list => .ok ({ s with list, decoder := .testing data }, [])
  | .waiting =>
      -- the list is not looked at again before the front of it is taken
      if s.isPlaying then
        match s.list with
        | [] => .error .outOfBounds
        | data :: list => .ok ({ s with list, decoder := .testing data }, [])
      else .ok ({ s with decoder := .ended }, [])
  | .testing data => do
      let orientation ← data.orientation
      if orientation = 1 ∧ s.isCurPortrait = false then return ({ s with decoder := .looping }, [])
      else if orientation = 2 ∧ s.isCurPortrait = true then
        return ({ s with decoder := .looping }, [])
      else return ({ s with decoder := .comparing data }, [])
  | .comparing data =>
      let decoder := if s.isPrePortrait ≠ s.isCurPortrait then .choosing data else .feeding data
      .ok ({ s with decoder }, [])
  | .choosing data => .ok ({ s with decoder := .configuring data s.isCurPortrait }, [])
  | .configuring data isPortrait =>
      .ok ({ s with decoder := .remembering data }, [.sps_pps_frame isPortrait])
  | .remembering data =>
      .ok ({ s with isPrePortrait := s.isCurPortrait, decoder := .feeding data }, [])
  | .feeding data =>
      .ok ({ s with decoder := if ret then .looping else .ended }, [.frame data])
  | .ended => .ok (s, [])

def step : Machine.Step State Input Fed C.Undefined := fun s i =>
  match i with
  | .setOrientation orientation => .ok ({ s with isCurPortrait := orientation == 1 }, [])
  | .putData data => .ok ({ s with list := s.list ++ [data] }, [])
  | .stop => .ok ({ s with isPlaying := false }, [])
  | .startDecoder ret => startDecoder s ret

end MediaData

end MirrorCast.Native
