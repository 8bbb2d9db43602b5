import MirrorCast.Program.TSPacketizer

/-! # `MediaSender`: merging the tracks into one transport stream

Elementary stream mode, which uses no packetizer, is left out. -/

namespace MirrorCast

open Java

namespace MediaSender

def FLAG_MANUALLY_PREPEND_SPS_PPS : BitVec 32 := 1

def OK : ℤ := 0
def INVALID_OPERATION : ℤ := -38

inductive Mode where
  | MODE_UNDEFINED
  | MODE_TRANSPORT_STREAM
  deriving DecidableEq, Repr

structure TrackInfo where
  mFormat : MediaFormat
  mIsAudio : Bool
  mFlags : BitVec 32
  mAccessUnits : List ABuffer
  mPacketizerTrackIndex : ℤ
  deriving DecidableEq, Repr

/-- What the loop of `queueAccessUnit` meets in one pass: the clock, as read by the sender
and by the packetizer, and what `mTSSender.queueBuffer` returns. -/
structure Round where
  timeUs : ℤ
  nowUs : ℤ
  err : ℤ
  deriving DecidableEq, Repr

/-- A unit of track `trackIndex` on its way to the network, with the arguments `packetize`
was called with. -/
structure Sent where
  trackIndex : ℕ
  args : TSPacketizer.Args
  packets : List UInt8
  deriving DecidableEq, Repr

end MediaSender

structure MediaSender where
  mMode : MediaSender.Mode
  mTrackInfos : List MediaSender.TrackInfo
  mTSPacketizer : Option TSPacketizer
  mPrevTimeUs : ℤ
  deriving DecidableEq, Repr

namespace MediaSender

def new : MediaSender := ⟨.MODE_UNDEFINED, [], none, -1⟩

def addTrack (s : MediaSender) (format : MediaFormat) (flags : BitVec 32) :
    Except JavaException (ℤ × MediaSender) :=
  if s.mMode ≠ .MODE_UNDEFINED then .ok (INVALID_OPERATION, s)
  else if format.mime = none then .error .nullPointer
  else
    let info : TrackInfo := ⟨format, TSPacketizer.isAudio format.mime, flags, [], -1⟩
    .ok (s.mTrackInfos.length, { s with mTrackInfos := s.mTrackInfos ++ [info] })

/-- The loop of `initAsync`: each format is added to the packetizer, and what `addTrack` returns
is kept as the index of the track. -/
def addTracks : TSPacketizer → List TrackInfo → ℤ × TSPacketizer × List TrackInfo
  | packetizer, [] => (OK, packetizer, [])
  | packetizer, info :: infos =>
      let (packetizerTrackIndex, packetizer) := packetizer.addTrack info.mFormat
      if packetizerTrackIndex < 0 then (packetizerTrackIndex, packetizer, info :: infos)
      else
        let (err, packetizer, infos) := addTracks packetizer infos
        (err, packetizer, { info with mPacketizerTrackIndex := packetizerTrackIndex } :: infos)

/-- `initAsync` with a negative track index; `senderErr` is what `mTSSender.initAsync` returns. -/
def initAsync (s : MediaSender) (senderErr : ℤ) : Except JavaException (ℤ × MediaSender) :=
  if s.mMode ≠ .MODE_UNDEFINED then .ok (INVALID_OPERATION, s)
  else do
    let flags := 0
    let packetizer ← TSPacketizer.new flags
    let (err, packetizer, mTrackInfos) := addTracks packetizer s.mTrackInfos
    let err := if err = OK then senderErr else err
    if err ≠ OK then
      let mTrackInfos := mTrackInfos.map fun info => { info with mPacketizerTrackIndex := -1 }
      .ok (err, { s with mTrackInfos, mTSPacketizer := none })
    else
      .ok (OK, { s with
        mMode := .MODE_TRANSPORT_STREAM, mTrackInfos, mTSPacketizer := some packetizer })

/-- The track whose first unit has the least time, unless some queue is empty. -/
def minTrackIndex : ℕ → Option (ℕ × ℤ) → List TrackInfo → Option (ℕ × ℤ)
  | _, best, [] => best
  | i, best, info :: infos =>
      match info.mAccessUnits with
      | [] => none
      | unit :: _ =>
          let best :=
            match best with
            | none => (i, unit.timeUs)
            | some (minTrackIndex, minTimeUs) =>
                if unit.timeUs < minTimeUs then (i, unit.timeUs) else (minTrackIndex, minTimeUs)
          minTrackIndex (i + 1) (some best) infos

/-- The tables and the PCR go out with the first unit and then every 100 ms. -/
def tablesDue (s : MediaSender) (timeUs : ℤ) : Prop :=
  s.mPrevTimeUs < 0 ∨ s.mPrevTimeUs + 100000 ≤ timeUs

instance (s : MediaSender) (timeUs : ℤ) : Decidable (s.tablesDue timeUs) :=
  inferInstanceAs (Decidable (_ ∨ _))

def packetizeArgs (s : MediaSender) (info : TrackInfo) (accessUnit : ABuffer) (r : Round) :
    TSPacketizer.Args :=
  let manuallyPrependSPSPPS := info.mIsAudio = false ∧
    info.mFlags &&& FLAG_MANUALLY_PREPEND_SPS_PPS ≠ 0 ∧
    AvcUtils.isIDR accessUnit.isIDR accessUnit.data
  { trackIndex := info.mPacketizerTrackIndex
    accessUnit
    flags := (if manuallyPrependSPSPPS then TSPacketizer.PREPEND_SPS_PPS_TO_IDR_FRAMES else 0) |||
      (if s.tablesDue r.timeUs then TSPacketizer.EMIT_PCR ||| TSPacketizer.EMIT_PAT_AND_PMT else 0)
    PES_private_data := none
    PES_private_data_len := 0
    numStuffingBytes := if info.mIsAudio then 2 else 0
    nowUs := r.nowUs }

/-- One pass of `while (true)`: the value returned, if the loop ends, and the unit sent. -/
def pass (s : MediaSender) (r : Round) :
    Except JavaException (MediaSender × Option ℤ × List Sent) :=
  match minTrackIndex 0 none s.mTrackInfos with
  | none => .ok (s, some OK, [])
  | some (trackIndex, _) =>
      match s.mTrackInfos[trackIndex]?, s.mTSPacketizer with
      | none, _ => .error .arrayIndexOutOfBounds
      | _, none => .error .nullPointer
      | some info, some packetizer =>
          match info.mAccessUnits with
          | [] => .error .arrayIndexOutOfBounds
          | accessUnit :: rest => do
              let args := s.packetizeArgs info accessUnit r
              let packetized ← packetizer.packetize args
              let s := { s with
                mTrackInfos := s.mTrackInfos.set trackIndex { info with mAccessUnits := rest }
                mTSPacketizer := some packetized.packetizer
                mPrevTimeUs := if s.tablesDue r.timeUs then r.timeUs else s.mPrevTimeUs }
              match packetized.packets with
              | none => .error .nullPointer
              | some packets =>
                  .ok (s, if r.err = OK then none else some r.err, [⟨trackIndex, args, packets⟩])

/-- The units that wait. -/
def queued (s : MediaSender) : ℕ := (s.mTrackInfos.map fun info => info.mAccessUnits.length).sum

theorem sum_set_lt {infos : List TrackInfo} {i : ℕ} {info info' : TrackInfo}
    (h : infos[i]? = some info) (hlt : info'.mAccessUnits.length < info.mAccessUnits.length) :
    ((infos.set i info').map fun info => info.mAccessUnits.length).sum <
      (infos.map fun info => info.mAccessUnits.length).sum := by
  induction infos generalizing i with
  | nil => cases h
  | cons first infos ih =>
      cases i with
      | zero =>
          cases h
          rw [List.set_cons_zero, List.map_cons, List.map_cons, List.sum_cons, List.sum_cons]
          exact Nat.add_lt_add_right hlt _
      | succ i =>
          rw [List.set_cons_succ, List.map_cons, List.map_cons, List.sum_cons, List.sum_cons]
          exact Nat.add_lt_add_left (ih h) _

/-- A pass that goes on takes a unit out of its queue. -/
theorem queued_pass {s s' : MediaSender} {r : Round} {sent : List Sent}
    (h : s.pass r = .ok (s', none, sent)) : s'.queued < s.queued := by
  unfold pass at h
  split at h
  · cases h
  split at h
  · cases h
  · cases h
  rename_i info packetizer hinfo _
  split at h
  · cases h
  rename_i accessUnit rest hunits
  obtain ⟨packetized, -, h⟩ := bind_eq_ok.mp h
  dsimp only at h
  split at h
  · cases h
  · obtain ⟨rfl, -⟩ := Prod.mk.inj (Except.ok.inj h)
    apply sum_set_lt hinfo
    rw [hunits]
    exact Nat.lt_succ_self rest.length

/-- `while (true)`, where `rounds` gives what each pass meets. -/
def loop (s : MediaSender) (rounds : ℕ → Round) : Except JavaException (MediaSender × ℤ × List Sent) :=
  match _h : s.pass (rounds 0) with
  | .error e => .error e
  | .ok (s', some err, sent) => .ok (s', err, sent)
  | .ok (s', none, sent) =>
      match loop s' fun k => rounds (k + 1) with
      | .error e => .error e
      | .ok (s'', err, more) => .ok (s'', err, sent ++ more)
termination_by s.queued
decreasing_by exact queued_pass _h

/-- `mAccessUnits.add(accessUnit)`, and the codec data of the track. -/
def enqueue (s : MediaSender) (trackIndex : ℤ) (accessUnit : ABuffer) :
    Except JavaException MediaSender :=
  if trackIndex < 0 then .error .arrayIndexOutOfBounds
  else
    match s.mTrackInfos[trackIndex.toNat]?, s.mTSPacketizer with
    | none, _ => .error .arrayIndexOutOfBounds
    | _, none => .error .nullPointer
    | some info, some packetizer => do
        let info := { info with mAccessUnits := info.mAccessUnits ++ [accessUnit] }
        let (_, packetizer) ← packetizer.extractCSDIfNecessary info.mPacketizerTrackIndex
        return { s with
          mTrackInfos := s.mTrackInfos.set trackIndex.toNat info
          mTSPacketizer := some packetizer }

def queueAccessUnit (s : MediaSender) (trackIndex : ℤ) (accessUnit : ABuffer)
    (rounds : ℕ → Round) : Except JavaException (MediaSender × ℤ × List Sent) :=
  if s.mMode = .MODE_UNDEFINED then .ok (s, INVALID_OPERATION, [])
  else if s.mTrackInfos.length ≤ trackIndex then .ok (s, -TSPacketizer.ERANGE, [])
  else do
    let s ← s.enqueue trackIndex accessUnit
    s.loop rounds

end MediaSender

end MirrorCast
