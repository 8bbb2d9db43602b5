import MirrorCast.Program.Native.Encoding
import Mathlib.Logic.Function.Basic

/-! # What the sender writes around a rotation -/

namespace MirrorCast.Native.Encoding

open MediaCodec Machine

/-- The stream restarts cleanly: between two orientation messages in a row there is no frame of
the later orientation, and the first frame of an orientation after its message is a key frame. -/
structure RestartsCleanly (messages : List Sent) : Prop where
  before : ∀ pre q mid p post,
    messages = pre ++ .orientation q :: (mid ++ .orientation p :: post) →
    (∀ o, .orientation o ∉ mid) → ∀ room, .frame room ∈ mid → room.isPortrait ≠ p
  after : ∀ pre p mid room post,
    messages = pre ++ .orientation p :: (mid ++ .frame room :: post) → room.isPortrait = p →
    (∀ r, .frame r ∈ mid → r.isPortrait ≠ p) → isKey room.flags = true

/-! ## Reading the messages in order -/

/-- The orientation announced last, and the orientations announced since their last frame. -/
structure Expected where
  announced : Bool
  pending : Bool → Bool

/-- Frames are of the orientation announced last, and key frames where one is pending; each
announcement changes the orientation. -/
def Follows : Expected → List Sent → Prop
  | _, [] => True
  | e, .frame room :: rest =>
      room.isPortrait = e.announced ∧ (e.pending e.announced = true → isKey room.flags = true) ∧
        Follows { e with pending := Function.update e.pending e.announced false } rest
  | e, .orientation p :: rest =>
      p ≠ e.announced ∧ Follows ⟨p, Function.update e.pending p true⟩ rest

theorem Follows.drop {e : Expected} {front rest : List Sent} (h : Follows e (front ++ rest)) :
    ∃ e', Follows e' rest := by
  induction front generalizing e with
  | nil => exact ⟨e, h⟩
  | cons message front ih =>
      cases message with
      | frame room => exact ih h.2.2
      | orientation p => exact ih h.2

theorem Follows.frames {e : Expected} {mid post : List Sent} {p : Bool}
    (h : Follows e (mid ++ .orientation p :: post)) (hmid : ∀ o, .orientation o ∉ mid) :
    p ≠ e.announced ∧ ∀ room, .frame room ∈ mid → room.isPortrait = e.announced := by
  induction mid generalizing e with
  | nil => exact ⟨h.1, by simp⟩
  | cons message mid ih =>
      cases message with
      | frame room =>
          obtain ⟨hp, hframes⟩ := ih h.2.2 fun o ho => hmid o (List.mem_cons_of_mem _ ho)
          refine ⟨hp, fun room' hroom => ?_⟩
          rcases List.mem_cons.mp hroom with heq | hroom
          · cases heq
            exact h.1
          · exact hframes room' hroom
      | orientation o => exact absurd List.mem_cons_self (hmid o)

/-- A pending key frame stays pending up to the next frame of its orientation. -/
theorem Follows.pending {e : Expected} {mid post : List Sent} {room : Room}
    (h : Follows e (mid ++ .frame room :: post)) (hpending : e.pending room.isPortrait = true)
    (hmid : ∀ r, .frame r ∈ mid → r.isPortrait ≠ room.isPortrait) : isKey room.flags = true := by
  induction mid generalizing e with
  | nil => exact h.2.1 (h.1 ▸ hpending)
  | cons message mid ih =>
      have hrest : ∀ r, .frame r ∈ mid → r.isPortrait ≠ room.isPortrait := fun r hr =>
        hmid r (List.mem_cons_of_mem _ hr)
      cases message with
      | frame r =>
          have hother := hmid r List.mem_cons_self
          rw [h.1] at hother
          exact ih h.2.2 ((Function.update_of_ne hother.symm _ _).trans hpending) hrest
      | orientation o =>
          refine ih h.2 ?_ hrest
          by_cases heq : room.isPortrait = o
          · subst heq
            exact Function.update_self ..
          · exact (Function.update_of_ne heq _ _).trans hpending

theorem Follows.restartsCleanly {e : Expected} {messages : List Sent} (h : Follows e messages) :
    RestartsCleanly messages := by
  constructor
  · rintro pre q mid p post rfl hmid room hroom
    obtain ⟨e', h'⟩ := h.drop
    obtain ⟨hp, hframes⟩ := h'.2.frames hmid
    rw [hframes room hroom]
    exact hp.symm
  · rintro pre p mid room post rfl rfl hmid
    obtain ⟨e', h'⟩ := h.drop
    exact h'.2.pending (Function.update_self ..) hmid

/-! ## The condition -/

/-- The orientation announced last: a rotation announces the other one at its end. -/
def State.announced (s : State) : Bool :=
  match s.rotation with
  | .idle => s.isPlaying1
  | .isPlaying1 p | .isPlaying2 p | .isKeyFrameWrite p | .sendData p => !p

/-- The tests of `handleOutputBufferImpl` let the frame through. -/
def passes (s : State) (room : Room) : Bool :=
  keyFrameWritten s.isKeyFrameWrite room.isPortrait || isKey room.flags

/-- The frame that has passed the tests and is not sent yet. -/
def Encoder.passed : Encoder → Option Room
  | .marking room | .sending room => some room
  | _ => none

/-- The frame whose flag is read next. -/
def Encoder.tested : Encoder → Option Room
  | .handling room => some room
  | _ => none

/-- While recording: a rotation goes to the other orientation, a frame that passes the tests is
of the orientation announced last, and none that has passed is left behind by an announcement. -/
def Undisturbed (s : State) : Input → Prop
  | .rotate isPortrait =>
      s.isRecording = true → s.rotation = .idle → isPortrait ≠ s.isPlaying1
  | .encoder _ _ =>
      ∀ room ∈ s.encoder.tested, s.isRecording = true → passes s room = true →
        room.isPortrait = s.announced
  | .rotation _ =>
      s.isRecording = true → (∃ p, s.rotation = .sendData p) → s.encoder.passed = none
  | .only_output_key_frame => True

instance (s : State) : ∀ i, Decidable (Undisturbed s i)
  | .rotate _ => inferInstanceAs (Decidable (_ → _ → _))
  | .encoder _ _ => inferInstanceAs (Decidable (∀ room ∈ s.encoder.tested, _ → _ → _))
  | .rotation _ => inferInstanceAs (Decidable (_ → _ → _))
  | .only_output_key_frame => .isTrue trivial

/-! ## One step -/

theorem keyFrameWritten_set (k : KeyFrameWrite) (o value o' : Bool) :
    keyFrameWritten (setKeyFrameWrite k o value) o' =
      if o' = o then value else keyFrameWritten k o' := by
  cases o <;> cases o' <;> rfl

/-- What holds while recording. -/
structure Running (e : Expected) (s : State) : Prop where
  announced : s.announced = e.announced
  keys : ∀ o, e.pending o = true → keyFrameWritten s.isKeyFrameWrite o = false ∨
    ∃ room, s.encoder = .sending room ∧ room.isPortrait = o
  passed : ∀ room, s.encoder.passed = some room → room.isPortrait = e.announced
  marking : ∀ room, s.encoder = .marking room → isKey room.flags = true
  sending : ∀ room, s.encoder = .sending room → e.pending e.announced = true →
    isKey room.flags = true
  playing : ∀ p, s.rotation = .isPlaying2 p ∨ s.rotation = .isKeyFrameWrite p ∨
    s.rotation = .sendData p → s.isPlaying1 = p
  cleared : ∀ p, s.rotation = .sendData p → keyFrameWritten s.isKeyFrameWrite p = false

def Inv (e : Expected) (s : State) : Prop := s.isRecording = true → Running e s

/-- The step sends what is expected, and the invariant holds of what is expected then. -/
def Keeps (e : Expected) (next : State × List Sent) : Prop :=
  ∃ e', Inv e' next.1 ∧ ∀ rest, Follows e' rest → Follows e (next.2 ++ rest)

theorem keeps_of_inv {e : Expected} {s : State} (h : Inv e s) : Keeps e (s, []) :=
  ⟨e, h, fun _ hrest => hrest⟩

theorem keeps_of_stopped {e : Expected} {s : State} (h : s.isRecording = false) :
    Keeps e (s, []) :=
  keeps_of_inv fun hrecording => absurd (hrecording.symm.trans h) (by decide)

/-- A message is sent, or the recording ends. -/
theorem sendData_keeps {e e' : Expected} {s : State} {written : Bool} {message : Sent}
    (hinv : s.isRecording = true → Running e' s)
    (hfollows : s.isRecording = true → ∀ rest, Follows e' rest → Follows e (message :: rest)) :
    Keeps e (sendData s written message) := by
  unfold sendData
  split
  · rename_i hrecording
    split
    · exact ⟨e', hinv, hfollows hrecording⟩
    · exact keeps_of_stopped rfl
  · rename_i hstopped
    exact keeps_of_stopped (by simpa using hstopped)

/-- The encoder goes on with nothing in its hands. -/
theorem Running.move {e : Expected} {s : State} (h : Running e s) {encoder : Encoder}
    (hbefore : s.encoder.passed = none) (hafter : encoder.passed = none) :
    Running e { s with encoder } := by
  refine ⟨h.announced, fun o ho => ?_, fun room hroom => ?_, fun room hroom => ?_,
    fun room hroom => ?_, h.playing, h.cleared⟩
  · rcases h.keys o ho with hfalse | ⟨room, hsending, -⟩
    · exact .inl hfalse
    · rw [hsending] at hbefore
      cases hbefore
  · rw [hafter] at hroom
    cases hroom
  · dsimp only at hroom
    rw [hroom] at hafter
    cases hafter
  · dsimp only at hroom
    rw [hroom] at hafter
    cases hafter

theorem inv_move {e : Expected} {s : State} (h : Inv e s) {encoder : Encoder}
    (hbefore : s.encoder.passed = none) (hafter : encoder.passed = none) :
    Keeps e ({ s with encoder }, []) :=
  keeps_of_inv fun hrecording => (h hrecording).move hbefore hafter

theorem Running.not_written {e : Expected} {s : State} (h : Running e s)
    (hbefore : s.encoder.passed = none) {o : Bool} (ho : e.pending o = true) :
    keyFrameWritten s.isKeyFrameWrite o = false := by
  rcases h.keys o ho with hfalse | ⟨room, hsending, -⟩
  · exact hfalse
  · rw [hsending] at hbefore
    cases hbefore

/-- The flag lets a frame through: its orientation has had its key frame. -/
theorem Running.send {e : Expected} {s : State} (h : Running e s) {room : Room}
    (hpc : s.encoder = .handling room) (hroom : room.isPortrait = e.announced)
    (hwritten : keyFrameWritten s.isKeyFrameWrite room.isPortrait = true) :
    Running e { s with encoder := .sending room } := by
  have hnone : s.encoder.passed = none := by rw [hpc]; rfl
  refine ⟨h.announced, fun o ho => .inl (h.not_written hnone ho), ?_, nofun, ?_, h.playing,
    h.cleared⟩
  · rintro _ ⟨⟩
    exact hroom
  · rintro _ ⟨⟩ hpending
    have hnot := h.not_written hnone hpending
    rw [← hroom, hwritten] at hnot
    cases hnot

/-- A key frame goes through and is marked first. -/
theorem Running.mark {e : Expected} {s : State} (h : Running e s) {room : Room}
    (hpc : s.encoder = .handling room) (hroom : room.isPortrait = e.announced)
    (hkey : isKey room.flags = true) : Running e { s with encoder := .marking room } := by
  have hnone : s.encoder.passed = none := by rw [hpc]; rfl
  refine ⟨h.announced, fun o ho => .inl (h.not_written hnone ho), ?_, ?_, nofun, h.playing,
    h.cleared⟩
  · rintro _ ⟨⟩
    exact hroom
  · rintro _ ⟨⟩
    exact hkey

theorem Running.ne_announced {e : Expected} {s : State} (h : Running e s) {p : Bool}
    (hpc : s.rotation = .sendData p) : p ≠ e.announced := by
  have hannounced : s.announced = !p := by
    rw [State.announced, hpc]
  rw [← h.announced, hannounced]
  exact (Bool.not_ne_self p).symm

theorem Running.marked {e : Expected} {s : State} (h : Running e s) {room : Room}
    (hpc : s.encoder = .marking room) :
    Running e { s with
      isKeyFrameWrite := setKeyFrameWrite s.isKeyFrameWrite room.isPortrait true
      encoder := .sending room } := by
  have hroom := h.passed room (by rw [hpc]; rfl)
  refine ⟨h.announced, fun o ho => ?_, ?_, nofun, ?_, h.playing, fun p hp => ?_⟩
  · by_cases heq : room.isPortrait = o
    · exact .inr ⟨room, rfl, heq⟩
    · rcases h.keys o ho with hfalse | ⟨room', hsending, -⟩
      · refine .inl ?_
        rw [keyFrameWritten_set, if_neg (Ne.symm heq)]
        exact hfalse
      · rw [hpc] at hsending
        cases hsending
  · rintro _ ⟨⟩
    exact hroom
  · rintro _ ⟨⟩ -
    exact h.marking room hpc
  · -- the rotation under way goes to the other orientation
    rw [keyFrameWritten_set, if_neg (hroom ▸ h.ne_announced hp)]
    exact h.cleared p hp

/-- A frame is on the stream, and no key frame of its orientation is pending then. -/
theorem Running.sent {e : Expected} {s : State} (h : Running e s) (room : Room) :
    Running { e with pending := Function.update e.pending e.announced false }
      { s with encoder := .draining room.isPortrait } := by
  refine ⟨h.announced, fun o ho => ?_, nofun, nofun, nofun, h.playing, h.cleared⟩
  dsimp only at ho
  by_cases heq : o = e.announced
  · rw [heq, Function.update_self] at ho
    cases ho
  · rw [Function.update_of_ne heq] at ho
    rcases h.keys o ho with hfalse | ⟨room', hsending, horientation⟩
    · exact .inl hfalse
    · have hroom := h.passed room' (by rw [hsending]; rfl)
      exact absurd (horientation.symm.trans hroom) heq

theorem startEncoder_keeps {e : Expected} {s : State} (hinv : Inv e s) {dequeued : Dequeued}
    {written : Bool} (hi : Undisturbed s (.encoder dequeued written)) :
    Keeps e (startEncoder s dequeued written) := by
  unfold startEncoder
  cases hpc : s.encoder with
  | looping => exact inv_move hinv (by rw [hpc]; rfl) (by split <;> rfl)
  | testingPlaying1 => exact inv_move hinv (by rw [hpc]; rfl) (by split <;> rfl)
  | testingPlaying2 => exact inv_move hinv (by rw [hpc]; rfl) (by split <;> rfl)
  | draining isPortrait => exact inv_move hinv (by rw [hpc]; rfl) (by split <;> rfl)
  | dequeuing isPortrait =>
      refine inv_move hinv (by rw [hpc]; rfl) ?_
      cases dequeued with
      | noIndex => rfl
      | nullptr => rfl
      | room bytes flags =>
          dsimp only
          split <;> rfl
  | handling room =>
      rw [Undisturbed, hpc] at hi
      have hroom : s.isRecording = true → passes s room = true →
          room.isPortrait = e.announced := fun hrecording hpasses =>
        (hi room rfl hrecording hpasses).trans (hinv hrecording).announced
      dsimp only
      split
      · rename_i hwritten
        exact keeps_of_inv fun hrecording => (hinv hrecording).send hpc
          (hroom hrecording (by rw [passes, hwritten]; rfl)) hwritten
      · split
        · rename_i hkey
          exact keeps_of_inv fun hrecording => (hinv hrecording).mark hpc
            (hroom hrecording (by rw [passes, hkey, Bool.or_true])) hkey
        · exact inv_move hinv (by rw [hpc]; rfl) rfl
  | marking room => exact keeps_of_inv fun hrecording => (hinv hrecording).marked hpc
  | sending room =>
      refine sendData_keeps (fun hrecording => (hinv hrecording).sent room) ?_
      intro hrecording rest hrest
      have hrunning := hinv hrecording
      exact ⟨hrunning.passed room (by rw [hpc]; rfl), hrunning.sending room hpc, hrest⟩
  | releasing => exact keeps_of_stopped rfl
  | ended => exact keeps_of_inv hinv

/-- A rotation ends with its message. -/
theorem Running.announce {e : Expected} {s : State} (h : Running e s) {p : Bool}
    (hpc : s.rotation = .sendData p) (hnone : s.encoder.passed = none) :
    Running ⟨p, Function.update e.pending p true⟩ { s with rotation := .idle } := by
  refine ⟨h.playing p (.inr (.inr hpc)), fun o ho => .inl ?_, fun room hroom => ?_,
    fun room hroom => ?_, fun room hroom => ?_, nofun, nofun⟩
  · by_cases heq : o = p
    · rw [heq]
      exact h.cleared p hpc
    · dsimp only at ho
      rw [Function.update_of_ne heq] at ho
      exact h.not_written hnone ho
  · exact absurd (hnone.symm.trans hroom) nofun
  · dsimp only at hroom
    rw [hroom] at hnone
    cases hnone
  · dsimp only at hroom
    rw [hroom] at hnone
    cases hnone

theorem rotate_keeps {e : Expected} {s : State} (hinv : Inv e s) {written : Bool}
    (hi : Undisturbed s (.rotation written)) : Keeps e (rotate s written) := by
  unfold rotate
  cases hpc : s.rotation with
  | idle => exact keeps_of_inv hinv
  | isPlaying1 p =>
      refine keeps_of_inv fun hrecording => ?_
      have h := hinv hrecording
      refine ⟨?_, h.keys, h.passed, h.marking, h.sending, ?_, nofun⟩
      · rw [← h.announced, State.announced, State.announced, hpc]
      · rintro q (hq | hq | hq)
        all_goals cases hq
        rfl
  | isPlaying2 p =>
      refine keeps_of_inv fun hrecording => ?_
      have h := hinv hrecording
      refine ⟨?_, h.keys, h.passed, h.marking, h.sending, ?_, nofun⟩
      · rw [← h.announced, State.announced, State.announced, hpc]
      · rintro q (hq | hq | hq)
        all_goals cases hq
        exact h.playing p (.inl hpc)
  | isKeyFrameWrite p =>
      refine keeps_of_inv fun hrecording => ?_
      have h := hinv hrecording
      refine ⟨?_, fun o ho => ?_, h.passed, h.marking, h.sending, ?_, ?_⟩
      · rw [← h.announced, State.announced, State.announced, hpc]
      · rcases h.keys o ho with hfalse | hsending
        · refine .inl ?_
          rw [keyFrameWritten_set]
          split
          · rfl
          · exact hfalse
        · exact .inr hsending
      · rintro q (hq | hq | hq)
        all_goals cases hq
        exact h.playing p (.inr (.inl hpc))
      · rintro q ⟨⟩
        rw [keyFrameWritten_set, if_pos rfl]
  | sendData p =>
      refine sendData_keeps (fun hrecording => (hinv hrecording).announce hpc
        (hi hrecording ⟨p, hpc⟩)) ?_
      intro hrecording rest hrest
      exact ⟨(hinv hrecording).ne_announced hpc, hrest⟩

theorem step_keeps {e : Expected} {s s' : State} {i : Input} {out : List Sent} (hinv : Inv e s)
    (hi : Undisturbed s i) (h : step s i = .ok (s', out)) : Keeps e (s', out) := by
  cases i with
  | encoder dequeued written =>
      rw [← Except.ok.inj h]
      exact startEncoder_keeps hinv hi
  | rotate isPortrait =>
      cases h
      split
      · rename_i hidle
        refine keeps_of_inv fun hrecording => ?_
        have h := hinv hrecording
        have hother := hi hrecording hidle
        refine ⟨?_, h.keys, h.passed, h.marking, h.sending, nofun, nofun⟩
        rw [← h.announced, State.announced, State.announced, hidle]
        dsimp only
        revert hother
        cases isPortrait <;> cases s.isPlaying1 <;> decide
      · exact keeps_of_inv hinv
  | rotation written =>
      rw [← Except.ok.inj h]
      exact rotate_keeps hinv hi
  | only_output_key_frame =>
      cases h
      refine keeps_of_inv fun hrecording => ?_
      have h := hinv hrecording
      exact ⟨h.announced, h.keys, h.passed, h.marking, h.sending, h.playing, h.cleared⟩

/-! ## Runs -/

/-- A run in which the encoder thread and the rotations do not get in each other's way writes a
stream that restarts cleanly. -/
theorem stream_restarts_cleanly (isPortrait : Bool) (is : List Input)
    (hmeets : Meets step (fun _ s i => Undisturbed s i) [] (.initial isPortrait) is) :
    RestartsCleanly (outputs step (.initial isPortrait) is) := by
  have hinv : Inv ⟨isPortrait, fun _ => false⟩ (.initial isPortrait) := fun _ =>
    ⟨rfl, nofun, nofun, nofun, nofun, nofun, nofun⟩
  have hfollows : Follows ⟨isPortrait, fun _ => false⟩ (outputs step (.initial isPortrait) is) := by
    refine outputs_of_meets Inv Follows (fun _ => trivial) ?_ hinv hmeets
    intro e past s i s' out hinv hi h
    exact step_keeps hinv hi h
  exact hfollows.restartsCleanly

/-- The next step of the encoder thread, with a frame at hand. -/
def encoderStep (flags : UInt32) : Input := .encoder (.room [7] flags) true

/-- A key frame, a rotation to landscape, and a key frame. -/
def rotatedOnce : List Input :=
  List.replicate 7 (encoderStep 1) ++ [.rotate false] ++ List.replicate 4 (.rotation true) ++
    List.replicate 9 (encoderStep 1)

theorem stream_restarts_cleanly_once :
    RestartsCleanly (outputs step (.initial true) rotatedOnce) :=
  stream_restarts_cleanly true rotatedOnce (by decide +kernel)

example : outputs step (.initial true) rotatedOnce =
    [.frame ⟨[7], 1, true⟩, .orientation false, .frame ⟨[7], 1, false⟩] := by decide +kernel

/-- On the way back to portrait the encoder thread finds `isPlaying1` set and `isKeyFrameWrite1`
not yet cleared. -/
def rotatedBack : List Input :=
  List.replicate 7 (encoderStep 1) ++ [.rotate false] ++ List.replicate 4 (.rotation true) ++
    [.rotate true, .rotation true] ++ List.replicate 3 (encoderStep 0) ++
    List.replicate 3 (.rotation true) ++ [encoderStep 0]

theorem stream_restarts_without_key_frame :
    ¬ ∀ (isPortrait : Bool) (is : List Input),
      RestartsCleanly (outputs step (.initial isPortrait) is) := by
  intro h
  have houtputs : outputs step (.initial true) rotatedBack =
      [.frame ⟨[7], 1, true⟩, .orientation false] ++
        .orientation true :: ([] ++ .frame ⟨[7], 0, true⟩ :: []) := by decide +kernel
  exact absurd ((h true rotatedBack).after _ true [] _ [] houtputs rfl (by simp)) (by decide)

end MirrorCast.Native.Encoding
