import MirrorCast.Program.Native.Decoding

/-! # When every frame of the right orientation reaches the codec -/

namespace MirrorCast.Native.Decoding

open Java C

/-! ## What the codec is to get -/

/-- The bytes of a frame without the two at the end. -/
def payload (data : Data) : List UInt8 := data.data.take (data.data.length - 2)

/-- The frame has two bytes at the end, and they do not say that it is for the other
orientation. -/
def Matches (data : Data) (isCurPortrait : Bool) : Prop :=
  ∃ orientation, data.orientation = .ok orientation ∧ ¬ passes orientation isCurPortrait

instance (data : Data) (isCurPortrait : Bool) : Decidable (Matches data isCurPortrait) :=
  match h : data.orientation with
  | .ok orientation =>
      decidable_of_iff (¬ passes orientation isCurPortrait)
        ⟨fun hnot => ⟨orientation, h, hnot⟩, fun ⟨o, ho, hnot⟩ => by
          rw [h] at ho
          cases ho
          exact hnot⟩
  | .error e => .isFalse fun ⟨o, ho, _⟩ => by
      rw [h] at ho
      cases ho

/-- The frames that match when they are tested, each with the orientation then. -/
def matching : List Round → List (Bool × Data)
  | [] => []
  | round :: rounds =>
      match round.getData with
      | none => []
      | some data =>
          if Matches data round.tested then (round.tested, data) :: matching rounds
          else matching rounds

variable (sps_pps_frame : Bool → List UInt8)

/-- Frames without their trailers, and the SPS and PPS of their orientation in front of the first
one after a change. -/
def configured (previous : Bool) : List (Bool × Data) → List Buffer
  | [] => []
  | (isPortrait, data) :: frames =>
      (if previous ≠ isPortrait then [⟨.spsPps isPortrait, sps_pps_frame isPortrait⟩] else []) ++
        ⟨.frame data, payload data⟩ :: configured isPortrait frames

/-- The codec has a buffer. -/
def Answers.Accepts (answers : Answers) : Prop := ∃ capacity, answers.input = .room capacity

instance (answers : Answers) : Decidable answers.Accepts :=
  match h : answers.input with
  | .room capacity => .isTrue ⟨capacity, h⟩
  | .tryAgain => .isFalse fun ⟨_, hroom⟩ => by
      rw [h] at hroom
      cases hroom
  | .nullptr => .isFalse fun ⟨_, hroom⟩ => by
      rw [h] at hroom
      cases hroom

/-- The SPS and PPS are queued in the round. -/
def Round.Configures (round : Round) (isPrePortrait : Bool) : Prop :=
  isPrePortrait ≠ round.compared ∧ round.configuring.Accepts

instance (round : Round) (isPrePortrait : Bool) : Decidable (round.Configures isPrePortrait) :=
  inferInstanceAs (Decidable (_ ∧ _))

/-- The codec has a buffer for every frame that matches, and in front of it the SPS and PPS are
queued exactly if the orientation is not that of the frame before it, and are those of the
orientation then. -/
def Follows (isPrePortrait previous : Bool) : List Round → Prop
  | [] => True
  | round :: rounds =>
      match round.getData with
      | none => True
      | some data =>
          if Matches data round.tested then
            round.feeding.Accepts ∧ (round.Configures isPrePortrait ↔ previous ≠ round.tested) ∧
              (previous ≠ round.tested → round.chosen = round.tested) ∧
                Follows (if isPrePortrait ≠ round.compared then round.remembered else isPrePortrait)
                  round.tested rounds
          else Follows isPrePortrait previous rounds

/-! ## Without rotations in the middle of a round -/

/-- The orientation does not change while the round is under way. -/
def Round.Steady (round : Round) : Prop :=
  round.compared = round.tested ∧ round.chosen = round.tested ∧ round.remembered = round.tested

/-- The codec has a buffer for whatever it is offered. -/
def Accepts (isPrePortrait : Bool) : List Round → Prop
  | [] => True
  | round :: rounds =>
      match round.getData with
      | none => True
      | some data =>
          if Matches data round.tested then
            round.feeding.Accepts ∧ (isPrePortrait ≠ round.tested → round.configuring.Accepts) ∧
              Accepts round.tested rounds
          else Accepts isPrePortrait rounds

/-- With a steady orientation it is only the codec that matters. -/
theorem follows_of_steady {rounds : List Round} (h : ∀ round ∈ rounds, round.Steady)
    (isPrePortrait : Bool) :
    Follows isPrePortrait isPrePortrait rounds ↔ Accepts isPrePortrait rounds := by
  induction rounds generalizing isPrePortrait with
  | nil => rfl
  | cons round rounds ih =>
      obtain ⟨hcompared, hchosen, hremembered⟩ := h round List.mem_cons_self
      have hrest := ih fun r hr => h r (List.mem_cons_of_mem round hr)
      rw [Follows, Accepts]
      cases round.getData with
      | none => rfl
      | some data =>
          dsimp only
          split
          · have hnext : (if isPrePortrait ≠ round.compared then round.remembered
                else isPrePortrait) = round.tested := by
              rw [hcompared, hremembered]
              split
              · rfl
              · rename_i hsame
                exact not_not.mp hsame
            rw [hnext, hrest, Round.Configures, hcompared, hchosen]
            simp only [and_iff_left_iff_imp, implies_true, true_and]
          · exact hrest isPrePortrait

/-! ## What a round queues -/

/-- The buffers of a round with a frame that matches. -/
def Round.queued (round : Round) (isPrePortrait : Bool) (data : Data) : List Buffer :=
  (if round.Configures isPrePortrait then
    [⟨.spsPps round.chosen, sps_pps_frame round.chosen⟩] else []) ++
    if round.feeding.Accepts then [⟨.frame data, payload data⟩] else []

theorem memcpy_take {data room : List UInt8} {capacity size : ℕ}
    (h : memcpy (List.replicate capacity 0) 0 data 0 size = .ok room) :
    room.take size = data.take size := by
  unfold memcpy at h
  split at h
  · cases h
  · rename_i hfits
    cases h
    have hlength : (data.take size).length = size := by
      rw [List.length_take]
      omega
    rw [List.drop_zero, Java.blit_zero, List.take_left' hlength]

/-- A call queues what it is given if the codec has a buffer. -/
theorem feed_queued {answers : Answers} {data : List UInt8} {size : ℕ} {ret : Bool}
    {queued : Option (List UInt8)}
    (h : feedInputBufferAndDrainOutputBuffer answers data size = .ok (ret, queued)) :
    queued = if answers.Accepts then some (data.take size) else none := by
  obtain ⟨⟨fed, room⟩, hfed, hret⟩ := bind_eq_ok.mp h
  cases hret
  cases hinput : answers.input with
  | tryAgain =>
      simp only [feedInputBuffer, hinput] at hfed
      cases hfed
      rw [if_neg]
      rintro ⟨capacity, hroom⟩
      rw [hinput] at hroom
      cases hroom
  | nullptr =>
      simp only [feedInputBuffer, hinput] at hfed
      cases hfed
      rw [if_neg]
      rintro ⟨capacity, hroom⟩
      rw [hinput] at hroom
      cases hroom
  | room capacity =>
      simp only [feedInputBuffer, hinput] at hfed
      obtain ⟨copied, hcopied, hfed⟩ := bind_eq_ok.mp hfed
      cases hfed
      rw [if_pos ⟨capacity, hinput⟩, memcpy_take hcopied]

/-- A round that ends without an error feeds its frame and goes on. -/
theorem rest_of_ok {answers : Answers} {data : Data} {configured : Option Buffer}
    {next : Except Undefined (Bool × List Buffer)} {out : List Buffer}
    (h : (do
      let (ret, queued) ←
        feedInputBufferAndDrainOutputBuffer answers data.data (data.data.length - 2)
      let queued := queued.map (Buffer.mk (.frame data))
      if ret = false then return (true, configured.toList ++ queued.toList)
      else do
        let (hasError, rest) ← next
        return (hasError, configured.toList ++ queued.toList ++ rest)) = .ok (false, out)) :
    ∃ rest, next = .ok (false, rest) ∧ out = configured.toList ++
      (if answers.Accepts then [⟨.frame data, payload data⟩] else []) ++ rest := by
  obtain ⟨⟨ret, queued⟩, hfed, h⟩ := bind_eq_ok.mp h
  have hqueued := feed_queued hfed
  dsimp only at h
  split at h
  · cases h
  · obtain ⟨⟨hasError, rest⟩, hrest, h⟩ := bind_eq_ok.mp h
    cases h
    refine ⟨rest, hrest, ?_⟩
    rw [hqueued]
    split <;> rfl

section

variable {sps_pps_frame} {isPrePortrait : Bool} {round : Round} {rounds : List Round}
  {out : List Buffer}

/-- Such a round queues its own buffers, and goes on with what it remembers. -/
theorem startDecoder_matching {data : Data} (hdata : round.getData = some data)
    (hmatches : Matches data round.tested)
    (h : startDecoder sps_pps_frame isPrePortrait (round :: rounds) = .ok (false, out)) :
    ∃ rest, startDecoder sps_pps_frame
        (if isPrePortrait ≠ round.compared then round.remembered else isPrePortrait) rounds =
          .ok (false, rest) ∧
      out = round.queued sps_pps_frame isPrePortrait data ++ rest := by
  obtain ⟨orientation, horientation, hpasses⟩ := hmatches
  rw [startDecoder, hdata] at h
  dsimp only at h
  rw [horientation, ok_bind, if_neg hpasses] at h
  simp only [Round.queued, Round.Configures]
  by_cases hchanged : isPrePortrait ≠ round.compared
  · rw [if_pos hchanged, if_pos hchanged] at h
    rw [if_pos hchanged]
    obtain ⟨⟨ret, configured⟩, hfed, h⟩ := bind_eq_ok.mp h
    obtain ⟨_, hconfigured, h⟩ := bind_eq_ok.mp h
    cases hconfigured
    have hqueued := feed_queued hfed
    rw [List.take_length] at hqueued
    obtain ⟨rest, hrest, rfl⟩ := rest_of_ok h
    refine ⟨rest, hrest, ?_⟩
    simp only [hchanged, true_and, hqueued, ne_eq, not_false_eq_true]
    split <;> rfl
  · rw [if_neg hchanged, if_neg hchanged] at h
    rw [if_neg hchanged]
    obtain ⟨rest, hrest, rfl⟩ := rest_of_ok h
    exact ⟨rest, hrest, by simp [hchanged]⟩

/-- Another round passes its frame by. -/
theorem startDecoder_passing {data : Data} (hdata : round.getData = some data)
    (hmatches : ¬ Matches data round.tested)
    (h : startDecoder sps_pps_frame isPrePortrait (round :: rounds) = .ok (false, out)) :
    startDecoder sps_pps_frame isPrePortrait rounds = .ok (false, out) := by
  rw [startDecoder, hdata] at h
  obtain ⟨orientation, horientation, h⟩ := bind_eq_ok.mp h
  rw [if_pos (by_contra fun hpasses => hmatches ⟨orientation, horientation, hpasses⟩)] at h
  exact h

/-! ## What the codec gets -/

/-- The buffers that are frames. -/
def frames (buffers : List Buffer) : List Buffer :=
  buffers.filter fun buffer => buffer.source matches .frame _

theorem frames_configured (previous : Bool) (ms : List (Bool × Data)) :
    (frames (configured sps_pps_frame previous ms)).length = ms.length := by
  induction ms generalizing previous with
  | nil => rfl
  | cons m ms ih =>
      rw [configured, frames, List.filter_append, List.length_append, List.filter_cons_of_pos rfl,
        List.length_cons, List.length_cons]
      have hrest := ih m.1
      rw [frames] at hrest
      rw [hrest]
      split <;> simp

/-- No more frames are queued than match. -/
theorem frames_le (h : startDecoder sps_pps_frame isPrePortrait rounds = .ok (false, out)) :
    (frames out).length ≤ (matching rounds).length := by
  induction rounds generalizing isPrePortrait out with
  | nil =>
      cases h
      exact Nat.zero_le _
  | cons round rounds ih =>
      rw [matching]
      cases hdata : round.getData with
      | none =>
          rw [startDecoder, hdata] at h
          cases h
          exact Nat.zero_le _
      | some data =>
          dsimp only
          by_cases hmatches : Matches data round.tested
          · obtain ⟨rest, hrest, rfl⟩ := startDecoder_matching hdata hmatches h
            have hle := ih hrest
            rw [if_pos hmatches, List.length_cons, frames, List.filter_append, List.length_append]
            rw [frames] at hle
            have hown : ((round.queued sps_pps_frame isPrePortrait data).filter fun buffer =>
                buffer.source matches .frame _).length ≤ 1 := by
              unfold Round.queued
              split <;> split <;> simp
            omega
          · rw [if_neg hmatches]
            exact ih (startDecoder_passing hdata hmatches h)

/-- Own buffers of a round that are as they should be. -/
theorem queued_eq_iff {previous : Bool} {data : Data} (hfed : round.feeding.Accepts)
    {rest rest' : List Buffer} :
    round.queued sps_pps_frame isPrePortrait data ++ rest =
        (if previous ≠ round.tested then
          [⟨.spsPps round.tested, sps_pps_frame round.tested⟩] else []) ++
        ⟨.frame data, payload data⟩ :: rest' ↔
      ((round.Configures isPrePortrait ↔ previous ≠ round.tested) ∧
        (previous ≠ round.tested → round.chosen = round.tested)) ∧ rest = rest' := by
  rw [Round.queued, if_pos hfed]
  by_cases hconfigures : round.Configures isPrePortrait
  · by_cases hchanged : previous ≠ round.tested
    · rw [if_pos hconfigures, if_pos hchanged]
      constructor
      · intro heq
        obtain ⟨hspsPps, hrest⟩ := List.cons.inj heq
        exact ⟨⟨iff_of_true hconfigures hchanged, fun _ =>
          Source.spsPps.inj (Buffer.mk.inj hspsPps).1⟩, (List.cons.inj hrest).2⟩
      · rintro ⟨⟨-, hchosen⟩, rfl⟩
        rw [hchosen hchanged]
        rfl
    · rw [if_pos hconfigures, if_neg hchanged]
      exact iff_of_false (fun heq => by cases heq) fun h => hchanged (h.1.1.mp hconfigures)
  · by_cases hchanged : previous ≠ round.tested
    · rw [if_neg hconfigures, if_pos hchanged]
      exact iff_of_false (fun heq => by cases heq) fun h => hconfigures (h.1.1.mpr hchanged)
    · rw [if_neg hconfigures, if_neg hchanged]
      simp [hconfigures, hchanged]

theorem queued_iff_follows {previous : Bool}
    (h : startDecoder sps_pps_frame isPrePortrait rounds = .ok (false, out)) :
    out = configured sps_pps_frame previous (matching rounds) ↔
      Follows isPrePortrait previous rounds := by
  induction rounds generalizing isPrePortrait previous out with
  | nil =>
      cases h
      exact iff_of_true rfl trivial
  | cons round rounds ih =>
      rw [matching, Follows]
      cases hdata : round.getData with
      | none =>
          rw [startDecoder, hdata] at h
          cases h
          exact iff_of_true rfl trivial
      | some data =>
          dsimp only
          by_cases hmatches : Matches data round.tested
          swap
          · rw [if_neg hmatches, if_neg hmatches]
            exact ih (startDecoder_passing hdata hmatches h)
          rw [if_pos hmatches, if_pos hmatches]
          obtain ⟨rest, hrest, rfl⟩ := startDecoder_matching hdata hmatches h
          by_cases hfed : round.feeding.Accepts
          · rw [configured, queued_eq_iff hfed, and_assoc, and_iff_right hfed, ih hrest]
          · -- A frame that is not fed is missing in the end.
            refine iff_of_false (fun heq => ?_) fun hfollows => hfed hfollows.1
            have hcount := congrArg (fun buffers => (frames buffers).length) heq
            have hle := frames_le hrest
            rw [frames_configured, List.length_cons, frames, List.filter_append,
              List.length_append, Round.queued, if_neg hfed] at hcount
            rw [frames] at hle
            split at hcount
            · simp only [List.append_nil, List.filter_cons, List.filter_nil] at hcount
              simp at hcount
              omega
            · simp at hcount
              omega

/-- While it ends without an error, the decode loop queues the frames that match, in order, without
their trailers and with the SPS and PPS in front of the first one after a change, exactly if the
codec has a buffer for each frame and what is queued in front of it follows the
orientation; if no rotation falls into the middle of a round, exactly if the codec has a buffer each
time. -/
theorem queues_all_iff (h : startDecoder sps_pps_frame isPrePortrait rounds = .ok (false, out)) :
    (out = configured sps_pps_frame isPrePortrait (matching rounds) ↔
      Follows isPrePortrait isPrePortrait rounds) ∧
    ((∀ round ∈ rounds, round.Steady) →
      (Follows isPrePortrait isPrePortrait rounds ↔ Accepts isPrePortrait rounds)) :=
  ⟨queued_iff_follows h, fun hsteady => follows_of_steady hsteady isPrePortrait⟩

/-- A round with a frame of one byte and a steady orientation. -/
def roundOf (orientation : UInt8) (isCurPortrait : Bool) (input : InputRoom) : Round where
  getData := some ⟨[0x65, orientation, 1], Nat.succ_pos _⟩
  tested := isCurPortrait
  compared := isCurPortrait
  chosen := isCurPortrait
  remembered := isCurPortrait
  configuring := ⟨.room 16, [.noIndex]⟩
  feeding := ⟨input, [.noIndex]⟩

/-- A frame in portrait, one that does not match, and one after the rotation. -/
theorem queues_all_rotation :
    (startDecoder (fun isPortrait => if isPortrait then [0x67] else [0x27]) true
      [roundOf 1 true (.room 16), roundOf 1 false (.room 16), roundOf 2 false (.room 16)]).map
        (fun (hasError, buffers) => (hasError, buffers.map Buffer.bytes)) =
      .ok (false, [[0x65], [0x27], [0x65]]) ∧
    Follows true true
      [roundOf 1 true (.room 16), roundOf 1 false (.room 16), roundOf 2 false (.room 16)] := by
  let rounds := [roundOf 1 true (.room 16), roundOf 1 false (.room 16), roundOf 2 false (.room 16)]
  have hrun : startDecoder (fun isPortrait => if isPortrait then [0x67] else [0x27]) true rounds =
      .ok (false, configured (fun isPortrait => if isPortrait then [0x67] else [0x27]) true
        (matching rounds)) := rfl
  exact ⟨rfl, (queues_all_iff hrun).1.mp rfl⟩

/-- The codec has no buffer, and the frame is gone. -/
theorem skips_frame : ¬ ∀ (sps_pps_frame : Bool → List UInt8) (isPrePortrait : Bool)
    (rounds : List Round) (queued : List Buffer), (∀ round ∈ rounds, round.Steady) →
      startDecoder sps_pps_frame isPrePortrait rounds = .ok (false, queued) →
        queued = configured sps_pps_frame isPrePortrait (matching rounds) := by
  intro h
  have hqueued := h (fun _ => []) true [roundOf 1 true .tryAgain] [] (by simp [roundOf, Round.Steady])
    rfl
  exact absurd hqueued (by decide +kernel)

end

end MirrorCast.Native.Decoding
