import MirrorCast.Verification.Native.Dropping

/-! # What the decoder is fed around a rotation -/

namespace MirrorCast.Native

open MediaData Machine

/-- The frame carries the orientation. -/
def Carries (data : Data) (isPortrait : Bool) : Prop :=
  data.orientation = .ok (if isPortrait then 1 else 2)

instance (data : Data) (isPortrait : Bool) : Decidable (Carries data isPortrait) :=
  match h : data.orientation with
  | .ok _ => decidable_of_iff _ (by rw [Carries, h, Except.ok.injEq])
  | .error _ => .isFalse (by rw [Carries, h]; nofun)

def Oriented (data : Data) : Prop := Carries data true ∨ Carries data false

/-- Every frame fed carries the orientation that was configured last. -/
def Configured : Bool → List Fed → Prop
  | _, [] => True
  | _, .sps_pps_frame isPortrait :: fed => Configured isPortrait fed
  | configured, .frame data :: fed => Carries data configured ∧ Configured configured fed

/-- The later reads of `isCurPortrait` for a frame fit the frame; a flag that has changed since
the first read does no harm where the comparison still notices it. -/
def ReadsFit (start isCurPortrait isPrePortrait : Bool) : Decoder → Prop
  | .starting => isCurPortrait = start
  | .comparing data => Carries data isCurPortrait ∨ Carries data isPrePortrait
  | .choosing data => Carries data isCurPortrait
  | .remembering data => Carries data isCurPortrait
  | _ => True

/-- The condition on a step: frames carry an orientation, and no rotation falls between the
reads for one frame. -/
def Undisturbed (start : Bool) (s : State) : Input → Prop
  | .putData data => Oriented data
  | .startDecoder _ => ReadsFit start s.isCurPortrait s.isPrePortrait s.decoder
  | _ => True

instance (data : Data) : Decidable (Oriented data) := inferInstanceAs (Decidable (_ ∨ _))

instance (start isCurPortrait isPrePortrait : Bool) :
    ∀ decoder, Decidable (ReadsFit start isCurPortrait isPrePortrait decoder)
  | .starting => inferInstanceAs (Decidable (_ = _))
  | .comparing _ => inferInstanceAs (Decidable (_ ∨ _))
  | .choosing data => inferInstanceAs (Decidable (Carries data isCurPortrait))
  | .remembering data => inferInstanceAs (Decidable (Carries data isCurPortrait))
  | .looping | .getting | .waiting | .testing _ | .configuring _ _ | .feeding _ | .ended =>
      .isTrue trivial

instance (start : Bool) (s : State) : ∀ i, Decidable (Undisturbed start s i)
  | .putData data => inferInstanceAs (Decidable (Oriented data))
  | .startDecoder _ => inferInstanceAs (Decidable (ReadsFit _ _ _ _))
  | .setOrientation _ | .stop => .isTrue trivial

theorem Carries.unique {data : Data} {p q : Bool} (hp : Carries data p) (hq : Carries data q) :
    p = q := by
  have heq := Except.ok.inj (hp.symm.trans hq)
  revert heq
  cases p <;> cases q <;> decide

theorem mem_of_mem_drainFrame {data : Data} {list : List Data} (h : data ∈ drainFrame list) :
    data ∈ list := by
  rcases plain_or_split list with hplain | ⟨lead, k, tail, rfl, hlead, hk⟩
  · rwa [drainFrame_plain hplain] at h
  · rw [drainFrame_split hlead hk] at h
    exact List.mem_append_right lead h

/-! ## One step -/

/-- What the decode thread relies on, from the orientation configured last. -/
def Expects (start configured isPrePortrait : Bool) : Decoder → Prop
  | .starting => configured = start
  | .looping | .getting | .waiting => isPrePortrait = configured
  | .testing data | .comparing data => isPrePortrait = configured ∧ Oriented data
  | .choosing _ => True
  | .configuring data isPortrait => Carries data isPortrait
  | .remembering data => Carries data configured
  | .feeding data => isPrePortrait = configured ∧ Carries data configured
  | .ended => True

structure Inv (start configured : Bool) (s : State) : Prop where
  list : ∀ data ∈ s.list, Oriented data
  decoder : Expects start configured s.isPrePortrait s.decoder

/-- The step feeds what fits, and the invariant holds of what is configured then. -/
def Keeps (start configured : Bool) (s : State) (fed : List Fed) : Prop :=
  ∃ configured', Inv start configured' s ∧
    ∀ rest, Configured configured' rest → Configured configured (fed ++ rest)

theorem keeps_of_inv {start configured : Bool} {s : State} (h : Inv start configured s) :
    Keeps start configured s [] :=
  ⟨configured, h, fun _ hrest => hrest⟩

theorem startDecoder_keeps {start configured ret : Bool} {s s' : State} {fed : List Fed}
    (hinv : Inv start configured s)
    (hfit : ReadsFit start s.isCurPortrait s.isPrePortrait s.decoder)
    (h : startDecoder s ret = .ok (s', fed)) : Keeps start configured s' fed := by
  obtain ⟨hlist, hdecoder⟩ := hinv
  unfold startDecoder at h
  cases hpc : s.decoder with
  | starting =>
      rw [hpc] at h hdecoder hfit
      cases h
      exact keeps_of_inv ⟨hlist, hfit.trans hdecoder.symm⟩
  | looping =>
      rw [hpc] at h hdecoder
      cases h
      refine keeps_of_inv ⟨hlist, ?_⟩
      dsimp only
      split
      · exact hdecoder
      · trivial
  | getting =>
      rw [hpc] at h hdecoder
      dsimp only at h
      split at h
      · cases h
        exact keeps_of_inv ⟨by simp, hdecoder⟩
      · rename_i data list hdrained
        cases h
        have hmem : ∀ d ∈ data :: list, d ∈ s.list := fun d hd =>
          mem_of_mem_drainFrame (hdrained ▸ hd)
        exact keeps_of_inv ⟨fun d hd => hlist d (hmem d (by simp [hd])), hdecoder,
          hlist data (hmem data (by simp))⟩
  | waiting =>
      rw [hpc] at h hdecoder
      dsimp only at h
      split at h
      · split at h
        · cases h
        · rename_i data list hlist'
          cases h
          rw [hlist'] at hlist
          exact keeps_of_inv ⟨fun d hd => hlist d (by simp [hd]), hdecoder, hlist data (by simp)⟩
      · cases h
        exact keeps_of_inv ⟨hlist, trivial⟩
  | testing data =>
      rw [hpc] at h hdecoder
      obtain ⟨orientation, -, h⟩ := Java.bind_eq_ok.mp h
      split at h
      · cases h
        exact keeps_of_inv ⟨hlist, hdecoder.1⟩
      · split at h
        · cases h
          exact keeps_of_inv ⟨hlist, hdecoder.1⟩
        · cases h
          exact keeps_of_inv ⟨hlist, hdecoder⟩
  | comparing data =>
      rw [hpc] at h hdecoder hfit
      cases h
      refine keeps_of_inv ⟨hlist, ?_⟩
      dsimp only
      split
      · trivial
      · rename_i hsame
        -- both flags agree, so the frame fits what is configured
        have hcur : s.isPrePortrait = s.isCurPortrait := not_not.mp hsame
        refine ⟨hdecoder.1, ?_⟩
        rw [← hdecoder.1]
        rcases hfit with hfit | hfit
        · rwa [hcur]
        · exact hfit
  | choosing data =>
      rw [hpc] at h hfit
      cases h
      exact keeps_of_inv ⟨hlist, hfit⟩
  | configuring data isPortrait =>
      rw [hpc] at h hdecoder
      cases h
      exact ⟨isPortrait, ⟨hlist, hdecoder⟩, fun _ hrest => hrest⟩
  | remembering data =>
      rw [hpc] at h hdecoder hfit
      cases h
      exact keeps_of_inv ⟨hlist, hfit.unique hdecoder, hdecoder⟩
  | feeding data =>
      rw [hpc] at h hdecoder
      cases h
      refine ⟨configured, ⟨hlist, ?_⟩, fun _ hrest => ⟨hdecoder.2, hrest⟩⟩
      dsimp only
      split
      · exact hdecoder.1
      · trivial
  | ended =>
      rw [hpc] at h
      cases h
      exact keeps_of_inv ⟨hlist, by rw [hpc]; trivial⟩

theorem step_keeps {start configured : Bool} {s s' : State} {i : Input} {fed : List Fed}
    (hinv : Inv start configured s) (hi : Undisturbed start s i)
    (h : step s i = .ok (s', fed)) : Keeps start configured s' fed := by
  cases i with
  | setOrientation orientation =>
      cases h
      exact keeps_of_inv ⟨hinv.list, hinv.decoder⟩
  | putData data =>
      cases h
      refine keeps_of_inv ⟨fun d hd => ?_, hinv.decoder⟩
      rcases List.mem_append.mp hd with hd | hd
      · exact hinv.list d hd
      · rw [List.mem_singleton.mp hd]
        exact hi
  | stop =>
      cases h
      exact keeps_of_inv ⟨hinv.list, hinv.decoder⟩
  | startDecoder ret => exact startDecoder_keeps hinv hi h

/-! ## Runs -/

/-- In a run in which no rotation disturbs the reads for a frame, every frame fed carries the
orientation that was configured last. -/
theorem frames_are_configured (start : Bool) (is : List Input)
    (hmeets : Meets step (fun _ s i => Undisturbed start s i) [] (.initial start) is) :
    Configured start (outputs step (.initial start) is) := by
  have hinv : Inv start start (.initial start) := ⟨by simp [State.initial], rfl⟩
  refine outputs_of_meets (Inv start) Configured (fun _ => trivial) ?_ hinv hmeets
  intro configured past s i s' fed hinv hi h
  exact step_keeps hinv hi h

/-- A frame with a key flag. -/
def frameOf (isPortrait : Bool) : Data := ⟨[7, if isPortrait then 1 else 2, 1], by simp⟩

/-- A portrait frame is fed, and after a rotation a landscape frame. -/
def rotatedBetween : List Input :=
  [.putData (frameOf true)] ++ List.replicate 6 (.startDecoder true) ++
    [.setOrientation 2, .putData (frameOf false)] ++ List.replicate 7 (.startDecoder true)

theorem frames_are_configured_rotated :
    Configured true (outputs step (.initial true) rotatedBetween) :=
  frames_are_configured true rotatedBetween (by decide +kernel)

/-- The rotation falls between the test of a portrait frame and the comparison. -/
def rotatedWithin : List Input :=
  [.putData (frameOf true)] ++ List.replicate 4 (.startDecoder true) ++ [.setOrientation 2] ++
    List.replicate 5 (.startDecoder true)

/-- The landscape SPS and PPS are fed, and the portrait frame after them. -/
theorem frame_after_wrong_configuration :
    ¬ ∀ (start : Bool) (is : List Input), (∀ data, .putData data ∈ is → Oriented data) →
      Configured start (outputs step (.initial start) is) := by
  intro h
  have hfed : outputs step (.initial true) rotatedWithin =
      [.sps_pps_frame false, .frame (frameOf true)] := by decide +kernel
  have hconfigured := h true rotatedWithin fun data hdata => by
    simp [rotatedWithin] at hdata
    exact hdata ▸ Or.inl rfl
  rw [hfed] at hconfigured
  exact absurd hconfigured.1 (by decide +kernel)

end MirrorCast.Native
