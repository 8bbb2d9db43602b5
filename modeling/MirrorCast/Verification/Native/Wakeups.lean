import MirrorCast.Program.Native.Waiting
import MirrorCast.Verification.Native.Dropping

/-! # When `getData` finds a frame -/

namespace MirrorCast.Native.Waiting

open Java

/-- A waiting thread that a signal has unblocked, and that has not run yet. -/
def Woken (s : State) (thread : ℕ) : Prop := s.decoders[thread]? = some (.waiting true)

/-- Every thread that was unblocked will find a frame, or that the client is gone. -/
def Awaited (s : State) : Prop := ∀ thread, Woken s thread → s.list ≠ [] ∨ s.isPlaying = false

/-- No wait ends by itself while there is nothing to find; and as long as a thread that was
unblocked has not run, nothing takes away what it is to find. -/
def Careful (s : State) : Input → Prop
  | .startMediaCodec caller _ =>
      s.starters[caller]? = some .playing → s.list = [] → ∀ thread, ¬ Woken s thread
  | .signal unblocked =>
      0 < s.stopping → s.list = [] → s.isPlaying = true →
        ∀ thread ∈ unblocked, s.decoders[thread]? ≠ some (.waiting false)
  | .startDecoder thread _ =>
      s.isPlaying = true →
        match s.decoders[thread]? with
        | some .locking => (MediaData.drainFrame s.list).length = 1 → ∀ other, ¬ Woken s other
        | some (.waiting signalled) =>
            (signalled = false → s.list ≠ []) ∧
              (s.list.length = 1 → ∀ other, other ≠ thread → ¬ Woken s other)
        | some .clearing => ∀ other, ¬ Woken s other
        | _ => True
  | _ => True

theorem drainFrame_eq_nil {list : List Data} (h : MediaData.drainFrame list = []) : list = [] := by
  rcases plain_or_split list with hplain | ⟨lead, k, tail, rfl, hlead, hk⟩
  · rwa [drainFrame_plain hplain] at h
  · rw [drainFrame_split hlead hk] at h
    cases h

/-! ## What a step does to the unblocked threads -/

variable {s t : State} {thread other : ℕ} {decoder : Decoder} {ret : Bool} {list : List Data}

theorem woken_moveDecoder (hd : decoder ≠ .waiting true)
    (h : Woken (s.moveDecoder thread decoder) other) : other ≠ thread ∧ Woken s other := by
  rw [Woken, State.moveDecoder, List.getElem?_set] at h
  split at h
  · split at h
    · exact absurd (Option.some.inj h) hd
    · cases h
  · rename_i hne
    exact ⟨fun heq => hne heq.symm, h⟩

theorem woken_unblock {unblocked : List ℕ} (h : (unblock s.decoders unblocked)[other]? =
    some (.waiting true)) :
    Woken s other ∨ other ∈ unblocked ∧ s.decoders[other]? = some (.waiting false) := by
  rw [unblock, List.getElem?_mapIdx] at h
  obtain ⟨decoder, hdecoder, h⟩ := Option.map_eq_some_iff.mp h
  split at h
  · rename_i hwaits
    rw [hwaits.2] at hdecoder
    exact Or.inr ⟨hwaits.1, hdecoder⟩
  · rw [h] at hdecoder
    exact Or.inl hdecoder

theorem awaited_of_stopped (h : s.isPlaying = false) : Awaited s := fun _ _ => Or.inr h

theorem Awaited.moveDecoder (h : Awaited s) (hd : decoder ≠ .waiting true) :
    Awaited (s.moveDecoder thread decoder) :=
  fun other hother => h other (woken_moveDecoder hd hother).2

/-- Taking a frame leaves one for whoever was unblocked, if it was not the last. -/
theorem awaited_pop (hlist : list ≠ [])
    (hothers : s.isPlaying = true → list.length = 1 → ∀ other, other ≠ thread → ¬ Woken s other) :
    ∃ t, pop s thread ret list = .ok t ∧ Awaited t := by
  obtain ⟨data, rest, rfl⟩ := List.exists_cons_of_ne_nil hlist
  refine ⟨_, rfl, fun other hother => ?_⟩
  obtain ⟨hne, hwoken⟩ := woken_moveDecoder (by split <;> simp) hother
  by_cases hrest : rest = []
  · subst hrest
    refine Or.inr ?_
    cases hplaying : s.isPlaying with
    | false => rfl
    | true => exact absurd hwoken (hothers hplaying rfl other hne)
  · exact Or.inl hrest

/-- A careful step of a decode thread pops no empty list; it may free what cannot be freed. -/
theorem startDecoder_awaited (h : Awaited s) (hcareful : Careful s (.startDecoder thread ret)) :
    (∃ t, startDecoder s thread ret = .ok t ∧ Awaited t) ∨
      startDecoder s thread ret = .error .invalidFree := by
  unfold startDecoder
  dsimp only [Careful] at hcareful
  cases hd : s.decoders[thread]? with
  | none => exact .inl ⟨s, rfl, h⟩
  | some decoder =>
      rw [hd] at hcareful
      cases decoder with
      | looping => exact .inl ⟨_, rfl, h.moveDecoder (by split <;> simp)⟩
      | locking =>
          dsimp only
          split
          · rename_i hnil
            refine .inl ⟨_, rfl, fun other hother => ?_⟩
            have hstays := h other (woken_moveDecoder (by simp) hother).2
            rw [drainFrame_eq_nil hnil] at hstays
            exact Or.inr (hstays.resolve_left (fun hne => hne rfl))
          · rename_i hsome
            exact .inl (awaited_pop hsome fun hplaying hone other _ =>
              hcareful hplaying hone other)
      | waiting signalled =>
          cases hplaying : s.isPlaying with
          | false => exact .inl ⟨_, rfl, awaited_of_stopped hplaying⟩
          | true =>
              obtain ⟨hspurious, hothers⟩ := hcareful hplaying
              have hlist : s.list ≠ [] := by
                cases signalled with
                | false => exact hspurious rfl
                | true => exact (h thread hd).resolve_right (by simp [hplaying])
              exact .inl (awaited_pop hlist fun _ hone => hothers hone)
      | ending => exact .inl ⟨_, rfl, awaited_of_stopped rfl⟩
      | freeing => exact .inl ⟨_, rfl, h.moveDecoder (by split <;> simp)⟩
      | iterating =>
          dsimp only
          split
          · exact .inl ⟨_, rfl, h.moveDecoder (by simp)⟩
          · exact .inr rfl
      | clearing =>
          refine .inl ⟨_, rfl, fun other hother => ?_⟩
          have hwoken : Woken s other := (woken_moveDecoder (by simp) hother).2
          cases hplaying : s.isPlaying with
          | false => exact Or.inr rfl
          | true => exact absurd hwoken (hcareful hplaying other)
      | ended => exact .inl ⟨s, rfl, h⟩

theorem startMediaCodec_awaited {caller : ℕ} {ready : Bool} (h : Awaited s)
    (hcareful : Careful s (.startMediaCodec caller ready)) :
    Awaited (startMediaCodec s caller ready) := by
  unfold startMediaCodec
  dsimp only [Careful] at hcareful
  cases hstarter : s.starters[caller]? with
  | none => exact h
  | some starter =>
      cases starter with
      | testing => exact h
      | playing =>
          intro other hother
          by_cases hlist : s.list = []
          · exact absurd hother (hcareful hstarter hlist other)
          · exact Or.inl hlist
      | retesting => exact h
      | creating =>
          intro other hother
          refine h other ?_
          have hget : (s.decoders ++ [Decoder.looping])[other]? = some (.waiting true) := hother
          rw [List.getElem?_append] at hget
          split at hget
          · exact hget
          · rw [List.getElem?_singleton] at hget
            split at hget <;> cases hget
      | ended => exact h

/-- A careful step that returns leaves every unblocked thread with something to find. -/
theorem next_awaited {i : Input} (h : Awaited s) (hcareful : Careful s i) :
    (∃ t, next s i = .ok t ∧ Awaited t) ∨ next s i = .error .invalidFree := by
  cases i with
  | putData data unblocked => exact .inl ⟨_, rfl, fun _ _ => Or.inl (by simp)⟩
  | connect => exact .inl ⟨_, rfl, h⟩
  | startMediaCodec caller ready => exact .inl ⟨_, rfl, startMediaCodec_awaited h hcareful⟩
  | stop => exact .inl ⟨_, rfl, awaited_of_stopped rfl⟩
  | signal unblocked =>
      refine .inl ⟨_, rfl, ?_⟩
      split
      · exact h
      · rename_i hstopping
        intro other hother
        cases hplaying : s.isPlaying with
        | false => exact Or.inr rfl
        | true =>
            refine Or.inl fun hlist : s.list = [] => ?_
            rcases woken_unblock hother with hwoken | ⟨hmem, hwaits⟩
            · rcases h other hwoken with hne | hstopped
              · exact hne hlist
              · rw [hplaying] at hstopped
                cases hstopped
            · exact hcareful (Nat.pos_of_ne_zero hstopping) hlist hplaying other hmem hwaits
  | startDecoder thread ret => exact startDecoder_awaited h hcareful

theorem awaited_initial : Awaited .initial := awaited_of_stopped rfl

/-- In every run of careful steps `getData` pops no empty list. -/
theorem getData_finds_frame {inputs : List Input}
    (h : Machine.Meets step (fun _ => Careful) [] .initial inputs) :
    Machine.final step .initial inputs ≠ .error .emptyList := by
  intro hcrash
  refine absurd (Machine.error_of_meets Awaited (· ≠ .emptyList) ?_ awaited_initial h hcrash)
    (fun hne => hne rfl)
  intro _ s i hinv hcareful
  rw [step]
  rcases next_awaited hinv hcareful with ⟨t, ht, hnext⟩ | hfree
  · rw [ht]
    exact .inl ⟨t, [], rfl, hnext⟩
  · rw [hfree]
    exact .inr ⟨.invalidFree, rfl, by decide⟩

/-- A client connects, and its first frame ends the wait for it. -/
def oneFrame : List Input :=
  [.connect, .startMediaCodec 0 true, .startMediaCodec 0 true, .startMediaCodec 0 true,
    .startMediaCodec 0 true, .startDecoder 0 true, .startDecoder 0 true,
    .putData ⟨[0, 1, 1], by decide⟩ [0], .startDecoder 0 true]

theorem getData_finds_frame_oneFrame :
    Machine.final step .initial oneFrame ≠ .error .emptyList := by
  refine getData_finds_frame ?_
  have hnone : ∀ thread : ℕ, ([] : List Decoder)[thread]? ≠ some (.waiting true) := by simp
  refine (Machine.meets_cons_of_ok rfl _).mpr ⟨trivial, ?_⟩
  refine (Machine.meets_cons_of_ok rfl _).mpr ⟨fun _ _ => hnone, ?_⟩
  refine (Machine.meets_cons_of_ok rfl _).mpr ⟨fun _ _ => hnone, ?_⟩
  refine (Machine.meets_cons_of_ok rfl _).mpr ⟨fun _ _ => hnone, ?_⟩
  refine (Machine.meets_cons_of_ok rfl _).mpr ⟨fun _ _ => hnone, ?_⟩
  refine (Machine.meets_cons_of_ok rfl _).mpr ⟨fun _ => trivial, ?_⟩
  refine (Machine.meets_cons_of_ok rfl _).mpr ⟨fun _ => nofun, ?_⟩
  refine (Machine.meets_cons_of_ok rfl _).mpr ⟨trivial, ?_⟩
  refine (Machine.meets_cons_of_ok rfl _).mpr ⟨fun _ => ⟨nofun, fun _ other hne hwoken => ?_⟩, trivial⟩
  cases other with
  | zero => exact hne rfl
  | succ n => cases hwoken

/-- The wait for the first frame ends by itself. -/
def spurious : List Input :=
  [.connect, .startMediaCodec 0 true, .startMediaCodec 0 true, .startMediaCodec 0 true,
    .startMediaCodec 0 true, .startDecoder 0 true, .startDecoder 0 true, .startDecoder 0 true]

theorem getData_pops_empty :
    ¬ ∀ inputs : List Input, Machine.final step .initial inputs ≠ .error .emptyList := by
  intro h
  exact h spurious rfl

/-! ## What a careless step leads to -/

theorem pops_empty (hwoken : Woken s thread) (hlist : s.list = []) (hplaying : s.isPlaying = true)
    (ret : Bool) : step s (.startDecoder thread ret) = .error .emptyList := by
  simp only [step, next, startDecoder, show s.decoders[thread]? = _ from hwoken, hplaying, hlist]
  rfl

theorem Woken.moveDecoder (hwoken : Woken s other) (hne : other ≠ thread) :
    Woken (s.moveDecoder thread decoder) other := by
  rw [Woken, State.moveDecoder, List.getElem?_set_ne (Ne.symm hne)]
  exact hwoken

theorem stranded_pops {i : Input} (hstep : step s i = .ok (t, [])) (hwoken : Woken t other)
    (hlist : t.list = []) (hplaying : t.isPlaying = true) :
    ∃ rest, Machine.final step s (i :: rest) = .error .emptyList := by
  refine ⟨[.startDecoder other true], ?_⟩
  rw [Machine.final_cons_of_ok hstep, Machine.final_cons_of_error (pops_empty hwoken hlist hplaying _)]

theorem careless_startDecoder (h : ¬ Careful s (.startDecoder thread ret)) :
    ∃ rest, Machine.final step s (.startDecoder thread ret :: rest) = .error .emptyList := by
  dsimp only [Careful] at h
  obtain ⟨hplaying, h⟩ := Classical.not_imp.mp h
  cases hd : s.decoders[thread]? with
  | none => simp [hd] at h
  | some decoder =>
      rw [hd] at h
      cases decoder with
      | looping => exact absurd trivial h
      | ending => exact absurd trivial h
      | freeing => exact absurd trivial h
      | iterating => exact absurd trivial h
      | ended => exact absurd trivial h
      | locking =>
          obtain ⟨hone, h⟩ := Classical.not_imp.mp h
          push Not at h
          obtain ⟨other, hwoken⟩ := h
          obtain ⟨data, hdata⟩ := List.length_eq_one_iff.mp hone
          have hne : other ≠ thread := by
            rintro rfl
            rw [Woken, hd] at hwoken
            cases hwoken
          have htaken : step s (.startDecoder thread ret) =
              .ok (State.moveDecoder { s with list := [] } thread
                (if ret then .looping else .ending), []) := by
            simp only [step, next, startDecoder, hd, hdata]
            rfl
          have hleft : Woken { s with list := [] } other := hwoken
          exact stranded_pops htaken (hleft.moveDecoder hne) rfl hplaying
      | waiting signalled =>
          rw [not_and_or] at h
          rcases h with h | h
          · obtain ⟨hspurious, hlist⟩ := Classical.not_imp.mp h
            refine ⟨[], Machine.final_cons_of_error ?_ _⟩
            simp only [step, next, startDecoder, hd, hplaying, not_not.mp hlist]
            rfl
          · obtain ⟨hone, h⟩ := Classical.not_imp.mp h
            push Not at h
            obtain ⟨other, hne, hwoken⟩ := h
            obtain ⟨data, hdata⟩ := List.length_eq_one_iff.mp hone
            have htaken : step s (.startDecoder thread ret) =
                .ok (State.moveDecoder { s with list := [] } thread
                  (if ret then .looping else .ending), []) := by
              rw [step, next, startDecoder, hd]
              dsimp only
              rw [if_pos hplaying, hdata]
              rfl
            have hleft : Woken { s with list := [] } other := hwoken
            exact stranded_pops htaken (hleft.moveDecoder hne) rfl hplaying
      | clearing =>
          push Not at h
          obtain ⟨other, hwoken⟩ := h
          have hne : other ≠ thread := by
            rintro rfl
            rw [Woken, hd] at hwoken
            cases hwoken
          have htaken : step s (.startDecoder thread ret) =
              .ok (State.moveDecoder { s with list := [] } thread .ended, []) := by
            simp only [step, next, startDecoder, hd]
            rfl
          have hleft : Woken { s with list := [] } other := hwoken
          exact stranded_pops htaken (hleft.moveDecoder hne) rfl hplaying

/-- The condition is exact: a careless step pops an empty list, or a thread that was unblocked
does when it runs next. -/
theorem careless_pops {i : Input} (h : ¬ Careful s i) :
    ∃ rest, Machine.final step s (i :: rest) = .error .emptyList := by
  cases i with
  | putData data unblocked => exact absurd trivial h
  | connect => exact absurd trivial h
  | stop => exact absurd trivial h
  | startDecoder thread ret => exact careless_startDecoder h
  | startMediaCodec caller ready =>
      dsimp only [Careful] at h
      push Not at h
      obtain ⟨hstarter, hlist, other, hwoken⟩ := h
      have hstarted : step s (.startMediaCodec caller ready) =
          .ok (State.moveStarter { s with isPlaying := true } caller .retesting, []) := by
        simp only [step, next, startMediaCodec, hstarter]
        rfl
      exact stranded_pops hstarted (show Woken _ other from hwoken) hlist rfl
  | signal unblocked =>
      dsimp only [Careful] at h
      push Not at h
      obtain ⟨hstopping, hlist, hplaying, other, hmem, hwaits⟩ := h
      have hsignalled : step s (.signal unblocked) = .ok ({ s with
          decoders := unblock s.decoders unblocked, stopping := s.stopping - 1 }, []) := by
        simp only [step, next, if_neg (Nat.ne_of_gt hstopping)]
        rfl
      have hwoken : (unblock s.decoders unblocked)[other]? = some (.waiting true) := by
        rw [unblock, List.getElem?_mapIdx, hwaits]
        simp [hmem]
      exact stranded_pops hsignalled (show Woken _ other from hwoken) hlist hplaying

end MirrorCast.Native.Waiting
