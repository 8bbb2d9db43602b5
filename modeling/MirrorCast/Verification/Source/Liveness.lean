import MirrorCast.Program.WifiDisplaySource.Delays
import MirrorCast.Verification.Source.Handlers
import MirrorCast.Verification.Source.Playing

/-! # Signs of life, and the reaper -/

namespace MirrorCast.WifiDisplaySource

open Java
open ANetworkSession (OK)

def Message.isReaper : Message → Bool
  | .reapDeadClients => true
  | _ => false

def Effect.postsReaper : Effect → Bool
  | .post msg _ => msg.isReaper
  | _ => false

/-- The reaper is not scheduled, and only a sign of life is noted. -/
structure Tended (env : Env) (alive : Prop) (s t : WifiDisplaySource) : Prop where
  life : t.mLastLifesignUs = s.mLastLifesignUs ∨ alive ∧ t.mLastLifesignUs = env.nowUs
  session : t.mClientInfo.mPlaybackSessionID = s.mClientInfo.mPlaybackSessionID
  effects : ∃ effects, t.effects = s.effects ++ effects ∧
    ∀ effect ∈ effects, effect.postsReaper = false

variable {env : Env} {alive : Prop} {s t : WifiDisplaySource}

theorem Tended.of_eq (life : t.mLastLifesignUs = s.mLastLifesignUs)
    (session : t.mClientInfo.mPlaybackSessionID = s.mClientInfo.mPlaybackSessionID)
    (effects : t.effects = s.effects) : Tended env alive s t where
  life := .inl life
  session := session
  effects := ⟨[], effects.trans (List.append_nil _).symm, nofun⟩

instance : IsPreorder WifiDisplaySource (Tended env alive) where
  refl _ := .of_eq rfl rfl rfl
  trans s t u h h' := by
    obtain ⟨effects, heffects, hnone⟩ := h.effects
    obtain ⟨effects', heffects', hnone'⟩ := h'.effects
    refine ⟨?_, h'.session.trans h.session, effects ++ effects', ?_, ?_⟩
    · rcases h'.life with hlife | hlife
      · rw [hlife]
        exact h.life
      · exact .inr hlife
    · rw [heffects', heffects, List.append_assoc]
    · exact fun effect hmem => (List.mem_append.mp hmem).elim (hnone _) (hnone' _)

/-- The handlers keep to this, but for the reaper and for a new playback session. -/
theorem tended_follows (env : Env) (alive : Prop) :
    Follows env (fun _ _ => True) (Tended env alive) where
  picks s t h := by
    rw [h]
    exact .of_eq rfl rfl rfl
  request env' sessionID line headers func s := by
    refine (sendAndRegister_logs env' sessionID line headers func s).mono ?_ ?_
    · rintro err t (⟨-, rfl⟩ | ⟨-, rfl⟩)
      · exact ⟨.inl rfl, rfl, _, rfl, by simp [Effect.postsReaper]⟩
      · exact refl _
    · rintro _ t rfl
      exact refl _
  other s t h := .of_eq (congrArg Watched.mLastLifesignUs h)
    (congrArg Watched.mPlaybackSessionID h) (congrArg Watched.effects h)
  log s effect h := by
    refine ⟨.inl rfl, rfl, [effect], rfl, fun effect' hmem => ?_⟩
    rw [List.mem_singleton.mp hmem]
    cases effect with
    | post msg delayMillis => cases msg <;> first | rfl | cases h
    | _ => rfl
  sendRequest sessionID data s := by
    refine (sendRequest_logs sessionID data s).mono ?_ ?_
    · rintro err t (⟨-, rfl⟩ | ⟨-, rfl⟩)
      · exact ⟨.inl rfl, rfl, _, rfl, by simp [Effect.postsReaper]⟩
      · exact refl _
    · rintro _ t rfl
      exact refl _
  take s sessionID cseq func _ _ := ⟨.inl rfl, rfl, _, rfl, by simp [Effect.postsReaper]⟩

/-! ## Signs of life -/

/-- If it returns, a sign of life was noted. -/
def Lives {α : Type} (env : Env) (x : Handler α) (s : WifiDisplaySource) : Prop :=
  Ends x s (fun _ t => t.mLastLifesignUs = env.nowUs) (fun _ _ => True)

/-- The sign is not forgotten. -/
theorem Lives.of_keeps {α : Type} {x : Handler α} (h : Keeps (Tended env True) x s)
    (hs : s.mLastLifesignUs = env.nowUs) : Lives env x s :=
  h.mono (fun _ _ ht => ht.life.elim (·.trans hs) (·.2)) fun _ _ _ => trivial

theorem finishPlay_lives (env : Env) (s : WifiDisplaySource) : Lives env (finishPlay env) s := by
  unfold finishPlay play
  refine .get_bind (.bind .trivial fun _ t _ => ?_)
  refine .bind (Q := fun _ t => t.mLastLifesignUs = env.nowUs) ?_ fun err t ht => ?_
  · exact .modify_bind (.modify_bind (.pure rfl))
  · exact .ite (fun _ => .throw trivial) fun _ => .pure ht

section

variable [CharData] {data : ParsedMessage}

/-- A request for the playback session goes on with it. -/
theorem lives_findPlaybackSession_bind {α : Type} {f : Option PlaybackSession × ℤ → Handler α}
    (h : s.Finds data)
    (hf : ∀ playbackSession playbackSessionID, playbackSession ≠ none →
      Lives env (f (playbackSession, playbackSessionID)) s) :
    Lives env (findPlaybackSession data >>= f) s := by
  refine Ends.seq (findPlaybackSession_ends data s) (fun _ _ _ => trivial) ?_
  rintro ⟨playbackSession, playbackSessionID⟩ t ⟨rfl, hfound⟩
  obtain ⟨session, _, hfound'⟩ := h
  rw [hfound] at hfound'
  cases hfound'
  exact hf _ _ nofun

theorem onOptionsRequest_lives (h : s.Finds data) (sessionID cseq : ℤ) :
    Lives env (onOptionsRequest env sessionID cseq data) s := by
  have hR := tended_follows env True
  unfold onOptionsRequest
  refine lives_findPlaybackSession_bind h fun playbackSession _ hne => ?_
  refine .bind (Q := fun _ t => t.mLastLifesignUs = env.nowUs) ?_ fun _ t ht => ?_
  · exact .ite (fun _ => .modify rfl) fun hnone => absurd hne hnone
  refine Lives.of_keeps (.bind (hR.sendRequest ..) fun err t _ => ?_) ht
  exact .ite (fun _ => .pure) fun _ => hR.request ..

theorem onPlayRequest_lives (h : s.Finds data)
    (hstate : s.mState = .AWAITING_CLIENT_PLAY ∨ s.mState = .PAUSED_TO_PLAYING ∨
      s.mState = .PAUSED) (hestablished : s.mPlaybackSessionEstablished = true)
    (sessionID cseq : ℤ) : Lives env (onPlayRequest env sessionID cseq data) s := by
  have hR := tended_follows env True
  unfold onPlayRequest
  refine lives_findPlaybackSession_bind h fun playbackSession _ hne => ?_
  refine .ite (fun hnone => absurd hnone hne) fun _ => .get_bind ?_
  refine .ite (fun hstate' => by tauto) fun _ => ?_
  refine .bind (Q := fun _ t => t.mLastLifesignUs = env.nowUs) ?_ fun _ t ht => ?_
  · exact .ite (fun _ => finishPlay_lives env s) fun hnot => absurd hestablished hnot
  refine Lives.of_keeps (.bind (hR.sendRequest ..) fun err t _ => ?_) ht
  refine .ite (fun _ => .pure) fun _ => .ite (fun _ => ?_) fun _ => ?_
  · exact .modify_bind (hR.other _ _ rfl) .pure
  · exact .ite (fun _ => .throw_bind) fun _ => .modify_bind (hR.other _ _ rfl) .pure

theorem onPauseRequest_lives (h : s.Finds data)
    (hstate : s.mState = .PLAYING_TO_PAUSED ∨ s.mState = .PLAYING) (sessionID cseq : ℤ) :
    Lives env (onPauseRequest env sessionID cseq data) s := by
  have hR := tended_follows env True
  unfold onPauseRequest pause
  refine lives_findPlaybackSession_bind h fun playbackSession _ hne => ?_
  refine .ite (fun hnone => absurd hnone hne) fun _ => .get_bind ?_
  refine .ite (fun hstate' => by tauto) fun _ => ?_
  refine .bind (Q := fun _ t => t.mLastLifesignUs = env.nowUs) ?_ fun err t ht => ?_
  · exact .modify_bind (.modify_bind (.pure rfl))
  refine .ite (fun _ => .throw_bind trivial) fun _ => ?_
  refine Lives.of_keeps (.bind (hR.sendRequest ..) fun err t _ => ?_) ht
  exact .ite (fun _ => .pure) fun _ => .modify_bind (hR.other _ _ rfl) .pure

theorem onGetParameterRequest_lives (h : s.Finds data) (sessionID cseq : ℤ) :
    Lives env (onGetParameterRequest env sessionID cseq data) s := by
  unfold onGetParameterRequest
  refine lives_findPlaybackSession_bind h fun playbackSession _ hne => ?_
  refine .ite (fun hnone => absurd hnone hne) fun _ => .modify_bind ?_
  exact Lives.of_keeps ((tended_follows env True).sendRequest ..) rfl

theorem onSetParameterRequest_lives (h : s.Finds data) (sessionID cseq : ℤ) :
    Lives env (onSetParameterRequest env sessionID cseq data) s := by
  unfold onSetParameterRequest
  refine lives_findPlaybackSession_bind h fun playbackSession _ hne => ?_
  refine .ite (fun hnone => absurd hnone hne) fun _ => .bind .trivial fun _ t _ => .modify_bind ?_
  exact Lives.of_keeps ((tended_follows env True).sendRequest ..) rfl

theorem onRequest_lives {method : JString} (h : s.requestIsSign method data)
    (sessionID cseq : ℤ) : Lives env (onRequest env sessionID cseq method data) s := by
  obtain ⟨hfound, rfl | ⟨rfl, hstate, hestablished⟩ | ⟨rfl, hstate⟩ | rfl | rfl⟩ := h <;>
    unfold onRequest
  · rw [if_pos rfl]
    exact onOptionsRequest_lives hfound sessionID cseq
  · rw [if_neg (by decide), if_neg (by decide), if_pos rfl]
    exact onPlayRequest_lives hfound hstate hestablished sessionID cseq
  · rw [if_neg (by decide), if_neg (by decide), if_neg (by decide), if_pos rfl]
    exact onPauseRequest_lives hfound hstate sessionID cseq
  · rw [if_neg (by decide), if_neg (by decide), if_neg (by decide), if_neg (by decide),
      if_neg (by decide), if_pos rfl]
    exact onGetParameterRequest_lives hfound sessionID cseq
  · rw [if_neg (by decide), if_neg (by decide), if_neg (by decide), if_neg (by decide),
      if_neg (by decide), if_neg (by decide), if_pos rfl]
    exact onSetParameterRequest_lives hfound sessionID cseq

theorem onResponse_lives {sessionID cseq : ℤ} (hsession : s.mClientInfo.mPlaybackSession ≠ none)
    (hwaits : s.mResponseHandlers (sessionID, cseq) = some .onReceiveM16Response) :
    Lives env (onResponse env sessionID cseq data) s := by
  unfold onResponse
  refine .get_bind ?_
  rw [hwaits]
  refine .modify_bind (.get_bind (.ite (fun _ => .throw_bind trivial) fun _ => .get_bind ?_))
  refine .bind (Q := fun _ t => t.mLastLifesignUs = env.nowUs) ?_ fun _ t ht => .pure ht
  exact .ite (fun _ => .modify rfl) fun hnone => absurd hsession hnone

/-- A sign of life is noted. -/
theorem onMessageReceived_lives {msg : Message} (h : s.signOfLife msg) :
    Lives env (onMessageReceived env msg) s := by
  cases msg with
  | rtspNotify n =>
      match n with
      | .session sessionID (.data data) =>
          refine .bind (Q := fun _ t => t.mLastLifesignUs = env.nowUs) ?_ fun _ _ ht => .pure ht
          rcases h with ⟨cseq, hkind, hsession, hwaits⟩ | ⟨method, cseq, hkind, hsign⟩
          · refine onReceiveClientData_ends (fun cseq' h => ?_) (fun method cseq' h => ?_) ?_
            · rw [hkind] at h
              cases h
              exact onResponse_lives hsession hwaits
            · rw [hkind] at h
              cases h
            · rw [hkind]
              exact nofun
          · refine onReceiveClientData_ends (fun cseq' h => ?_) (fun method cseq' h => ?_) ?_
            · rw [hkind] at h
              cases h
            · rw [hkind] at h
              cases h
              exact onRequest_lives hsign sessionID cseq
            · rw [hkind]
              exact nofun
  | playbackSessionNotify playbackSessionID sessionID n =>
      match n with
      | .sessionEstablished =>
          refine .modify_bind (.bind (finishPlay_lives env _) fun _ t ht => .get_bind ?_)
          exact .ite (fun _ => .modify ht) fun _ => .pure ht
  | _ => exact h.elim

end

end MirrorCast.WifiDisplaySource
