import MirrorCast.Verification.Source.Liveness

/-! # When the reaper comes -/

namespace MirrorCast.WifiDisplaySource

open Java
open ANetworkSession (OK)

/-- The time between two reapers, in microseconds: the interval is taken for milliseconds. -/
def reaperPeriod : ℤ := REAPER_INTERVAL_US * 1000

/-- The reaper destroys the session in this state. -/
def FindsDead (env : Env) (s : WifiDisplaySource) : Prop :=
  s.mClientSessionID ≠ 0 ∧ s.mClientInfo.mPlaybackSession ≠ none ∧
    s.mLastLifesignUs + PLAYBACK_SESSION_TIMEOUT_US < env.nowUs

instance (env : Env) (s : WifiDisplaySource) : Decidable (FindsDead env s) :=
  inferInstanceAs (Decidable (_ ∧ _ ∧ _))

/-- The reaper destroys the session if it finds it dead, and else it may come again. -/
theorem onReapDeadClients_ends (env : Env) (s : WifiDisplaySource) :
    Ends (onReapDeadClients env) s
      (fun _ t => t.mLastLifesignUs = s.mLastLifesignUs ∧ t.mClientInfo = s.mClientInfo ∧
        (FindsDead env s ∧ t.mClientSessionID = 0 ∧
            t.effects = s.effects ++ [.destroySession s.mClientSessionID] ∨
          ¬ FindsDead env s ∧ t.mClientSessionID = s.mClientSessionID ∧
            (t.effects = s.effects ∨
              t.effects = s.effects ++ [.post .reapDeadClients REAPER_INTERVAL_US])))
      (fun _ _ => False) := by
  unfold onReapDeadClients
  refine .modify_bind (.get_bind (.ite (fun hclient => ?_) fun hclient => ?_))
  · exact .pure ⟨rfl, rfl, .inr ⟨fun h => h.1 hclient, rfl, .inl rfl⟩⟩
  split
  · rename_i hnone
    exact .pure ⟨rfl, rfl, .inr ⟨fun h => h.2.1 hnone, rfl, .inl rfl⟩⟩
  · rename_i session hsession
    refine .ite (fun hlate => .modify_bind (.modify ?_)) fun hlate => ?_
    · have hne := Option.ne_none_iff_exists'.mpr ⟨session, hsession⟩
      exact ⟨rfl, rfl, .inl ⟨⟨hclient, hne, hlate⟩, rfl, rfl⟩⟩
    · refine .get_bind (.ite (fun hpending => by cases hpending) fun _ => .modify_bind (.modify ?_))
      exact ⟨rfl, rfl, .inr ⟨fun h => hlate h.2.2, rfl, .inr rfl⟩⟩

/-! ## What is posted -/

variable {answer : ℤ → ParsedMessage} {s t : WifiDisplaySource} {effects : List Effect}

theorem coming_of_append (h : t.effects = s.effects ++ effects) :
    coming answer s t = effects.filterMap (Effect.coming? answer) := by
  rw [coming, h, List.drop_left]

theorem isReaper_of_coming {effect : Effect} {p : ℤ × Message}
    (h : effect.coming? answer = some p) : p.2.isReaper = effect.postsReaper := by
  cases effect with
  | post msg delayMillis =>
      cases h
      rfl
  | registerResponseHandler sessionID cseq func =>
      cases func <;> cases h
      rfl
  | _ => cases h

/-- Only what posts a reaper lets one come. -/
theorem ticks_coming (h : ∀ effect ∈ effects, effect.postsReaper = false) :
    Delays.ticks Message.isReaper (effects.filterMap (Effect.coming? answer)) = [] := by
  rw [Delays.ticks, List.filter_eq_nil_iff.mpr, List.map_nil]
  intro p hp
  obtain ⟨effect, hmem, hcoming⟩ := List.mem_filterMap.mp hp
  rw [isReaper_of_coming hcoming, h effect hmem]
  exact Bool.false_ne_true

section

variable [CharData] {e : Env × Message} {posts : List (ℤ × Message)}

/-- The client keeps its playback session, and its life sign is the time of the last sign. -/
structure Handled (answer : ℤ → ParsedMessage) (e : Env × Message) (s t : WifiDisplaySource) :
    Prop where
  session : t.mClientInfo.mPlaybackSessionID = s.mClientInfo.mPlaybackSessionID
  sign : s.signOfLife e.2 → t.mLastLifesignUs = e.1.nowUs
  noSign : ¬ s.signOfLife e.2 → t.mLastLifesignUs = s.mLastLifesignUs
  other : e.2.isReaper = false → Delays.ticks Message.isReaper (coming answer s t) = []
  own : e.2.isReaper = true → Delays.ticks Message.isReaper (coming answer s t) = [] ∨
    Delays.ticks Message.isReaper (coming answer s t) = [reaperPeriod]

/-- What a message does while there is a playback session. -/
theorem handled_of_handles (hnew : s.mClientInfo.mPlaybackSessionID ≠ -1)
    (h : (answered answer).handles e s t posts) : Handled answer e s t := by
  obtain ⟨hconnects, hrun, -⟩ := h
  obtain ⟨env, msg⟩ := e
  cases hreaper : msg.isReaper with
  | true =>
      obtain rfl : msg = .reapDeadClients := by cases msg <;> first | rfl | cases hreaper
      obtain ⟨hlife, hinfo, hends⟩ := (onReapDeadClients_ends env s).of_ok hrun
      refine ⟨by rw [hinfo], fun hsign => hsign.elim, fun _ => hlife, by simp [hreaper],
        fun _ => ?_⟩
      rcases hends with ⟨-, -, heffects⟩ | ⟨-, -, heffects | heffects⟩
      · rw [coming_of_append heffects]
        exact .inl (ticks_coming (by simp [Effect.postsReaper]))
      · rw [coming_of_append (heffects.trans (List.append_nil _).symm)]
        exact .inl rfl
      · rw [coming_of_append heffects]
        exact .inr rfl
  | false =>
      have htended : Keeps (Tended env (s.signOfLife msg)) (onMessageReceived env msg) s := by
        refine (tended_follows env _).onMessageReceived msg s ?_ (fun _ _ _ _ _ => trivial)
          (fun h => absurd h hnew) ?_ ?_
        · exact fun hsign u => ⟨.inr ⟨hsign, rfl⟩, rfl, [], (List.append_nil _).symm, by simp⟩
        · rintro _ _ _ _ rfl
          cases hconnects
        · rintro rfl
          cases hreaper
      obtain ⟨hlife, hsession, effects, heffects, hnone⟩ := htended.of_ok hrun
      refine ⟨hsession, fun hsign => (onMessageReceived_lives hsign).of_ok hrun, ?_, ?_, ?_⟩
      · exact fun hsign => hlife.elim id fun h => absurd h.1 hsign
      · intro _
        rw [coming_of_append heffects]
        exact ticks_coming hnone
      · intro h
        rw [hreaper] at h
        cases h

/-- The reaper posts itself, and nothing else does while there is a playback session. -/
theorem reaper_periodic (answer : ℤ → ParsedMessage) :
    Delays.Periodic (answered answer) Message.isReaper reaperPeriod
      (fun s => s.mClientInfo.mPlaybackSessionID ≠ -1) where
  preserves hs h := by
    rwa [(handled_of_handles hs h).session]
  inside {msg} h := by
    cases msg <;> cases h
    exact nofun
  other hs h htick p hp := by
    have hticks := (handled_of_handles hs h).other htick
    rw [h.2.2] at hp
    rw [Delays.ticks, List.map_eq_nil_iff, List.filter_eq_nil_iff] at hticks
    simpa using hticks p hp
  own hs h htick := by
    rw [h.2.2]
    exact (handled_of_handles hs h).own htick

/-! ## `SETUP` -/

/-- A successful `SETUP` schedules the reaper, unless that is pending, and the first M16. -/
structure Begins (env : Env) (sessionID : ℤ) (s t : WifiDisplaySource) : Prop where
  life : t.mLastLifesignUs = env.nowUs
  session : t.mClientInfo.mPlaybackSessionID ≠ -1
  effects : ∃ response, t.effects = s.effects ++
    (.sendRequest sessionID response ::
      (if s.mReaperPending then [] else [.post .reapDeadClients REAPER_INTERVAL_US]) ++
      [.post (.keepAlive sessionID) (PLAYBACK_SESSION_TIMEOUT_US - 5000000)])

omit [CharData] in
theorem scheduleReaper_logs (s : WifiDisplaySource) :
    Ends scheduleReaper s
      (fun _ t => t.mLastLifesignUs = s.mLastLifesignUs ∧ t.mClientInfo = s.mClientInfo ∧
        t.effects = s.effects ++
          if s.mReaperPending then [] else [.post .reapDeadClients REAPER_INTERVAL_US])
      (fun _ _ => False) := by
  unfold scheduleReaper
  refine .get_bind (.ite (fun hpending => .pure ⟨rfl, rfl, ?_⟩) fun hpending => ?_)
  · rw [if_pos hpending, List.append_nil]
  · refine .modify_bind (.modify ⟨rfl, rfl, ?_⟩)
    rw [if_neg hpending]

omit [CharData] in
theorem scheduleKeepAlive_logs (sessionID : ℤ) (s : WifiDisplaySource) :
    Ends (scheduleKeepAlive sessionID) s
      (fun _ t => t = { s with effects := s.effects ++
        [.post (.keepAlive sessionID) (PLAYBACK_SESSION_TIMEOUT_US - 5000000)] })
      (fun _ _ => False) := by
  unfold scheduleKeepAlive
  exact .ite (fun h => absurd h (by decide)) fun _ => .modify rfl

omit [CharData] in
theorem setUpPlaybackSession_begins (env : Env) (sessionID cseq : ℤ) (transport : Transport)
    (s : WifiDisplaySource) :
    Ends (setUpPlaybackSession env sessionID cseq transport) s
      (fun err t => err = OK → Begins env sessionID s t) (fun _ _ => True) := by
  unfold setUpPlaybackSession
  refine .get_bind (.seq (call_ends _ s) (fun _ _ _ => trivial) ?_)
  rintro ⟨err, playbackSession⟩ t ⟨rfl, -⟩
  refine .ite (fun herr => .bind .trivial fun _ _ _ => .pure fun h => absurd h herr) fun _ => ?_
  refine .modify_bind (.modify_bind (.seq (sendRequest_logs ..) (fun _ _ _ => trivial) ?_))
  rintro err u hu
  refine .ite (fun herr => .pure fun h => absurd h herr) fun herr => .modify_bind ?_
  obtain ⟨-, rfl⟩ | ⟨hne, -⟩ := hu
  · refine .seq (scheduleReaper_logs _) (fun _ _ h => h.elim) fun _ u hu => ?_
    refine .seq (scheduleKeepAlive_logs sessionID u) (fun _ _ h => h.elim) ?_
    rintro _ _ rfl
    have hresponse := (congrArg (· ++ [Effect.post (.keepAlive sessionID)
      (PLAYBACK_SESSION_TIMEOUT_US - 5000000)]) hu.2.2).trans (List.append_assoc ..)
    refine .pure fun _ => ⟨hu.1, ?_, _, hresponse.trans (List.append_assoc ..)⟩
    exact hu.2.1 ▸ makeUniquePlaybackSessionID_ne env
  · exact absurd hne herr

/-- A transport that is refused is an error. -/
theorem parseTransport_error {transport detail : JString} {err : ℤ}
    (h : parseTransport transport = .ok (.error (detail, err))) : err ≠ OK := by
  unfold parseTransport at h
  split at h
  · split at h
    · cases h
    · obtain ⟨_ | port, -, hport⟩ := bind_eq_ok.mp h <;> cases hport
      decide
  split at h
  · obtain ⟨_ | port, -, hport⟩ := bind_eq_ok.mp h <;> cases hport
    decide
  split at h
  · cases h
  · cases h
    decide

theorem onSetupRequest_begins (env : Env) (sessionID cseq : ℤ) (data : ParsedMessage)
    (s : WifiDisplaySource) :
    Ends (onSetupRequest env sessionID cseq data) s
      (fun err t => err = OK → Begins env sessionID s t) (fun _ _ => True) := by
  have herror : ∀ (detail : JString) (err : ℤ), err ≠ OK → Ends (do
      sendErrorResponse env sessionID detail cseq
      return err) s (fun err t => err = OK → Begins env sessionID s t) (fun _ _ => True) :=
    fun detail err herr => .bind .trivial fun _ _ _ => .pure fun h => absurd h herr
  unfold onSetupRequest
  refine .get_bind (.ite (fun _ => .throw_bind trivial) fun _ => .get_bind ?_)
  refine .ite (fun _ => herror _ _ (by decide)) fun _ => ?_
  split
  · exact herror _ _ (by decide)
  refine .seq (call_ends _ s) (fun _ _ _ => trivial) ?_
  rintro (⟨detail, err⟩ | transport) t ⟨rfl, hparse⟩
  · exact herror _ _ (parseTransport_error hparse)
  refine .seq (call_ends _ t) (fun _ _ _ => trivial) ?_
  rintro uri t ⟨rfl, -⟩
  refine .ite (fun _ => herror _ _ (by decide)) fun _ => ?_
  refine .ite (fun _ => herror _ _ (by decide)) fun _ => ?_
  exact setUpPlaybackSession_begins env sessionID cseq transport t

/-! ## Runs -/

/-- The source right after a successful `SETUP`, and when the reaper comes next: after its interval,
or before that if one was pending. -/
structure SetUp (answer : ℤ → ParsedMessage) (a : Delays.Moment WifiDisplaySource Message)
    (first : ℤ) where
  env : Env
  before : WifiDisplaySource
  sessionID : ℤ
  cseq : ℤ
  data : ParsedMessage
  returns : (onSetupRequest env sessionID cseq data).run before = (.ok OK, a.state)
  now : a.now = env.nowUs
  earlier : List (ℤ × Message)
  pending : a.pending = earlier ++ Delays.due env.nowUs (coming answer before a.state)
  reaper : Delays.ticks Message.isReaper earlier = if before.mReaperPending then [first] else []
  first_eq : before.mReaperPending = false → first = env.nowUs + reaperPeriod

variable {a b : Delays.Moment WifiDisplaySource Message} {first : ℤ}
  {history : List (WifiDisplaySource × (Env × Message))}

theorem SetUp.begins (h : SetUp answer a first) : Begins h.env h.sessionID h.before a.state :=
  (onSetupRequest_begins ..).of_ok h.returns rfl

/-- The reaper comes once next. -/
theorem SetUp.ticks (h : SetUp answer a first) :
    Delays.ticks Message.isReaper a.pending = [first] := by
  obtain ⟨response, heffects⟩ := h.begins.effects
  rw [h.pending, Delays.ticks_append, Delays.ticks_due, coming_of_append heffects, h.reaper]
  cases hpending : h.before.mReaperPending with
  | true => rfl
  | false =>
      exact congrArg (fun t => [t]) (h.first_eq hpending).symm

/-- All reapers come on schedule. -/
theorem SetUp.onSchedule (h : SetUp answer a first)
    (hrun : Delays.Run (answered answer) a history b) :
    Delays.OnSchedule (answered answer) Message.isReaper reaperPeriod (first - reaperPeriod)
      (fun s => s.mClientInfo.mPlaybackSessionID ≠ -1) history b :=
  hrun.onSchedule (reaper_periodic answer) h.begins.session
    (h.ticks.trans (by rw [sub_add_cancel]))

/-- In the last 30 seconds there was the `SETUP`, or a sign of life. -/
def RecentSign (a : Delays.Moment WifiDisplaySource Message)
    (history : List (WifiDisplaySource × (Env × Message))) (now : ℤ) : Prop :=
  now - PLAYBACK_SESSION_TIMEOUT_US ≤ a.now ∨
    ∃ x ∈ history, x.1.signOfLife x.2.2 ∧ now - PLAYBACK_SESSION_TIMEOUT_US ≤ x.2.1.nowUs

/-- The life sign is the time of the last sign of life, or of the `SETUP`. -/
structure LastSign (start : ℤ) (history : List (WifiDisplaySource × (Env × Message)))
    (b : Delays.Moment WifiDisplaySource Message) : Prop where
  session : b.state.mClientInfo.mPlaybackSessionID ≠ -1
  now : b.state.mLastLifesignUs ≤ b.now
  start_le : start ≤ b.state.mLastLifesignUs
  le : ∀ x ∈ history, x.1.signOfLife x.2.2 → x.2.1.nowUs ≤ b.state.mLastLifesignUs
  eq : b.state.mLastLifesignUs = start ∨
    ∃ x ∈ history, x.1.signOfLife x.2.2 ∧ b.state.mLastLifesignUs = x.2.1.nowUs

theorem LastSign.step {start : ℤ} {b c : Delays.Moment WifiDisplaySource Message}
    {e : Env × Message} (h : LastSign start history b)
    (hstep : Delays.Step (answered answer) b e c) : LastSign start (history ++ [(b.state, e)]) c := by
  obtain ⟨posts, rest, hhandles, -, -⟩ := hstep.handled
  have hhandled := handled_of_handles h.session hhandles
  have hsession : c.state.mClientInfo.mPlaybackSessionID ≠ -1 := hhandled.session ▸ h.session
  have hnow : c.now = e.1.nowUs := hstep.now
  have hlater : b.now ≤ e.1.nowUs := hstep.later
  by_cases hsign : b.state.signOfLife e.2
  · have hlife := hhandled.sign hsign
    refine ⟨hsession, (hlife.trans hnow.symm).le, ?_, fun x hx hx' => ?_, .inr ?_⟩
    · linarith [h.start_le, h.now]
    · rcases List.mem_append.mp hx with hx | hx
      · linarith [h.le x hx hx', h.now]
      · cases List.mem_singleton.mp hx
        exact hlife.ge
    · exact ⟨_, List.mem_append_right _ (List.mem_singleton_self _), hsign, hlife⟩
  · have hlife := hhandled.noSign hsign
    refine ⟨hsession, ?_, hlife ▸ h.start_le, fun x hx hx' => ?_, ?_⟩
    · linarith [h.now]
    · rcases List.mem_append.mp hx with hx | hx
      · exact hlife ▸ h.le x hx hx'
      · cases List.mem_singleton.mp hx
        exact absurd hx' hsign
    · rw [hlife]
      refine h.eq.imp id fun ⟨x, hx, hx'⟩ => ⟨x, List.mem_append_left _ hx, hx'⟩

theorem SetUp.lastSign (h : SetUp answer a first)
    (hrun : Delays.Run (answered answer) a history b) : LastSign a.now history b := by
  have hlife : a.state.mLastLifesignUs = a.now := h.begins.life.trans h.now.symm
  refine hrun.invariant (I := LastSign a.now) ?_ fun _ _ _ _ hb hstep => hb.step hstep
  exact ⟨h.begins.session, hlife.le, hlife.ge, fun x hx => absurd hx List.not_mem_nil, .inl hlife⟩

/-- The life sign is recent exactly if there was a recent sign of life. -/
theorem LastSign.recent_iff (h : LastSign a.now history b) (now : ℤ) :
    ¬ b.state.mLastLifesignUs + PLAYBACK_SESSION_TIMEOUT_US < now ↔ RecentSign a history now := by
  constructor
  · intro hrecent
    rcases h.eq with heq | ⟨x, hx, hsign, heq⟩
    · exact .inl (by linarith)
    · exact .inr ⟨x, hx, hsign, by linarith⟩
  · rintro (hstart | ⟨x, hx, hsign, hrecent⟩)
    · linarith [h.start_le]
    · linarith [h.le x hx hsign]

/-- After a successful `SETUP` the reaper comes every 1000 seconds. It never finds a client dead
exactly if each time that it comes, while there are a client and a playback session, there was a
sign of life in the last 30 seconds. -/
theorem reaper_spares_iff (h : SetUp answer a first)
    (hrun : Delays.Run (answered answer) a history b) :
    (∀ before s env after, history = before ++ (s, env, .reapDeadClients) :: after →
        ∃ k : ℕ, env.nowUs = first + k * reaperPeriod) ∧
      ((∀ before s env after, history = before ++ (s, env, .reapDeadClients) :: after →
          ¬ FindsDead env s) ↔
        ∀ before s env after, history = before ++ (s, env, .reapDeadClients) :: after →
          s.mClientSessionID ≠ 0 → s.mClientInfo.mPlaybackSession ≠ none →
          RecentSign a before env.nowUs) := by
  refine ⟨fun before s env after hhistory => ?_, ?_⟩
  · obtain ⟨k, hk, htime⟩ := (h.onSchedule hrun).past (s, env, .reapDeadClients)
      (hhistory ▸ List.mem_append_right _ List.mem_cons_self) rfl
    obtain ⟨k, rfl⟩ := Nat.exists_eq_add_of_lt hk
    refine ⟨k, htime.trans ?_⟩
    push_cast
    ring
  · refine forall₄_congr fun before s env after => forall_congr' fun hhistory => ?_
    obtain ⟨c, d, hbefore, rfl, -⟩ := hrun.split hhistory
    rw [← (h.lastSign hbefore).recent_iff env.nowUs, FindsDead]
    tauto

end

/-! ## Two runs -/

/-- The response to M16. -/
def aliveAnswer (cseq : ℤ) : ParsedMessage :=
  ⟨[(jstr "_", jstr "RTSP/1.0 200 OK"), (jstr "cseq", decimal cseq)], [], 1⟩

def setUpData : ParsedMessage :=
  ⟨[(jstr "_", jstr "SETUP rtsp://10.0.0.1/wfd1.0/streamid=0 RTSP/1.0"), (jstr "cseq", jstr "2"),
    (jstr "transport", jstr "RTP/AVP/UDP;unicast")], [], 1⟩

def aliveData : ParsedMessage :=
  ⟨[(jstr "_", jstr "GET_PARAMETER rtsp://10.0.0.1/wfd1.0 RTSP/1.0"), (jstr "cseq", jstr "3")],
    [], 1⟩

/-- Session 2 is set up at time 0. -/
theorem exists_setUp {p : WifiDisplaySource → Bool}
    (h : @endsIn CharData.ascii (setUpEvents.take 5) fun s =>
      decide (s.mReaperPending = false) &&
        decide (((@onSetupRequest CharData.ascii (quietEnv 0) 2 2 setUpData).run s).1 = .ok OK) &&
        p ((@onSetupRequest CharData.ascii (quietEnv 0) 2 2 setUpData).run s).2) :
    ∃ a, p a.state ∧ a.now = 0 ∧ a.pending = [(reaperPeriod, .reapDeadClients),
      ((PLAYBACK_SESSION_TIMEOUT_US - 5000000) * 1000, .keepAlive 2)] ∧
      Nonempty (@SetUp CharData.ascii aliveAnswer a reaperPeriod) := by
  let _ := CharData.ascii
  obtain ⟨s, hs, hp⟩ := exists_reachable h
  simp only [Bool.and_eq_true, decide_eq_true_eq] at hp
  obtain ⟨⟨hpending, hreturns⟩, hp⟩ := hp
  generalize ht : ((onSetupRequest (quietEnv 0) 2 2 setUpData).run s).2 = t at hp
  have hsetUp : (onSetupRequest (quietEnv 0) 2 2 setUpData).run s = (.ok OK, t) :=
    Prod.ext hreturns ht
  obtain ⟨response, heffects⟩ := ((onSetupRequest_begins ..).of_ok hsetUp rfl).effects
  rw [hpending] at heffects
  refine ⟨⟨t, 0, Delays.due 0 (coming aliveAnswer s t)⟩, hp, rfl, ?_, ⟨?_⟩⟩
  · rw [coming_of_append heffects]
    rfl
  · exact {
      env := quietEnv 0
      before := s
      sessionID := 2
      cseq := 2
      data := setUpData
      returns := hsetUp
      now := rfl
      earlier := []
      pending := rfl
      reaper := by rw [hpending]; rfl
      first_eq _ := by simp [quietEnv] }

/-- The reaper comes as the next message. -/
theorem reaper_step (env : Env) {a : Delays.Moment WifiDisplaySource Message}
    {rest : List (ℤ × Message)} (hnow : a.now ≤ env.nowUs)
    (hpending : a.pending = (env.nowUs, .reapDeadClients) :: rest)
    (hrest : ∀ p ∈ rest, env.nowUs ≤ p.1) :
    ∃ b, Delays.Step (@answered CharData.ascii aliveAnswer) a (env, .reapDeadClients) b ∧
      (FindsDead env a.state → b.state.mClientSessionID = 0) := by
  obtain ⟨⟨⟩, t, hrun, -, -, hends⟩ := (onReapDeadClients_ends env a.state).returns
  refine ⟨⟨t, env.nowUs, rest ++ Delays.due env.nowUs (coming aliveAnswer a.state t)⟩, ?_, ?_⟩
  · refine ⟨hnow, fun p hp => ?_, rfl, _, rest, ⟨rfl, hrun, rfl⟩, rfl, .inr ?_⟩
    · rw [hpending] at hp
      rcases List.mem_cons.mp hp with rfl | hp
      · exact le_rfl
      · exact hrest p hp
    · exact ⟨[], rest, hpending, rfl⟩
  · exact fun hdead => hends.elim (fun h => h.2.1) fun h => absurd hdead h.1

/-- A request shortly before the reaper comes. -/
theorem reaper_spares_alive :
    ∃ (a b : Delays.Moment WifiDisplaySource Message)
      (history : List (WifiDisplaySource × (Env × Message))),
      Nonempty (@SetUp CharData.ascii aliveAnswer a reaperPeriod) ∧
        Delays.Run (@answered CharData.ascii aliveAnswer) a history b ∧
        ∃ s env, (s, env, .reapDeadClients) ∈ history ∧ s.mClientSessionID = 2 ∧
          s.mClientInfo.mPlaybackSession ≠ none ∧ ¬ FindsDead env s := by
  let _ := CharData.ascii
  let env := quietEnv (reaperPeriod - 1)
  let msg : Message := .rtspNotify (.session 2 (.data aliveData))
  obtain ⟨a, hp, hnow, hpending, ⟨hsetUp⟩⟩ := exists_setUp (p := fun t =>
    let u := (onMessageReceived env msg).run t
    decide (u.1 = .ok ()) && (coming aliveAnswer t u.2).isEmpty &&
      ((t.playbackSessionFor aliveData).toOption.bind Prod.fst).isSome &&
      decide (u.2.mClientSessionID = 2 ∧ u.2.mClientInfo.mPlaybackSession ≠ none))
    (by decide +kernel)
  simp only [Bool.and_eq_true, decide_eq_true_eq, List.isEmpty_iff] at hp
  obtain ⟨⟨⟨hreturns, hnothing⟩, hfinds⟩, hclient, hsession⟩ := hp
  generalize ht : ((onMessageReceived env msg).run a.state).2 = t at hnothing hclient hsession
  have hsign : a.state.signOfLife msg := by
    refine .inr ⟨jstr "GET_PARAMETER", 3, by decide +kernel, ?_, .inr (.inr (.inr (.inl rfl)))⟩
    rcases hfound : a.state.playbackSessionFor aliveData with e | ⟨_ | session, id⟩
    · rw [hfound] at hfinds
      cases hfinds
    · rw [hfound] at hfinds
      cases hfinds
    · exact ⟨session, id, hfound⟩
  have hfirst : Delays.Step (answered aliveAnswer) a (env, msg)
      ⟨t, env.nowUs, a.pending ++ Delays.due env.nowUs []⟩ := by
    refine ⟨hnow ▸ by decide, ?_, rfl, [], a.pending, ?_, rfl, .inl ⟨rfl, rfl⟩⟩
    · rw [hpending]
      decide
    · exact ⟨rfl, Prod.ext hreturns ht, hnothing.symm⟩
  obtain ⟨b, hstep, -⟩ := reaper_step (quietEnv reaperPeriod)
    (a := ⟨t, env.nowUs, a.pending ++ Delays.due env.nowUs []⟩)
    (show reaperPeriod - 1 ≤ reaperPeriod by decide)
    ((List.append_nil _).trans hpending) (by decide)
  have hrun := (Delays.Run.nil.step hfirst).step hstep
  refine ⟨a, b, _, ⟨hsetUp⟩, hrun, t, quietEnv reaperPeriod, List.mem_append_right _
    (List.mem_singleton_self _), hclient, hsession, ?_⟩
  refine (reaper_spares_iff hsetUp hrun).2.mpr ?_ [(a.state, env, msg)] _ _ [] rfl
  intro before s env' after hhistory _ _
  rcases before with _ | ⟨x, _ | ⟨y, before⟩⟩
  · have hmsg : msg = .reapDeadClients := congrArg (fun x => x.2.2) (List.cons.inj hhistory).1
    change Message.rtspNotify _ = _ at hmsg
    cases hmsg
  · obtain ⟨rfl, hlast⟩ := List.cons.inj hhistory
    cases (List.cons.inj hlast).1
    refine .inr ⟨_, List.mem_singleton_self _, hsign, ?_⟩
    change reaperPeriod - PLAYBACK_SESSION_TIMEOUT_US ≤ reaperPeriod - 1
    decide
  · simp at hhistory

/-- The sink that answers is reaped after 1000 seconds, before the first M16 is sent. -/
theorem reaper_spares_fails :
    ∃ (answer : ℤ → ParsedMessage) (a b : Delays.Moment WifiDisplaySource Message) (first : ℤ)
      (history : List (WifiDisplaySource × (Env × Message))),
      Nonempty (@SetUp CharData.ascii answer a first) ∧
        Delays.Run (@answered CharData.ascii answer) a history b ∧
        (∃ s env, (s, env, .reapDeadClients) ∈ history ∧ FindsDead env s) ∧
        a.state.mClientSessionID = 2 ∧ b.state.mClientSessionID = 0 := by
  obtain ⟨a, hp, hnow, hpending, hsetUp⟩ := exists_setUp (p := fun t =>
    decide (FindsDead (quietEnv reaperPeriod) t) && decide (t.mClientSessionID = 2))
    (by decide +kernel)
  rw [Bool.and_eq_true, decide_eq_true_eq, decide_eq_true_eq] at hp
  obtain ⟨b, hstep, hdead⟩ := reaper_step (quietEnv reaperPeriod)
    (hnow ▸ by decide) hpending (by decide)
  exact ⟨aliveAnswer, a, b, reaperPeriod, _, hsetUp, .step .nil hstep,
    ⟨_, _, List.mem_singleton_self _, hp.1⟩, hp.2, hdead hp.1⟩

end MirrorCast.WifiDisplaySource
