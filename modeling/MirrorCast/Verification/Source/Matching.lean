import MirrorCast.Library.Callbacks
import MirrorCast.Verification.Source.Handlers
import MirrorCast.Verification.Source.Playing
import Mathlib.Logic.Relation

/-! # Responses are matched with requests -/

namespace MirrorCast.WifiDisplaySource

open Java
open ANetworkSession (OK)

def Effect.action? : Effect → Option (Callbacks.Action ℤ ℤ HandleRTSPResponseFunc)
  | .registerResponseHandler sessionID cseq func => some (.register sessionID cseq func)
  | .handle sessionID cseq func => some (.dispatch sessionID cseq func)
  | _ => none

/-- What the methods do to the handlers of responses: nothing, to register one for a request that
was just sent, or to take out the one of a response that is there to be answered. -/
inductive Move (answers : ℤ → ℤ → Prop) (s t : WifiDisplaySource) : Prop
  | other (effects : List Effect) (silent : ∀ effect ∈ effects, effect.action? = none)
      (heffects : t.effects = s.effects ++ effects) (serial : t.mNextCSeq = s.mNextCSeq)
      (handlers : t.mResponseHandlers = s.mResponseHandlers)
  | request (env : Env) (sessionID : ℤ) (line headers : JString) (func : HandleRTSPResponseFunc)
      (heffects : t.effects = s.effects ++
        [.sendRequest sessionID (line ++ commonResponse env s.mNextCSeq (-1) ++ headers),
          .registerResponseHandler sessionID s.mNextCSeq func])
      (serial : t.mNextCSeq = int32 (s.mNextCSeq + 1))
      (handlers : t.mResponseHandlers =
        Function.update s.mResponseHandlers (sessionID, s.mNextCSeq) (some func))
  | answer (sessionID cseq : ℤ) (func : HandleRTSPResponseFunc) (answered : answers sessionID cseq)
      (waits : s.mResponseHandlers (sessionID, cseq) = some func)
      (heffects : t.effects = s.effects ++ [.handle sessionID cseq func])
      (serial : t.mNextCSeq = s.mNextCSeq)
      (handlers : t.mResponseHandlers =
        Function.update s.mResponseHandlers (sessionID, cseq) none)

abbrev Moves (answers : ℤ → ℤ → Prop) : WifiDisplaySource → WifiDisplaySource → Prop :=
  Relation.ReflTransGen (Move answers)

variable {answers : ℤ → ℤ → Prop} {s t : WifiDisplaySource}

instance : IsPreorder WifiDisplaySource (Moves answers) where
  refl _ := .refl
  trans _ _ _ := .trans

theorem Moves.same (heffects : t.effects = s.effects) (serial : t.mNextCSeq = s.mNextCSeq)
    (handlers : t.mResponseHandlers = s.mResponseHandlers) : Moves answers s t :=
  .single (.other [] nofun (heffects.trans (List.append_nil _).symm) serial handlers)

theorem Moves.log {effect : Effect} (silent : effect.action? = none) :
    Moves answers s { s with effects := s.effects ++ [effect] } :=
  .single (.other [effect] (fun _ h => List.mem_singleton.mp h ▸ silent) rfl rfl rfl)

theorem Move.imp {answers' : ℤ → ℤ → Prop} (h : Move answers s t)
    (himp : ∀ sessionID cseq, answers sessionID cseq → answers' sessionID cseq) :
    Move answers' s t := by
  cases h with
  | other effects silent heffects serial handlers =>
      exact .other effects silent heffects serial handlers
  | request env sessionID line headers func heffects serial handlers =>
      exact .request env sessionID line headers func heffects serial handlers
  | answer sessionID cseq func answered waits heffects serial handlers =>
      exact .answer sessionID cseq func (himp _ _ answered) waits heffects serial handlers

/-! ## Requests -/

theorem sendRequest_moves (sessionID : ℤ) (data : JString) (s : WifiDisplaySource) :
    Keeps (Moves answers) (sendRequest sessionID data) s := by
  refine (sendRequest_logs sessionID data s).mono ?_ fun _ _ ht => ht ▸ .refl
  rintro err t (⟨-, rfl⟩ | ⟨-, rfl⟩)
  · exact .log rfl
  · exact .refl

theorem sendAndRegister_moves (env : Env) (sessionID : ℤ) (line headers : JString)
    (func : HandleRTSPResponseFunc) (s : WifiDisplaySource) :
    Keeps (Moves answers) (sendAndRegister env sessionID line headers func) s := by
  refine (sendAndRegister_logs env sessionID line headers func s).mono ?_ fun _ _ ht => ht ▸ .refl
  rintro err t (⟨-, rfl⟩ | ⟨-, rfl⟩)
  · exact .single (.request env sessionID line headers func rfl rfl rfl)
  · exact .refl

/-- The handlers keep to these moves. -/
theorem moves_follows (env : Env) : Follows env answers (Moves answers) where
  picks s t h := by
    rw [h]
    exact .same rfl rfl rfl
  request := sendAndRegister_moves
  other s t h := .same (congrArg Watched.effects h) (congrArg Watched.mNextCSeq h)
    (congrArg Watched.mResponseHandlers h)
  log s effect h := .log (by cases effect <;> first | rfl | cases h)
  sendRequest := sendRequest_moves
  take s sessionID cseq func answered waits :=
    .single (.answer sessionID cseq func answered waits rfl rfl rfl)

/-! ## The reaper and the clients -/

theorem scheduleReaper_moves (s : WifiDisplaySource) : Keeps (Moves answers) scheduleReaper s := by
  unfold scheduleReaper
  refine .get_bind (.ite (fun _ => .pure) fun _ => .modify_bind (.same rfl rfl rfl) ?_)
  exact .modify (.log rfl)

theorem onReapDeadClients_moves (env : Env) (s : WifiDisplaySource) :
    Keeps (Moves answers) (onReapDeadClients env) s := by
  unfold onReapDeadClients
  refine .modify_bind (.same rfl rfl rfl) (.get_bind (.ite (fun _ => .pure) fun _ => ?_))
  split
  · exact .pure
  · refine .ite (fun _ => ?_) fun _ => scheduleReaper_moves _
    exact .bind ((moves_follows env).destroySession ..) fun _ _ _ => .modify (.same rfl rfl rfl)

theorem setUpPlaybackSession_moves (env : Env) (sessionID cseq : ℤ) (transport : Transport)
    (s : WifiDisplaySource) :
    Keeps (Moves answers) (setUpPlaybackSession env sessionID cseq transport) s := by
  unfold setUpPlaybackSession
  refine .get_bind (.bind (call_keeps ..) ?_)
  rintro ⟨err, playbackSession⟩ t -
  refine .ite (fun _ => ?_) fun _ => ?_
  · exact .bind ((moves_follows env).sendErrorResponse ..) fun _ _ _ => .pure
  refine .modify_bind (.same rfl rfl rfl) (.modify_bind (.same rfl rfl rfl) ?_)
  refine .bind (sendRequest_moves ..) fun err t _ => ?_
  refine .ite (fun _ => .pure) fun _ => .modify_bind (.same rfl rfl rfl) ?_
  refine .bind (scheduleReaper_moves _) fun _ t _ => ?_
  exact .bind ((moves_follows env).scheduleKeepAlive ..) fun _ _ _ => .pure

theorem onClientConnected_moves (env : Env) (sessionID : ℤ) (clientIP serverIP : Option JString)
    (serverPort : ℤ) (s : WifiDisplaySource) :
    Keeps (Moves answers) (onClientConnected env sessionID clientIP serverIP serverPort) s := by
  have hdestroy : ∀ t, Keeps (Moves answers) (destroySession sessionID) t :=
    (moves_follows env).destroySession sessionID
  unfold onClientConnected
  refine .get_bind (.ite (fun _ => hdestroy _) fun _ => .get_bind ?_)
  refine .ite (fun _ => .throw_bind) fun _ => .ite (fun _ => .throw_bind) fun _ => ?_
  refine .modify_bind (.same rfl rfl rfl) (.ite (fun _ => .throw_bind) fun _ => ?_)
  refine .modify_bind (.same rfl rfl rfl) (.ite (fun _ => hdestroy _) fun _ => ?_)
  refine .modify_bind (.same rfl rfl rfl) (.modify_bind (.same rfl rfl rfl) ?_)
  refine .modify_bind (.same rfl rfl rfl) (.bind (sendAndRegister_moves ..) fun err t _ => ?_)
  exact .ite (fun _ => .throw) fun _ => .pure

variable [CharData]

/-! ## Messages -/

/-- The event is a response with this number that comes in on this session. -/
def Arrives (event : Event) (sessionID cseq : ℤ) : Prop :=
  ∃ env data, event = .message env (.rtspNotify (.session sessionID (.data data))) ∧
    kind data = some (.response cseq)

theorem onMessageReceived_moves (env : Env) (msg : Message) (s : WifiDisplaySource) :
    Keeps (Moves (Arrives (.message env msg))) (onMessageReceived env msg) s :=
  (moves_follows env).onMessageReceived msg s (fun _ _ => .same rfl rfl rfl)
    (fun _ data _ hmsg hkind => ⟨env, data, congrArg _ hmsg, hkind⟩)
    (fun _ _ _ _ _ => setUpPlaybackSession_moves ..)
    (fun _ _ _ _ _ => onClientConnected_moves ..)
    fun _ => onReapDeadClients_moves env s

theorem step_moves (event : Event) (s : WifiDisplaySource) :
    Moves (Arrives event) s (step s event).2 := by
  cases event with
  | start => exact .refl
  | message env msg => exact (onMessageReceived_moves env msg s).state
  | addSession sessionID mState => exact .same rfl rfl rfl

/-! ## What is added to the history -/

def actions (effects : List Effect) : List (Callbacks.Action ℤ ℤ HandleRTSPResponseFunc) :=
  effects.filterMap Effect.action?

/-- The numbers of the requests, and the handlers that wait for responses. -/
def registry (s : WifiDisplaySource) : Callbacks.Registry ℤ ℤ HandleRTSPResponseFunc :=
  ⟨s.mNextCSeq, s.mResponseHandlers⟩

def nextCSeq (cseq : ℤ) : ℤ := int32 (cseq + 1)

/-- A handler is registered right after a request with its number was sent on its session. -/
def Announced (effects : List Effect) : Prop :=
  ∀ before after sessionID cseq func,
    effects = before ++ .registerResponseHandler sessionID cseq func :: after →
      ∃ rest env line headers, before = rest ++
        [.sendRequest sessionID (line ++ commonResponse env cseq (-1) ++ headers)]

omit [CharData] in
theorem Announced.append {xs ys : List Effect} (hxs : Announced xs) (hys : Announced ys) :
    Announced (xs ++ ys) := by
  intro before after sessionID cseq func heq
  rcases List.append_eq_append_iff.mp heq with ⟨between, rfl, hafter⟩ | ⟨between, hbefore, hafter⟩
  · obtain ⟨rest, env, line, headers, rfl⟩ := hys between after sessionID cseq func hafter
    exact ⟨xs ++ rest, env, line, headers, (List.append_assoc ..).symm⟩
  · cases between with
    | nil =>
        rw [List.append_nil] at hbefore
        obtain ⟨rest, env, line, headers, hnil⟩ := hys [] after sessionID cseq func hafter.symm
        simp at hnil
    | cons effect between =>
        obtain ⟨rfl, -⟩ := List.cons.inj hafter
        exact hxs before between sessionID cseq func hbefore

omit [CharData] in
theorem announced_of_forall_ne {effects : List Effect}
    (h : ∀ sessionID cseq func, .registerResponseHandler sessionID cseq func ∉ effects) :
    Announced effects := by
  rintro before after sessionID cseq func rfl
  exact absurd (List.mem_append_right _ List.mem_cons_self) (h sessionID cseq func)

/-- The effects lead from one state to the other. -/
structure Adds (answers : ℤ → ℤ → Prop) (s t : WifiDisplaySource) (effects : List Effect) :
    Prop where
  effects_eq : t.effects = s.effects ++ effects
  runs : Callbacks.Runs nextCSeq s.registry (actions effects) t.registry
  announced : Announced effects
  answered : ∀ sessionID cseq func, .handle sessionID cseq func ∈ effects → answers sessionID cseq

omit [CharData] in
theorem Adds.trans {u : WifiDisplaySource} {effects effects' : List Effect}
    (h : Adds answers s t effects) (h' : Adds answers t u effects') :
    Adds answers s u (effects ++ effects') where
  effects_eq := by rw [h'.effects_eq, h.effects_eq, List.append_assoc]
  runs := by
    rw [actions, List.filterMap_append]
    exact h.runs.append h'.runs
  announced := h.announced.append h'.announced
  answered sessionID cseq func hmem :=
    (List.mem_append.mp hmem).elim (h.answered _ _ _) (h'.answered _ _ _)

omit [CharData] in
theorem Move.adds (h : Move answers s t) : ∃ effects, Adds answers s t effects := by
  cases h with
  | other effects silent heffects serial handlers =>
      have hactions : actions effects = [] := List.filterMap_eq_nil_iff.mpr silent
      refine ⟨effects, heffects, ?_, announced_of_forall_ne fun _ _ _ hmem => ?_, ?_⟩
      · rw [hactions, registry, registry, serial, handlers]
        exact .nil _
      · cases silent _ hmem
      · intro _ _ _ hmem
        cases silent _ hmem
  | request env sessionID line headers func heffects serial handlers =>
      refine ⟨_, heffects, ?_, ?_, ?_⟩
      · rw [registry, registry, serial, handlers]
        exact .single (.register _ sessionID func)
      · intro before after x c f heq
        match before with
        | [] => cases heq
        | [effect] =>
            cases heq
            exact ⟨[], env, line, headers, rfl⟩
        | _ :: _ :: _ :: _ => cases heq
      · rintro _ _ _ (_ | ⟨_, _ | ⟨_, hmem⟩⟩)
        cases hmem
  | answer sessionID cseq func answered waits heffects serial handlers =>
      refine ⟨_, heffects, ?_, announced_of_forall_ne ?_, ?_⟩
      · rw [registry, registry, serial, handlers]
        exact .single (.dispatch waits)
      · intro _ _ _ hmem
        cases List.mem_singleton.mp hmem
      · intro _ _ _ hmem
        cases List.mem_singleton.mp hmem
        exact answered

omit [CharData] in
theorem Moves.adds (h : Moves answers s t) : ∃ effects, Adds answers s t effects := by
  induction h with
  | refl => exact ⟨[], (List.append_nil _).symm, .nil _, announced_of_forall_ne nofun, nofun⟩
  | tail _ hmove ih =>
      obtain ⟨effects, h⟩ := ih
      obtain ⟨effects', h'⟩ := hmove.adds
      exact ⟨effects ++ effects', h.trans h'⟩

/-! ## Runs -/

theorem run_moves (events : List Event) {result : Except JavaException Unit}
    (hrun : run s events = (result, t)) :
    Moves (fun sessionID cseq => ∃ event ∈ events, Arrives event sessionID cseq) s t := by
  induction events generalizing s with
  | nil =>
      cases hrun
      exact .refl
  | cons event events ih =>
      have hfirst : Moves (fun sessionID cseq => ∃ event' ∈ event :: events,
          Arrives event' sessionID cseq) s (step s event).2 := by
        refine Relation.ReflTransGen.mono (fun u v huv => huv.imp ?_) _ _ (step_moves event s)
        exact fun _ _ h => ⟨event, List.mem_cons_self, h⟩
      rw [run] at hrun
      split at hrun
      · rename_i u hstep
        rw [hstep] at hfirst
        refine hfirst.trans (Relation.ReflTransGen.mono (fun v w hvw => hvw.imp ?_) _ _ (ih hrun))
        rintro _ _ ⟨event', hmem, h⟩
        exact ⟨event', List.mem_cons_of_mem _ hmem, h⟩
      · rename_i e u hstep
        cases hrun
        rwa [hstep] at hfirst

omit [CharData] in
/-- The numbers do not wrap around before 2 ^ 31 requests. -/
theorem nextCSeq_iterate {i : ℕ} (hi : i < 2 ^ 31 - 1) : nextCSeq^[i] 1 = 1 + i := by
  induction i with
  | zero => rfl
  | succ i ih =>
      rw [Function.iterate_succ_apply', ih (by omega), nextCSeq, int32_eq (by omega) (by omega)]
      push_cast
      ring

/-- A response that nobody waits for changes nothing. -/
theorem step_unsolicited {event : Event} {sessionID cseq : ℤ}
    (harrives : Arrives event sessionID cseq)
    (hnone : s.mResponseHandlers (sessionID, cseq) = none) : (step s event).2 = s := by
  obtain ⟨env, data, rfl, hkind⟩ := harrives
  have hreceive : Ends (onReceiveClientData env sessionID data) s (fun _ t => t = s)
      (fun _ t => t = s) := by
    refine onReceiveClientData_ends (fun c hc => ?_) (fun method c hc => ?_) fun hc => ?_
    · rw [hkind] at hc
      cases hc
      unfold onResponse
      refine .get_bind ?_
      rw [hnone]
      exact .pure rfl
    · rw [hkind] at hc
      cases hc
    · rw [hkind] at hc
      cases hc
  exact (Ends.bind (f := fun _ => pure ()) hreceive fun _ _ ht => .pure ht).state

omit [CharData] in
theorem construct_registry {table : VideoFormats.Table}
    {mNetSession : ℤ → Option ANetworkSession.Session.State} {mMediaProjection : Bool}
    (h : construct table mNetSession mMediaProjection = .ok s) :
    s.registry = Callbacks.Registry.start 1 ∧ s.effects = [] := by
  unfold construct at h
  obtain ⟨source, -, h⟩ := bind_eq_ok.mp h
  obtain ⟨sink, -, h⟩ := bind_eq_ok.mp h
  obtain ⟨source, -, h⟩ := bind_eq_ok.mp h
  obtain ⟨source, -, h⟩ := bind_eq_ok.mp h
  cases h
  exact ⟨rfl, rfl⟩

/-- In every run with fewer than 2 ^ 31 requests, whether it ends in an exception or not, the
handlers are registered for the requests under pairs that are all different, and each is called at
most once, for a response that came in on its session with its number; such a response without
a handler changes nothing. -/
theorem responses_matched {table : VideoFormats.Table}
    {mNetSession : ℤ → Option ANetworkSession.Session.State} {mMediaProjection : Bool}
    {first : WifiDisplaySource} {events : List Event} {result : Except JavaException Unit}
    (hfirst : construct table mNetSession mMediaProjection = .ok first)
    (hrun : run first events = (result, s))
    (hfew : (Callbacks.registered (actions s.effects)).length < 2 ^ 31) :
    Announced s.effects ∧ Callbacks.Matched (actions s.effects) ∧
      (∀ sessionID cseq func, .handle sessionID cseq func ∈ s.effects →
        ∃ event ∈ events, Arrives event sessionID cseq) ∧
      ∀ (event : Event) (t : WifiDisplaySource),
        (∃ effects, (step t event).2.effects = t.effects ++ effects ∧
          ∀ sessionID cseq func, .handle sessionID cseq func ∈ effects →
            Arrives event sessionID cseq) ∧
        ∀ sessionID cseq, Arrives event sessionID cseq →
          t.mResponseHandlers (sessionID, cseq) = none → (step t event).2 = t := by
  obtain ⟨hregistry, hnone⟩ := construct_registry hfirst
  obtain ⟨effects, hadds⟩ := (run_moves events hrun).adds
  have heffects : effects = s.effects := by
    rw [hadds.effects_eq, hnone, List.nil_append]
  subst heffects
  have hruns := hadds.runs
  rw [hregistry] at hruns
  refine ⟨hadds.announced, (hruns.matched fun i j hij hj => ?_).2, hadds.answered, ?_⟩
  · rw [nextCSeq_iterate (by omega), nextCSeq_iterate (by omega)]
    omega
  · intro event t
    obtain ⟨effects, h⟩ := (step_moves event t).adds
    exact ⟨⟨effects, h.effects_eq, h.answered⟩, fun _ _ => step_unsolicited⟩

omit [CharData] in
theorem responses_matched_setUp :
    ∃ s, (∃ table mNetSession mMediaProjection first events,
        construct table mNetSession mMediaProjection = .ok first ∧
          @run CharData.ascii first events = (.ok (), s)) ∧
      Callbacks.registered (actions s.effects) = [(2, 1), (2, 2), (2, 3)] ∧
      Callbacks.dispatched (actions s.effects) = [(2, 2)] ∧ Callbacks.Matched (actions s.effects) := by
  let _ := CharData.ascii
  have hend : endsIn setUpEvents fun s =>
      Callbacks.registered (actions s.effects) = [(2, 1), (2, 2), (2, 3)] ∧
        Callbacks.dispatched (actions s.effects) = [(2, 2)] := by
    decide +kernel
  obtain ⟨s, ⟨table, mNetSession, mMediaProjection, first, events, hfirst, hrun⟩, hs⟩ :=
    exists_reachable hend
  obtain ⟨hregistered, hdispatched⟩ := of_decide_eq_true hs
  refine ⟨s, ⟨_, _, _, _, _, hfirst, hrun⟩, hregistered, hdispatched, ?_⟩
  exact (responses_matched hfirst hrun (by rw [hregistered]; decide)).2.1

end MirrorCast.WifiDisplaySource
