import MirrorCast.Verification.Source.Frames

/-! # The responses of the sink do not touch the control fields -/

namespace MirrorCast.WifiDisplaySource

open Java
open ANetworkSession (OK)
open Errno (ERROR_UNSUPPORTED)

theorem call_keeps {R : WifiDisplaySource → WifiDisplaySource → Prop}
    [IsPreorder WifiDisplaySource R] {α : Type} (x : Except JavaException α)
    (s : WifiDisplaySource) : Keeps R (call x) s := by
  unfold call
  split
  · exact .pure
  · exact .throw

theorem nonNull_keeps {R : WifiDisplaySource → WifiDisplaySource → Prop}
    [IsPreorder WifiDisplaySource R] {α : Type} (x : Option α) (s : WifiDisplaySource) :
    Keeps R (nonNull x) s := by
  unfold nonNull
  split
  · exact .pure
  · exact .throw

theorem sendAndRegister_keeps (env : Env) (sessionID : ℤ) (line headers : JString)
    (func : HandleRTSPResponseFunc) (s : WifiDisplaySource) :
    Keeps Choosing (sendAndRegister env sessionID line headers func) s :=
  (sendAndRegister_quiet ..).imp fun _ ht => ht.toChoosing

/-! ## M4 -/

/-- Only what is about the formats of the sink may change. -/
def Picks (s t : WifiDisplaySource) : Prop :=
  t = { s with
    mSinkSupportsVideo := t.mSinkSupportsVideo
    mSupportedSinkVideoFormats := t.mSupportedSinkVideoFormats
    mChosenVideoResolutionType := t.mChosenVideoResolutionType
    mChosenVideoResolutionIndex := t.mChosenVideoResolutionIndex
    mChosenVideoProfile := t.mChosenVideoProfile
    mChosenVideoLevel := t.mChosenVideoLevel
    mChosenVideoConfig := t.mChosenVideoConfig
    mSinkSupportsAudio := t.mSinkSupportsAudio
    mUsingPCMAudio := t.mUsingPCMAudio
    table := t.table }

instance : IsPreorder WifiDisplaySource Picks where
  refl _ := rfl
  trans _ _ u h h' := h'.trans (congrArg (fun s : WifiDisplaySource => { s with
    mSinkSupportsVideo := u.mSinkSupportsVideo
    mSupportedSinkVideoFormats := u.mSupportedSinkVideoFormats
    mChosenVideoResolutionType := u.mChosenVideoResolutionType
    mChosenVideoResolutionIndex := u.mChosenVideoResolutionIndex
    mChosenVideoProfile := u.mChosenVideoProfile
    mChosenVideoLevel := u.mChosenVideoLevel
    mChosenVideoConfig := u.mChosenVideoConfig
    mSinkSupportsAudio := u.mSinkSupportsAudio
    mUsingPCMAudio := u.mUsingPCMAudio
    table := u.table }) h)

theorem Picks.toChoosing {s t : WifiDisplaySource} (h : Picks s t) : Choosing s t := by
  rw [h]
  exact { Choosing.refl s with }

theorem withTable_keeps (f : VideoFormats.State → Except JavaException VideoFormats.State)
    (this : VideoFormats.Formats) (s : WifiDisplaySource) : Keeps Picks (withTable f this) s := by
  unfold withTable
  exact .get_bind (.bind (call_keeps _ _) fun formats t _ => .modify_bind rfl .pure)

theorem chosenVideoLines_keeps (s : WifiDisplaySource) : Keeps Picks chosenVideoLines s := by
  unfold chosenVideoLines
  refine .get_bind (.bind (call_keeps _ _) fun constructed t _ => .modify_bind rfl ?_)
  refine .bind (withTable_keeps _ _ _) fun chosen t _ => ?_
  refine .bind (withTable_keeps _ _ _) fun chosen t _ => ?_
  refine .bind (nonNull_keeps _ _) fun profile t _ => .bind (nonNull_keeps _ _) fun level t _ => ?_
  refine .bind (withTable_keeps _ _ _) fun chosen t _ => .get_bind ?_
  refine .bind (nonNull_keeps _ _) fun profileType t _ => ?_
  exact .bind (nonNull_keeps _ _) fun levelType t _ => .pure

theorem videoLines_keeps (s : WifiDisplaySource) : Keeps Picks videoLines s := by
  unfold videoLines
  exact .get_bind (.ite (fun _ => chosenVideoLines_keeps s) fun _ => .pure)

/-- The relation allows to pick formats and to send requests. -/
structure Requests (R : WifiDisplaySource → WifiDisplaySource → Prop) : Prop where
  picks : ∀ s t, Picks s t → R s t
  request : ∀ env sessionID line headers func s,
    Keeps R (sendAndRegister env sessionID line headers func) s

section

variable {R : WifiDisplaySource → WifiDisplaySource → Prop} [IsPreorder WifiDisplaySource R]

theorem Requests.sendM4 (hR : Requests R) (env : Env) (sessionID : ℤ) (s : WifiDisplaySource) :
    Keeps R (sendM4 env sessionID) s := by
  unfold WifiDisplaySource.sendM4
  refine .get_bind (.ite (fun _ => .throw_bind) fun _ => ?_)
  refine .bind ((videoLines_keeps s).imp fun _ ht => hR.picks _ _ ht) fun lines t _ => .get_bind ?_
  dsimp only
  exact hR.request ..

end

theorem choosing_requests : Requests Choosing where
  picks _ _ h := h.toChoosing
  request := sendAndRegister_keeps

/-! ## M3 -/

variable [CharData]

theorem parseFormatSpec_keeps (value : JString) (s : WifiDisplaySource) :
    Keeps Picks (parseFormatSpec value) s := by
  unfold parseFormatSpec
  exact .get_bind (.modify_bind rfl (call_keeps _ _))

theorem chooseVideoFormat_keeps (value : JString) (s : WifiDisplaySource) :
    Keeps Picks (chooseVideoFormat value) s := by
  unfold chooseVideoFormat
  refine .modify_bind rfl (.bind (parseFormatSpec_keeps _ _) fun parsed t _ => ?_)
  refine .ite (fun _ => .pure) fun _ => .get_bind (.bind (call_keeps _ _) fun choice u _ => ?_)
  cases choice with
  | none => exact .pure
  | some choice =>
      refine .modify_bind rfl (.bind (call_keeps _ _) fun fc v _ => ?_)
      cases fc with
      | none => exact .throw
      | some fc => exact .modify_bind rfl .pure

theorem chooseCustomFormat_keeps (width height framesPerSecond profile level : JString)
    (s : WifiDisplaySource) :
    Keeps Picks (chooseCustomFormat width height framesPerSecond profile level) s := by
  unfold chooseCustomFormat
  refine .bind (call_keeps _ _) fun _ t _ => .modify_bind rfl ?_
  refine .bind (call_keeps _ _) fun _ t _ => .modify_bind rfl ?_
  refine .bind (call_keeps _ _) fun _ t _ => .modify_bind rfl ?_
  refine .bind (call_keeps _ _) fun _ t _ => .bind (call_keeps _ _) fun _ t _ => ?_
  refine .modify_bind rfl ?_
  refine .bind (call_keeps _ _) fun _ t _ => .bind (call_keeps _ _) fun _ t _ => ?_
  exact .modify_bind rfl (.modify_bind rfl (.modify rfl))

theorem chooseVideo_keeps (params : List (JString × JString)) (s : WifiDisplaySource) :
    Keeps Picks (chooseVideo params) s := by
  unfold chooseVideo
  split
  · exact .bind (chooseCustomFormat_keeps ..) fun _ t _ => .pure
  · split
    · exact .pure
    · exact .ite (fun _ => .pure) fun _ => chooseVideoFormat_keeps _ s

theorem chooseAudio_keeps (params : List (JString × JString)) (s : WifiDisplaySource) :
    Keeps Picks (chooseAudio params) s := by
  unfold chooseAudio
  split
  · exact .pure
  · refine .modify_bind rfl (.ite (fun _ => .pure) fun _ => ?_)
    refine .bind (call_keeps _ _) fun _ t _ => .bind (call_keeps _ _) fun _ t _ => ?_
    refine .ite (fun _ => .modify_bind rfl .pure) fun _ => ?_
    exact .ite (fun _ => .modify_bind rfl .pure) fun _ => .pure

/-! ## Responses -/

/-- The relation also allows to choose the ports, and to note that the sink is alive. -/
structure Answers (R : WifiDisplaySource → WifiDisplaySource → Prop) : Prop extends Requests R where
  ports : ∀ (s : WifiDisplaySource) (value : JString) (port0 : ℤ), R s
    { s with mWfdClientRtpPorts := some value, mChosenRTPPort := port0,
             mSinkSupportsVideo := false }
  liveness : ∀ (s : WifiDisplaySource) (nowUs : ℤ), R s { s with mLastLifesignUs := nowUs }

section

variable {R : WifiDisplaySource → WifiDisplaySource → Prop} [IsPreorder WifiDisplaySource R]

/-- What M3 is followed by after the choice of the ports. -/
theorem Requests.chooseFormats (hR : Requests R) (env : Env) (sessionID : ℤ)
    (params : List (JString × JString)) (s : WifiDisplaySource) :
    Keeps R (do
      let err ← chooseVideo params
      if err ≠ OK then return err
      let err ← chooseAudio params
      if err ≠ OK then return err
      let s ← get
      if s.mSinkSupportsVideo = false ∧ s.mSinkSupportsAudio = false then
        return ERROR_UNSUPPORTED
      WifiDisplaySource.sendM4 env sessionID) s := by
  refine .bind ((chooseVideo_keeps _ _).imp fun _ ht => hR.picks _ _ ht) fun err t _ => ?_
  refine .ite (fun _ => .pure) fun _ => ?_
  refine .bind ((chooseAudio_keeps _ _).imp fun _ ht => hR.picks _ _ ht) fun err t _ => ?_
  refine .ite (fun _ => .pure) fun _ => .get_bind (.ite (fun _ => .pure) fun _ => ?_)
  exact hR.sendM4 env sessionID t

theorem Requests.onReceiveM3Response (hR : Requests R)
    (hports : ∀ (s : WifiDisplaySource) (value : JString) (port0 : ℤ), R s
      { s with mWfdClientRtpPorts := some value, mChosenRTPPort := port0,
               mSinkSupportsVideo := false })
    (env : Env) (sessionID : ℤ) (msg : ParsedMessage) (s : WifiDisplaySource) :
    Keeps R (onReceiveM3Response env sessionID msg) s := by
  unfold WifiDisplaySource.onReceiveM3Response
  refine .bind (call_keeps _ _) fun statusCode t _ => ?_
  split
  · exact .pure
  split
  · exact .pure
  split
  · exact .pure
  refine .bind (call_keeps _ _) fun port t _ => ?_
  cases port with
  | error err => exact .pure
  | ok port0 => exact .modify_bind (hports t _ _) (hR.chooseFormats env sessionID _ _)

theorem checkStatus_keeps (msg : ParsedMessage) (s : WifiDisplaySource) :
    Keeps R (checkStatus msg) s :=
  .bind (call_keeps _ _) fun _ _ _ => .pure

/-- A response is handled at one time. -/
theorem Requests.handle (hR : Requests R)
    (hports : ∀ (s : WifiDisplaySource) (value : JString) (port0 : ℤ), R s
      { s with mWfdClientRtpPorts := some value, mChosenRTPPort := port0,
               mSinkSupportsVideo := false })
    {env : Env} (func : HandleRTSPResponseFunc) (sessionID : ℤ) (msg : ParsedMessage)
    (s : WifiDisplaySource)
    (hliveness : func = .onReceiveM16Response → s.mClientInfo.mPlaybackSession ≠ none →
      R s { s with mLastLifesignUs := env.nowUs }) :
    Keeps R (func.handle env sessionID msg) s := by
  cases func with
  | onReceiveM1Response => exact checkStatus_keeps msg s
  | onReceiveM3Response => exact hR.onReceiveM3Response hports env sessionID msg s
  | onReceiveM4Response =>
      refine .bind (call_keeps _ _) fun statusCode t _ => ?_
      split
      · exact .pure
      · exact hR.request ..
  | onReceiveM5Response => exact checkStatus_keeps msg s
  | onReceiveM16Response =>
      refine .get_bind (.ite (fun _ => .throw_bind) fun _ => .get_bind ?_)
      refine .bind (.ite (fun hsession => ?_) fun _ => .pure) fun _ _ _ => .pure
      exact .modify (hliveness rfl hsession)

theorem Answers.handle (hR : Answers R) (func : HandleRTSPResponseFunc) (env : Env) (sessionID : ℤ)
    (msg : ParsedMessage) (s : WifiDisplaySource) : Keeps R (func.handle env sessionID msg) s :=
  hR.toRequests.handle hR.ports func sessionID msg s fun _ _ => hR.liveness s env.nowUs

end

omit [CharData] in
theorem steady_answers : Answers Steady where
  picks _ _ h := h.toChoosing.toSteady
  request env sessionID line headers func s :=
    (sendAndRegister_keeps env sessionID line headers func s).imp fun _ ht => ht.toSteady
  ports s _ _ := { Steady.refl s with }
  liveness s _ := { Steady.refl s with }

theorem onResponse_keeps (env : Env) (sessionID cseq : ℤ) (data : ParsedMessage)
    (s : WifiDisplaySource) : Keeps Steady (onResponse env sessionID cseq data) s := by
  unfold onResponse
  refine .get_bind ?_
  split
  · exact .pure
  · exact .modify_bind (Quiet.handle s sessionID cseq _).toSteady
      (steady_answers.handle _ env sessionID data _)

end MirrorCast.WifiDisplaySource
