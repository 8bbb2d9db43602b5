import MirrorCast.Program.PlaybackSession.Mirroring

/-! # How the connections of the sender establish a session -/

namespace MirrorCast.PlaybackSession.Mirroring

open Java RTPBase
open ANetworkSession (OK)

/-! ## What the queue holds for a connection -/

/-- The notifications of a connection that wait. -/
def netWord (isRTP : Bool) (queue : List Message) : List NetNotification :=
  queue.filterMap fun
    | .net b n => if b = isRTP then some n else none
    | _ => none

/-- Whether a message says that the sender or `MediaSender` is initialized. -/
def isInitOK : Message → Bool
  | .WHAT_SENDER_NOTIFY _ (.WHAT_INIT_DONE err) => err = OK
  | .WHAT_MEDIA_SENDER_NOTIFY (.WHAT_INIT_DONE err) => err = OK
  | _ => false

/-- A message is neither of a connection nor an `isInitOK`. -/
def Message.Aside (m : Message) : Prop := (∀ b n, m ≠ .net b n) ∧ isInitOK m = false

/-- A message of `RTPSender` to `MediaSender`, or of that to the session. -/
def Message.Reports (m : Message) : Prop :=
  (∃ generation n, m = .WHAT_SENDER_NOTIFY generation n) ∨ ∃ n, m = .WHAT_MEDIA_SENDER_NOTIFY n

/-- What a handler still has to do to stop a track. -/
def Task.IsStop : Task → Prop
  | .stopAsync _ => True
  | .stopPuller _ => True
  | _ => False

/-- A message is neither of a track nor stops one. -/
def Message.Apart (m : Message) : Prop :=
  (∀ i tm, m ≠ .track i tm) ∧ ∀ task : Task, m = .task task → ¬ task.IsStop

@[simp] theorem netWord_nil (isRTP : Bool) : netWord isRTP [] = [] := rfl

theorem netWord_append (isRTP : Bool) (xs ys : List Message) :
    netWord isRTP (xs ++ ys) = netWord isRTP xs ++ netWord isRTP ys :=
  List.filterMap_append

theorem netWord_net_self (isRTP : Bool) (n : NetNotification) (queue : List Message) :
    netWord isRTP (.net isRTP n :: queue) = n :: netWord isRTP queue := by
  simp [netWord]

theorem netWord_net_of_ne {isRTP b : Bool} (h : b ≠ isRTP) (n : NetNotification)
    (queue : List Message) : netWord isRTP (.net b n :: queue) = netWord isRTP queue := by
  simp [netWord, h]

theorem netWord_eq_nil {ms : List Message} (h : ∀ m ∈ ms, ∀ b n, m ≠ .net b n) (isRTP : Bool) :
    netWord isRTP ms = [] := by
  refine List.filterMap_eq_nil_iff.mpr fun m hm => ?_
  cases m with
  | net b n => exact absurd rfl (h _ hm b n)
  | _ => rfl

theorem netWord_map_task (isRTP : Bool) (tasks : List Task) :
    netWord isRTP (tasks.map .task) = [] :=
  netWord_eq_nil (by simp) isRTP

theorem countP_map_task (tasks : List Task) : (tasks.map Message.task).countP isInitOK = 0 := by
  refine List.countP_eq_zero.mpr fun m hm => ?_
  obtain ⟨t, -, rfl⟩ := List.mem_map.mp hm
  simp [isInitOK]

theorem Message.Reports.ne_net {m : Message} (h : m.Reports) (b : Bool) (n : NetNotification) :
    m ≠ .net b n := by
  obtain ⟨generation, n', rfl⟩ | ⟨n', rfl⟩ := h <;> simp

theorem Message.Reports.apart {m : Message} (h : m.Reports) : m.Apart := by
  obtain ⟨generation, n, rfl⟩ | ⟨n, rfl⟩ := h <;> exact ⟨by simp, by simp⟩

theorem netWord_cons_of_aside {m : Message} (h : m.Aside) (isRTP : Bool) (queue : List Message) :
    netWord isRTP (m :: queue) = netWord isRTP queue := by
  unfold netWord
  refine List.filterMap_cons_none ?_
  cases m with
  | net b n => exact absurd rfl (h.1 b n)
  | _ => rfl

/-! ## A connection -/

theorem Link.ne_connected_of_announces {link : Link} {n : NetNotification}
    (hlink : link ≠ .connecting) (h : link.announces n = true) : n ≠ .WHAT_CONNECTED := by
  rintro rfl
  cases link with
  | none => simp [announces] at h
  | connecting => exact hlink rfl
  | usable => simp [announces] at h

namespace Leg

/-- The connection is of TCP and not made yet. -/
structure Awaits (leg : Leg) : Prop where
  mode : leg.mode = .TRANSPORT_TCP
  connected : leg.connected = false
  sessionID : leg.sessionID = true

/-- A connection with its notifications that wait: that it is connected is said once, before all
else that is said of it. -/
inductive Fits (leg : Leg) (word : List NetNotification) : Prop where
  | connecting (hlink : leg.link = .connecting) (hawaits : leg.Awaits) (hword : word = [])
  | announced (hlink : leg.link ≠ .connecting) (hawaits : leg.Awaits)
      (rest : List NetNotification) (hword : word = .WHAT_CONNECTED :: rest)
      (hrest : .WHAT_CONNECTED ∉ rest)
  | settled (hlink : leg.link ≠ .connecting) (hword : .WHAT_CONNECTED ∉ word)

variable {leg : Leg} {word : List NetNotification}

theorem Fits.of_cons {n : NetNotification} (h : leg.Fits (n :: word)) (hn : n ≠ .WHAT_CONNECTED) :
    leg.link ≠ .connecting ∧ .WHAT_CONNECTED ∉ word := by
  cases h with
  | connecting hlink hawaits hword => cases hword
  | announced hlink hawaits rest hword hrest =>
      obtain ⟨rfl, -⟩ := List.cons.inj hword
      exact absurd rfl hn
  | settled hlink hword => exact ⟨hlink, mt (List.mem_cons_of_mem _) hword⟩

theorem Fits.of_connected (h : leg.Fits (.WHAT_CONNECTED :: word)) :
    leg.link ≠ .connecting ∧ leg.Awaits ∧ .WHAT_CONNECTED ∉ word := by
  cases h with
  | connecting hlink hawaits hword => cases hword
  | announced hlink hawaits rest hword hrest =>
      obtain ⟨-, rfl⟩ := List.cons.inj hword
      exact ⟨hlink, hawaits, hrest⟩
  | settled hlink hword => exact absurd List.mem_cons_self hword

/-- What is announced comes behind what waits. -/
theorem Fits.announces {n : NetNotification} (h : leg.Fits word)
    (hannounces : leg.link.announces n = true) :
    Fits { leg with link := .usable } (word ++ [n]) := by
  cases h with
  | connecting hlink hawaits hword =>
      rw [hword, List.nil_append]
      by_cases hn : n = .WHAT_CONNECTED
      · subst hn
        exact .announced (by simp) ⟨hawaits.mode, hawaits.connected, hawaits.sessionID⟩ [] rfl
          (by simp)
      · exact .settled (by simp) (by simpa using Ne.symm hn)
  | announced hlink hawaits rest hword hrest =>
      have hn := Link.ne_connected_of_announces hlink hannounces
      refine .announced (by simp) ⟨hawaits.mode, hawaits.connected, hawaits.sessionID⟩
        (rest ++ [n]) (by rw [hword]; rfl) ?_
      simpa using ⟨hrest, Ne.symm hn⟩
  | settled hlink hword =>
      have hn := Link.ne_connected_of_announces hlink hannounces
      refine .settled (by simp) ?_
      simpa using ⟨hword, Ne.symm hn⟩

theorem fits_newLeg {mode : TransportMode}
    (h : mode = .TRANSPORT_NONE ∨ mode = .TRANSPORT_UDP ∨ mode = .TRANSPORT_TCP) :
    (State.newLeg mode).Fits [] := by
  obtain rfl | rfl | rfl := h
  · exact .settled (by decide) (by simp)
  · exact .settled (by decide) (by simp)
  · exact .connecting rfl ⟨rfl, rfl, rfl⟩ rfl

end Leg

/-! ## The handshake -/

namespace State

/-- The sender can send. -/
def complete (s : State) : Bool :=
  s.rtp.connected && (s.rtcp.mode = .TRANSPORT_NONE || s.rtcp.connected)

/-- The tracks were told to start. -/
def begun (s : State) : Bool := s.starting ≠ [] ∨ .WHAT_SESSION_ESTABLISHED ∈ s.effects

/-- Nobody says twice that the sender is initialized, nor before it can send. -/
structure Handshake (s : State) : Prop where
  legs : ∀ isRTP, (s.leg isRTP).Fits (netWord isRTP s.queue)
  errors : ∀ isRTP err, .WHAT_ERROR err ∈ netWord isRTP s.queue → err ≠ OK
  once : s.queue.countP isInitOK + s.begun.toNat ≤ s.complete.toNat

/-- The step is one of the sender, and concerns no track. -/
structure Beside (s t : State) : Prop where
  slots : t.slots = s.slots
  starting : t.starting = s.starting
  tracks : t.tracks = s.tracks
  mVideoTrackIndex : t.mVideoTrackIndex = s.mVideoTrackIndex
  mMediaSender : t.mMediaSender = s.mMediaSender
  mWeAreDead : t.mWeAreDead = s.mWeAreDead
  effects : t.effects = s.effects
  exception : t.exception = s.exception
  queue : ∃ front posted, t.queue = front ++ (s.queue ++ posted) ∧
    (∀ m ∈ front, m.Apart) ∧ ∀ m ∈ posted, m.Apart

variable {s t : State} {isRTP : Bool} {queue : List Message}

theorem Beside.refl (s : State) : Beside s s :=
  ⟨rfl, rfl, rfl, rfl, rfl, rfl, rfl, rfl, [], [], by simp, by simp, by simp⟩

theorem Beside.begun (h : Beside s t) : t.begun = s.begun := by
  unfold State.begun
  rw [h.starting, h.effects]

theorem beside_setLeg_append (leg : Leg) {posted : List Message}
    (hposted : ∀ m ∈ posted, m.Apart) :
    Beside s { s.setLeg isRTP leg with queue := s.queue ++ posted } := by
  cases isRTP <;>
    exact ⟨rfl, rfl, rfl, rfl, rfl, rfl, rfl, rfl, [], posted, rfl, by simp, hposted⟩

theorem beside_todo {tasks : List Task} (htasks : ∀ task ∈ tasks, ¬ task.IsStop) :
    Beside s (s.todo tasks) := by
  refine ⟨rfl, rfl, rfl, rfl, rfl, rfl, rfl, rfl, tasks.map .task, [], ?_, ?_, by simp⟩
  · rw [List.append_nil, State.todo]
  · intro m hm
    obtain ⟨task, htask, rfl⟩ := List.mem_map.mp hm
    refine ⟨by simp, ?_⟩
    rintro _ ⟨⟩
    exact htasks task htask

theorem leg_setLeg_self (leg : Leg) : (s.setLeg isRTP leg).leg isRTP = leg := by
  cases isRTP <;> rfl

theorem leg_setLeg_of_ne {b : Bool} (h : b ≠ isRTP) (leg : Leg) :
    (s.setLeg isRTP leg).leg b = s.leg b := by
  cases isRTP <;> cases b <;> first | rfl | exact absurd rfl h

theorem setLeg_leg : s.setLeg isRTP (s.leg isRTP) = s := by
  cases isRTP <;> rfl

/-- The modes stay, and so does a connection that was made. -/
theorem complete_setLeg (leg : Leg) (hmode : leg.mode = (s.leg isRTP).mode)
    (hconnected : leg.connected = (s.leg isRTP).connected) :
    (s.setLeg isRTP leg).complete = s.complete := by
  cases isRTP
  · simp only [State.complete, State.setLeg, Bool.false_eq_true, if_false]
    rw [hmode, hconnected]
    rfl
  · simp only [State.complete, State.setLeg, if_true]
    rw [hconnected]
    rfl

/-- The handshake goes on if nothing of it changes but messages that say that the sender is
initialized, and these do not get more. -/
theorem Handshake.of_eq (h : s.Handshake) (hrtp : t.rtp = s.rtp) (hrtcp : t.rtcp = s.rtcp)
    (hnet : ∀ isRTP, netWord isRTP t.queue = netWord isRTP s.queue)
    (honce : t.queue.countP isInitOK + t.begun.toNat ≤ s.queue.countP isInitOK + s.begun.toNat) :
    t.Handshake where
  legs isRTP := by
    have hleg : t.leg isRTP = s.leg isRTP := by
      unfold State.leg
      rw [hrtp, hrtcp]
    rw [hleg, hnet]
    exact h.legs isRTP
  errors isRTP := by
    rw [hnet]
    exact h.errors isRTP
  once := by
    have hcomplete : t.complete = s.complete := by
      unfold State.complete
      rw [hrtp, hrtcp]
    rw [hcomplete]
    exact honce.trans h.once

/-- A notification of a connection is handled, and what follows is posted. -/
theorem Handshake.handled (h : s.Handshake) {n : NetNotification}
    (hqueue : s.queue = .net isRTP n :: queue) {leg : Leg} {posted : List Message}
    (hfits : leg.Fits (netWord isRTP queue)) (hposted : ∀ m ∈ posted, m.Reports)
    (honce : queue.countP isInitOK + posted.countP isInitOK + s.begun.toNat ≤
      (s.setLeg isRTP leg).complete.toNat) :
    { s.setLeg isRTP leg with queue := queue ++ posted }.Handshake := by
  have hnet : ∀ b, netWord b (queue ++ posted) = netWord b queue := by
    intro b
    rw [netWord_append, netWord_eq_nil fun m hm => (hposted m hm).ne_net, List.append_nil]
  refine ⟨?_, ?_, ?_⟩
  · intro b
    change ((s.setLeg isRTP leg).leg b).Fits (netWord b (queue ++ posted))
    rw [hnet]
    by_cases hb : b = isRTP
    · subst hb
      rw [leg_setLeg_self]
      exact hfits
    · rw [leg_setLeg_of_ne hb, ← netWord_net_of_ne (Ne.symm hb) n, ← hqueue]
      exact h.legs b
  · intro b err hmem
    change .WHAT_ERROR err ∈ netWord b (queue ++ posted) at hmem
    rw [hnet] at hmem
    refine h.errors b err ?_
    rw [hqueue]
    by_cases hb : b = isRTP
    · subst hb
      rw [netWord_net_self]
      exact List.mem_cons_of_mem _ hmem
    · rwa [netWord_net_of_ne (Ne.symm hb)]
  · have hbegun : { s.setLeg isRTP leg with queue := queue ++ posted }.begun = s.begun := by
      cases isRTP <;> rfl
    rw [hbegun, List.countP_append]
    exact honce

/-- The handler has something to do that has nothing to do with the connections. -/
theorem Handshake.todo (h : s.Handshake) (tasks : List Task) : (s.todo tasks).Handshake := by
  refine h.of_eq rfl rfl ?_ ?_
  · intro isRTP
    refine (netWord_append _ _ _).trans ?_
    rw [netWord_map_task, List.nil_append]
  · change (tasks.map Message.task ++ s.queue).countP isInitOK + s.begun.toNat ≤ _
    rw [List.countP_append, countP_map_task, Nat.zero_add]

/-! ## The handlers -/

/-- What `RTPSender` makes of an error or a stall. -/
theorem onNetNotify_reports {n : NetNotification} (hn : n ≠ .WHAT_CONNECTED)
    (hdatagram : ∀ newBitrates thrown, n ≠ .WHAT_DATAGRAM newBitrates thrown)
    (herr : ∀ err, n = .WHAT_ERROR err → err ≠ OK) :
    ∃ sessionID m, s.onNetNotify isRTP n =
        { s.setLeg isRTP { s.leg isRTP with sessionID } with queue := s.queue ++ [m] } ∧
      m.Reports ∧ isInitOK m = false := by
  have hqueue : (s.setLeg isRTP { s.leg isRTP with sessionID := false }).queue = s.queue := by
    cases isRTP <;> rfl
  cases n with
  | WHAT_ERROR err =>
      have herr := herr err rfl
      simp only [State.onNetNotify]
      split
      · refine ⟨false, .WHAT_SENDER_NOTIFY 0 (.WHAT_INIT_DONE err), ?_, .inl ⟨_, _, rfl⟩, ?_⟩
        · rw [← hqueue]
          rfl
        · simp [isInitOK, herr]
      · refine ⟨false, .WHAT_SENDER_NOTIFY 0 (.WHAT_ERROR err), ?_, .inl ⟨_, _, rfl⟩, rfl⟩
        rw [← hqueue]
        rfl
  | WHAT_CONNECTED => exact absurd rfl hn
  | WHAT_NETWORK_STALL =>
      refine ⟨(s.leg isRTP).sessionID, .WHAT_SENDER_NOTIFY 0 .WHAT_NETWORK_STALL, ?_,
        .inl ⟨_, _, rfl⟩, rfl⟩
      rw [show s.setLeg isRTP { s.leg isRTP with sessionID := (s.leg isRTP).sessionID } = s from
        setLeg_leg]
      rfl
  | WHAT_DATAGRAM newBitrates thrown => exact absurd rfl (hdatagram newBitrates thrown)

/-- A connection is made: no check fails, and that the sender is initialized is posted if it now
can send. -/
theorem onNetNotify_connected (hawaits : (s.leg isRTP).Awaits) :
    ∃ posted, s.onNetNotify isRTP .WHAT_CONNECTED =
        { s.setLeg isRTP { s.leg isRTP with connected := true } with queue := s.queue ++ posted } ∧
      (∀ m ∈ posted, m.Reports) ∧
      posted.countP isInitOK =
        (s.setLeg isRTP { s.leg isRTP with connected := true }).complete.toNat := by
  have hqueue : (s.setLeg isRTP { s.leg isRTP with connected := true }).queue = s.queue := by
    cases isRTP <;> rfl
  unfold State.onNetNotify
  rw [if_neg (by simp [hawaits.mode]), if_neg (by simp [hawaits.sessionID])]
  dsimp only
  split
  · rename_i hcomplete
    refine ⟨[.WHAT_SENDER_NOTIFY 0 (.WHAT_INIT_DONE OK)], ?_, ?_, ?_⟩
    · rw [← hqueue]
      rfl
    · exact List.forall_mem_singleton.mpr (.inl ⟨_, _, rfl⟩)
    · rw [State.complete, hcomplete]
      rfl
  · rename_i hcomplete
    refine ⟨[], by rw [List.append_nil, ← hqueue], by simp, ?_⟩
    rw [State.complete, (Bool.not_eq_true _).mp hcomplete]
    rfl

/-- Before a connection is made the sender cannot send. -/
theorem complete_of_awaits (h : (s.leg isRTP).Awaits) : s.complete = false := by
  unfold State.complete
  cases isRTP with
  | false =>
      have hconnected : s.rtcp.connected = false := h.connected
      have hmode : s.rtcp.mode = .TRANSPORT_TCP := h.mode
      simp [hconnected, hmode]
  | true =>
      have hconnected : s.rtp.connected = false := h.connected
      simp [hconnected]

/-- `RTPSender` handles a notification: no check fails. -/
theorem Handshake.onNetNotify {u : State} {n : NetNotification} (h : s.Handshake)
    (hqueue : s.queue = .net isRTP n :: queue) (hu : u = { s with queue }) :
    (u.onNetNotify isRTP n).Handshake ∧ Beside u (u.onNetNotify isRTP n) := by
  have hleg : u.leg isRTP = s.leg isRTP := by
    subst hu
    cases isRTP <;> rfl
  have hset : ∀ leg posted, { u.setLeg isRTP leg with queue := u.queue ++ posted } =
      { s.setLeg isRTP leg with queue := queue ++ posted } := by
    subst hu
    intro leg posted
    cases isRTP <;> rfl
  have hcomplete : ∀ leg, (u.setLeg isRTP leg).complete = (s.setLeg isRTP leg).complete := by
    subst hu
    intro leg
    cases isRTP <;> rfl
  have hfits := h.legs isRTP
  rw [hqueue, netWord_net_self] at hfits
  have honce := h.once
  have hcount : s.queue.countP isInitOK = queue.countP isInitOK := by
    rw [hqueue]
    rfl
  rw [hcount] at honce
  by_cases hn : n = .WHAT_CONNECTED
  · subst hn
    obtain ⟨hlink, hawaits, hword⟩ := hfits.of_connected
    rw [complete_of_awaits hawaits] at honce
    obtain ⟨posted, heq, hposted, hinit⟩ := onNetNotify_connected (hleg ▸ hawaits)
    refine ⟨?_, heq ▸ beside_setLeg_append _ fun m hm => (hposted m hm).apart⟩
    rw [heq, hset, hleg]
    refine h.handled hqueue (.settled hlink hword) hposted ?_
    rw [hinit, hcomplete, hleg]
    simp only [Bool.toNat_false] at honce
    omega
  obtain ⟨hlink, hword⟩ := hfits.of_cons hn
  by_cases hdatagram : ∃ newBitrates thrown, n = .WHAT_DATAGRAM newBitrates thrown
  · obtain ⟨newBitrates, thrown, rfl⟩ := hdatagram
    have hdropped : { s with queue }.Handshake := by
      have hhandled : { s.setLeg isRTP (s.leg isRTP) with queue := queue ++ [] }.Handshake := by
        refine h.handled hqueue (.settled hlink hword) (by simp) ?_
        rw [setLeg_leg]
        exact honce
      rwa [setLeg_leg, List.append_nil] at hhandled
    rw [← hu] at hdropped
    unfold State.onNetNotify
    dsimp only
    split
    · exact ⟨hdropped, .refl u⟩
    · refine ⟨hdropped.todo _, beside_todo ?_⟩
      intro task htask
      rcases List.mem_append.mp htask with htask | htask
      · obtain ⟨newBitrate, -, rfl⟩ := List.mem_map.mp htask
        exact id
      · obtain ⟨e, -, rfl⟩ : ∃ e, thrown = some e ∧ .throw e = task := by simpa using htask
        exact id
  · have herr : ∀ err, n = .WHAT_ERROR err → err ≠ OK := by
      rintro err rfl
      refine h.errors isRTP err ?_
      rw [hqueue, netWord_net_self]
      exact List.mem_cons_self
    obtain ⟨sessionID, m, heq, hm, hinit⟩ := @onNetNotify_reports u isRTP n hn
      (fun newBitrates thrown hn => hdatagram ⟨newBitrates, thrown, hn⟩) herr
    refine ⟨?_, heq ▸ beside_setLeg_append _ (List.forall_mem_singleton.mpr hm.apart)⟩
    rw [heq, hset, hleg]
    refine h.handled hqueue (.settled hlink hword) (List.forall_mem_singleton.mpr hm) ?_
    rw [List.countP_singleton, hinit, complete_setLeg]
    · exact honce
    · rfl
    · rfl

/-- `MediaSender` passes a message on, but for that of a sender of several that is initialized. -/
theorem onSenderNotify_eq (generation : ℤ) (n : SenderNotification) :
    ∃ mInitDoneCount mGeneration posted, s.onSenderNotify n =
        { s with mInitDoneCount, mGeneration, queue := s.queue ++ posted } ∧
      (∀ m ∈ posted, m.Reports) ∧
      posted.countP isInitOK ≤ [Message.WHAT_SENDER_NOTIFY generation n].countP isInitOK := by
  have hpassed : ∀ n, ∀ m ∈ [Message.WHAT_MEDIA_SENDER_NOTIFY n], m.Reports :=
    fun n => List.forall_mem_singleton.mpr (.inr ⟨n, rfl⟩)
  cases n with
  | WHAT_INIT_DONE err =>
      simp only [State.onSenderNotify]
      split
      · rename_i herr
        refine ⟨_, _, [.WHAT_MEDIA_SENDER_NOTIFY (.WHAT_INIT_DONE err)], rfl, hpassed _, ?_⟩
        simp [isInitOK, herr]
      rename_i herr
      rw [ne_eq, not_not] at herr
      subst herr
      split
      · exact ⟨_, _, [.WHAT_MEDIA_SENDER_NOTIFY (.WHAT_INIT_DONE OK)], rfl, hpassed _, le_rfl⟩
      · exact ⟨_, s.mGeneration, [], by rw [List.append_nil], by simp, Nat.zero_le _⟩
  | WHAT_ERROR err =>
      exact ⟨s.mInitDoneCount, s.mGeneration, [.WHAT_MEDIA_SENDER_NOTIFY (.WHAT_ERROR err)], rfl,
        hpassed _, le_rfl⟩
  | WHAT_NETWORK_STALL =>
      exact ⟨s.mInitDoneCount, s.mGeneration, [.WHAT_MEDIA_SENDER_NOTIFY .WHAT_NETWORK_STALL], rfl,
        hpassed _, le_rfl⟩
  | WHAT_INFORM_SENDER newBitrate =>
      exact ⟨s.mInitDoneCount, s.mGeneration,
        [.WHAT_MEDIA_SENDER_NOTIFY (.WHAT_INFORM_SENDER newBitrate)], rfl, hpassed _, le_rfl⟩

theorem Handshake.onSenderNotify {u : State} {generation : ℤ} {n : SenderNotification}
    (h : s.Handshake) (hqueue : s.queue = .WHAT_SENDER_NOTIFY generation n :: queue)
    (hu : u = { s with queue }) :
    (u.onSenderNotify n).Handshake ∧ Beside u (u.onSenderNotify n) := by
  subst hu
  obtain ⟨mInitDoneCount, mGeneration, posted, heq, hposted, hinit⟩ :=
    @onSenderNotify_eq { s with queue } generation n
  rw [heq]
  refine ⟨h.of_eq rfl rfl ?_ ?_, rfl, rfl, rfl, rfl, rfl, rfl, rfl, rfl, [], posted, rfl, by simp,
    fun m hm => (hposted m hm).apart⟩
  · intro isRTP
    change netWord isRTP (queue ++ posted) = netWord isRTP s.queue
    rw [netWord_append, netWord_eq_nil fun m hm => (hposted m hm).ne_net, List.append_nil, hqueue]
    rfl
  · change (queue ++ posted).countP isInitOK + s.begun.toNat ≤ _
    rw [List.countP_append, hqueue, List.countP_cons]
    rw [List.countP_singleton] at hinit
    omega

/-! ## The network -/

/-- What `mNetSession` announces keeps the handshake. -/
theorem Handshake.notified {n : NetNotification} (h : s.Handshake)
    (herr : ∀ err, n = .WHAT_ERROR err → err ≠ OK) :
    (s.notified isRTP n).Handshake ∧ Beside s (s.notified isRTP n) := by
  unfold State.notified
  by_cases hannounces : (s.leg isRTP).link.announces n = true
  swap
  · rw [if_neg hannounces]
    exact ⟨h, .refl s⟩
  rw [if_pos hannounces]
  have hpost : (s.setLeg isRTP { s.leg isRTP with link := .usable }).post (.net isRTP n) =
      { s.setLeg isRTP { s.leg isRTP with link := .usable } with
        queue := s.queue ++ [.net isRTP n] } := by
    cases isRTP <;> rfl
  rw [hpost]
  refine ⟨⟨?_, ?_, ?_⟩, beside_setLeg_append _ (by simp [Message.Apart])⟩
  · intro b
    change ((s.setLeg isRTP { s.leg isRTP with link := .usable }).leg b).Fits
      (netWord b (s.queue ++ [.net isRTP n]))
    rw [netWord_append]
    have hlegs := h.legs b
    by_cases hb : b = isRTP
    · subst hb
      rw [leg_setLeg_self, netWord_net_self]
      exact hlegs.announces hannounces
    · rw [leg_setLeg_of_ne hb, netWord_net_of_ne (Ne.symm hb)]
      simpa [netWord] using hlegs
  · intro b err hmem
    change .WHAT_ERROR err ∈ netWord b (s.queue ++ [.net isRTP n]) at hmem
    rw [netWord_append, List.mem_append] at hmem
    rcases hmem with hmem | hmem
    · exact h.errors b err hmem
    · by_cases hb : b = isRTP
      · subst hb
        rw [netWord_net_self] at hmem
        rw [netWord_nil, List.mem_singleton] at hmem
        exact herr err hmem.symm
      · rw [netWord_net_of_ne (Ne.symm hb)] at hmem
        simp [netWord] at hmem
  · have hbegun : ({ s.setLeg isRTP { s.leg isRTP with link := .usable } with
        queue := s.queue ++ [.net isRTP n] } : State).begun = s.begun := by
      cases isRTP <;> rfl
    have hcomplete : ({ s.setLeg isRTP { s.leg isRTP with link := .usable } with
        queue := s.queue ++ [.net isRTP n] } : State).complete = s.complete := by
      cases isRTP <;> rfl
    rw [hbegun, hcomplete]
    change (s.queue ++ [Message.net isRTP n]).countP isInitOK + _ ≤ _
    rw [List.countP_append]
    exact h.once

theorem handshake_new {mIsAudio : List Bool} {rtpMode rtcpMode : TransportMode}
    (hrtp : rtpMode = .TRANSPORT_UDP ∨ rtpMode = .TRANSPORT_TCP)
    (hrtcp : rtcpMode = .TRANSPORT_NONE ∨ rtcpMode = .TRANSPORT_UDP ∨ rtcpMode = .TRANSPORT_TCP) :
    (new mIsAudio rtpMode rtcpMode).Handshake := by
  have hnet : ∀ isRTP, netWord isRTP (new mIsAudio rtpMode rtcpMode).queue = [] := by
    intro isRTP
    simp only [State.new]
    split <;> rfl
  refine ⟨?_, ?_, ?_⟩
  · intro isRTP
    rw [hnet]
    cases isRTP with
    | false => exact Leg.fits_newLeg hrtcp
    | true => exact Leg.fits_newLeg (.inr hrtp)
  · intro isRTP err hmem
    rw [hnet] at hmem
    simp at hmem
  · have hbegun : (new mIsAudio rtpMode rtcpMode).begun = false := by
      simp [State.begun, State.new]
    rw [hbegun]
    simp only [State.new, State.complete, newLeg]
    split
    · rename_i hmodes
      obtain ⟨rfl, rfl | rfl⟩ := hmodes <;> simp [isInitOK]
    · exact Nat.zero_le _

end State

end MirrorCast.PlaybackSession.Mirroring
