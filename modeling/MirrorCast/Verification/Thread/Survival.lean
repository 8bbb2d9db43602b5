import MirrorCast.Verification.Thread.Entries

/-! # What the network thread survives -/

namespace MirrorCast.Thread

open Java ANetworkSession NetworkThread

/-! ## The invariant -/

/-- What holds of the sessions whatever `threadLoop` does. -/
structure Sound (s : State) : Prop where
  wellFormed : ∀ id, WellFormed (s.entries id)
  present : ∀ id ∈ s.mSessions, id < s.mNextSessionID ∧ (s.entries id).isOpen = true ∧
    (s.entries id).destroying = .no ∧
    ∀ key, (s.entries id).key = some key → key.isCancelled = false
  unconstructed : ∀ id, s.mNextSessionID ≤ id → (s.entries id).key = none

/-- What `threadLoop` knows of the sessions and keys it works on. -/
def Knows (s : State) : Loop → Prop
  | .updating => True
  | .selecting => ∀ id ∈ s.mSessions, ∀ key, (s.entries id).key = some key →
      key.interestOps.write → Writable (s.entries id).session
  | .selected keys => (keys.map Prod.fst).Nodup ∧ ∀ key ∈ keys, key.1 < s.mNextSessionID ∧
      (key.1 ∈ s.mSessions → Serves (s.entries key.1) key.2)
  | .handling _ keys sessionsToAdd => (keys.map Prod.fst).Nodup ∧
      (∀ key ∈ keys, key.1 ∈ s.mSessions ∧ Serves (s.entries key.1) key.2) ∧
      ∀ id ∈ sessionsToAdd, id < s.mNextSessionID ∧ (s.entries id).isOpen = true ∧
        (s.entries id).destroying = .no ∧ (s.entries id).key = none

structure Inv (s : State) : Prop extends Sound s where
  knows : Knows s s.loop

/-- What a step of the network thread needs: the selected keys belong to sessions that no
`destroySession` has removed, `accept` does not return null, what is read is nothing that the
parser throws on, and a datagram channel that is written to is connected. -/
def Undisturbed [CharData] (s : State) : Input → Prop
  | .lock => ∀ keys, s.loop = .selected keys → ∀ key ∈ keys, key.1 ∈ s.mSessions
  | .testAcceptable accepted => ∀ id ready keys sessionsToAdd,
      s.loop = .handling .acceptable ((id, ready) :: keys) sessionsToAdd →
        ready.accept → accepted ≠ .null
  | .testReadable incoming => ∀ id ready keys sessionsToAdd,
      s.loop = .handling .readable ((id, ready) :: keys) sessionsToAdd →
        ready.read → ReadsHarmless (s.entries id).session incoming
  | .testWritable outgoing => ∀ id ready keys sessionsToAdd,
      s.loop = .handling .writable ((id, ready) :: keys) sessionsToAdd →
        ready.write → (s.entries id).session.mState = .DATAGRAM → outgoing.isConnected = true
  | _ => True

/-- The session that `readMore` or `writeMore` is called on is in `mSessions`. -/
def Present : Event → Prop
  | .clientConnected _ => True
  | .readMore _ present _ => present = true
  | .writeMore _ present _ => present = true

theorem inv_initial : Inv .initial where
  wellFormed := fun _ => wellFormed_new _ _ _ rfl (by simp)
  present := by simp [State.initial]
  unconstructed := fun _ _ => rfl
  knows := trivial

/-! ## Changes of one session -/

section

variable {s : State} {id : ℕ}

theorem entries_setEntry (s : State) (id id' : ℕ) (e : Entry) :
    (s.setEntry id e).entries id' = if id' = id then e else s.entries id' :=
  Function.update_apply ..

theorem Sound.setSession (h : Sound s) {session : Session}
    (hwell : WellFormed { s.entries id with session }) :
    Sound (s.setEntry id { s.entries id with session }) where
  wellFormed := by
    intro id'
    rw [entries_setEntry]
    split
    · exact hwell
    · exact h.wellFormed id'
  present := by
    intro id' hid'
    rw [entries_setEntry]
    split
    · rename_i heq
      cases heq
      exact h.present _ hid'
    · exact h.present id' hid'
  unconstructed := by
    intro id' hid'
    rw [entries_setEntry]
    split
    · rename_i heq
      rw [heq] at hid'
      exact h.unconstructed id hid'
    · exact h.unconstructed id' hid'

theorem Serves.setSession {e : Entry} {ready : Ops} (h : Serves e ready) {session : Session}
    (hwritable : Writable e.session → Writable session) : Serves { e with session } ready :=
  ⟨h.registered, h.accept, h.read, fun hwrite => ⟨(h.write hwrite).1, hwritable (h.write hwrite).2⟩⟩

/-- What is known stays known if sessions that can be written to stay so. -/
theorem Knows.setSession {loop : Loop} (h : Knows s loop) {session : Session}
    (hwritable : Writable (s.entries id).session → Writable session) :
    Knows (s.setEntry id { s.entries id with session }) loop := by
  have hserves : ∀ id' ready, Serves (s.entries id') ready →
      Serves ((s.setEntry id { s.entries id with session }).entries id') ready := by
    intro id' ready hserves
    rw [entries_setEntry]
    split
    · rename_i heq
      rw [heq] at hserves
      exact hserves.setSession hwritable
    · exact hserves
  cases loop with
  | updating => trivial
  | selecting =>
      intro id' hid' key
      rw [entries_setEntry]
      split
      · rename_i heq
        rw [heq] at hid'
        exact fun hkey hwrite => hwritable (h id hid' key hkey hwrite)
      · exact h id' hid' key
  | selected keys =>
      exact ⟨h.1, fun key hkey => ⟨(h.2 key hkey).1, fun hmem =>
        hserves _ _ ((h.2 key hkey).2 hmem)⟩⟩
  | handling test keys sessionsToAdd =>
      refine ⟨h.1, fun key hkey => ⟨(h.2.1 key hkey).1, hserves _ _ (h.2.1 key hkey).2⟩, ?_⟩
      intro id' hid'
      rw [entries_setEntry]
      split
      · rename_i heq
        cases heq
        exact h.2.2 _ hid'
      · exact h.2.2 id' hid'

/-- A new session, which nobody has a key of. -/
theorem Sound.construct (h : Sound s) {e : Entry} (hwell : WellFormed e) :
    Sound { s.setEntry s.mNextSessionID e with mNextSessionID := s.mNextSessionID + 1 } where
  wellFormed := by
    intro id'
    change WellFormed ((s.setEntry s.mNextSessionID e).entries id')
    rw [entries_setEntry]
    split
    · exact hwell
    · exact h.wellFormed id'
  present := by
    intro id' hid'
    obtain ⟨hlt, hrest⟩ := h.present id' hid'
    refine ⟨Nat.lt_succ_of_lt hlt, ?_⟩
    have hsame := entries_setEntry s s.mNextSessionID id' e
    rw [if_neg (Nat.ne_of_lt hlt)] at hsame
    change (((s.setEntry s.mNextSessionID e).entries id').isOpen = true ∧ _)
    rw [hsame]
    exact hrest
  unconstructed := by
    intro id' hid'
    have hsame := entries_setEntry s s.mNextSessionID id' e
    rw [if_neg (Nat.ne_of_gt hid')] at hsame
    exact (congrArg Entry.key hsame).trans (h.unconstructed id' (Nat.le_of_succ_le hid'))

/-- What is known of other sessions is not touched by a session that is not in `mSessions`. -/
theorem Knows.setAbsent {loop : Loop} (h : Knows s loop) {e : Entry} (habsent : id ∉ s.mSessions)
    (hadd : ∀ test keys sessionsToAdd, loop = .handling test keys sessionsToAdd →
      id ∉ sessionsToAdd) : Knows (s.setEntry id e) loop := by
  have hother : ∀ id' ∈ s.mSessions, (s.setEntry id e).entries id' = s.entries id' := by
    intro id' hid'
    rw [entries_setEntry, if_neg]
    rintro rfl
    exact habsent hid'
  cases loop with
  | updating => trivial
  | selecting =>
      intro id' hid'
      rw [hother id' hid']
      exact h id' hid'
  | selected keys =>
      refine ⟨h.1, fun key hkey => ⟨(h.2 key hkey).1, fun hmem => ?_⟩⟩
      rw [hother _ hmem]
      exact (h.2 key hkey).2 hmem
  | handling test keys sessionsToAdd =>
      refine ⟨h.1, fun key hkey => ?_, fun id' hid' => ?_⟩
      · obtain ⟨hmem, hserves⟩ := h.2.1 key hkey
        rw [hother _ hmem]
        exact ⟨hmem, hserves⟩
      · rw [entries_setEntry, if_neg]
        · exact h.2.2 id' hid'
        · rintro rfl
          exact hadd _ _ _ rfl hid'

end

/-! ## The steps of `threadLoop` -/

/-- Registering the sessions gives each a valid key for what it wants. -/
theorem updateSelectionKeys_spec {s : State} {ids : List ℕ}
    (hids : ∀ id ∈ ids, (s.entries id).isOpen = true ∧
      ∀ key, (s.entries id).key = some key → key.isCancelled = false) :
    ∃ s', updateSelectionKeys s ids = .ok s' ∧ s'.mSessions = s.mSessions ∧
      s'.mNextSessionID = s.mNextSessionID ∧ ∀ id, s'.entries id =
        if id ∈ ids then { s.entries id with key := some ⟨(s.entries id).ops, false⟩ }
        else s.entries id := by
  induction ids generalizing s with
  | nil => exact ⟨s, rfl, rfl, rfl, by simp⟩
  | cons id ids ih =>
      obtain ⟨hopen, hkey⟩ := hids id List.mem_cons_self
      have hregister : (s.entries id).register =
          .ok { s.entries id with key := some ⟨(s.entries id).ops, false⟩ } := by
        rw [Entry.register, if_neg (by simp [hopen])]
        split
        · rename_i ops hcancelled
          have hfalse := hkey _ hcancelled
          cases hfalse
        · rfl
      have hentries := entries_setEntry s id
      obtain ⟨s', hupdate, hsessions, hnext, hrest⟩ := ih
        (s := s.setEntry id { s.entries id with key := some ⟨(s.entries id).ops, false⟩ }) (by
          intro id' hid'
          rw [hentries]
          split
          · refine ⟨hopen, ?_⟩
            rintro _ ⟨⟩
            rfl
          · exact hids id' (List.mem_cons_of_mem id hid'))
      refine ⟨s', ?_, hsessions, hnext, fun id' => ?_⟩
      · rw [updateSelectionKeys, hregister, ok_bind, hupdate]
      · rw [hrest, hentries]
        by_cases hid' : id' = id
        · subst hid'
          simp [Entry.ops]
        · simp [hid']

theorem inv_updateSelectionKeys {s : State} (h : Sound s) :
    ∃ s', updateSelectionKeys s s.mSessions = .ok s' ∧ Inv { s' with loop := .selecting } := by
  obtain ⟨s', hupdate, hsessions, hnext, hentries⟩ := @updateSelectionKeys_spec s
    s.mSessions fun id hid => ⟨(h.present id hid).2.1, (h.present id hid).2.2.2⟩
  refine ⟨s', hupdate, ⟨fun id => ?_, fun id hid => ?_, fun id hid => ?_⟩, fun id hid key hkey => ?_⟩
  · change WellFormed (s'.entries id)
    rw [hentries]
    split
    · exact (h.wellFormed id).setKey
    · exact h.wellFormed id
  · change id ∈ s'.mSessions at hid
    rw [hsessions] at hid
    obtain ⟨hlt, hopen, hno, -⟩ := h.present id hid
    have hid' := hentries id
    rw [if_pos hid] at hid'
    change id < s'.mNextSessionID ∧ (s'.entries id).isOpen = true ∧
      (s'.entries id).destroying = .no ∧ ∀ key, (s'.entries id).key = some key → _
    rw [hnext, hid']
    refine ⟨hlt, hopen, hno, ?_⟩
    rintro _ ⟨⟩
    rfl
  · change s'.mNextSessionID ≤ id at hid
    rw [hnext] at hid
    change (s'.entries id).key = none
    rw [hentries, if_neg]
    · exact h.unconstructed id hid
    · intro hmem
      exact absurd hid (Nat.not_le_of_lt (h.present id hmem).1)
  · change id ∈ s'.mSessions at hid
    rw [hsessions] at hid
    change (s'.entries id).key = some key at hkey
    change key.interestOps.write → Writable (s'.entries id).session
    have hid' := hentries id
    rw [if_pos hid] at hid'
    rw [hid'] at hkey ⊢
    cases hkey
    exact writable_of_wantsToWrite

theorem knows_selected {s : State} (h : Inv s) (hloop : s.loop = .selecting)
    {keys : List (ℕ × Ops)} (hkeys : Selectable s keys) : Knows s (.selected keys) := by
  have hknows := h.knows
  rw [hloop] at hknows
  refine ⟨hkeys.1, fun key hkey => ?_⟩
  obtain ⟨hvalid, hoffers, -⟩ := hkeys.2 key hkey
  cases hentry : (s.entries key.1).key with
  | none => simp [Entry.isValid, hentry] at hvalid
  | some registered =>
      refine ⟨?_, fun hmem => ?_⟩
      · by_contra hnot
        rw [h.unconstructed key.1 (Nat.le_of_not_lt hnot)] at hentry
        cases hentry
      · have hwell := h.wellFormed key.1
        obtain ⟨haccept, hother⟩ := hwell.key registered hentry
        simp only [Entry.offers, hentry, Option.any_some, Bool.and_eq_true, Bool.or_eq_true,
          Bool.not_eq_true'] at hoffers
        obtain ⟨⟨hready, hready'⟩, hready''⟩ := hoffers
        refine ⟨by rw [hentry]; rfl, fun ha => ?_, fun hr => ?_, fun hw => ⟨?_, ?_⟩⟩
        · exact haccept (hready.resolve_left (by rw [ha]; simp))
        · exact hother (.inl (hready'.resolve_left (by rw [hr]; simp)))
        · exact hother (.inr (hready''.resolve_left (by rw [hw]; simp)))
        · exact hknows key.1 hmem registered hentry (hready''.resolve_left (by rw [hw]; simp))

/-! ## The key tests -/

section

variable {s : State} {id : ℕ} {ready : Ops} {keys : List (ℕ × Ops)} {sessionsToAdd : List ℕ}

/-- The key of a selected session that is still in `mSessions` is valid. -/
theorem isValid_of_serves (h : Sound s) (hmem : id ∈ s.mSessions)
    (hserves : Serves (s.entries id) ready) : (s.entries id).isValid = true := by
  obtain ⟨-, hopen, -, hkey⟩ := h.present id hmem
  obtain ⟨key, hsome⟩ := Option.isSome_iff_exists.mp hserves.registered
  simp [Entry.isValid, hopen, hsome, hkey key hsome]

theorem testAcceptable_returns (h : Sound s) {test : Test}
    (hknows : Knows s (.handling test ((id, ready) :: keys) sessionsToAdd)) {accepted : Accepted}
    (hnull : ready.accept → accepted ≠ .null) :
    ∃ s' out, testAcceptable s accepted id ready keys sessionsToAdd = .ok (s', out) ∧ Inv s' ∧
      ∀ event ∈ out, Present event := by
  obtain ⟨hmem, hserves⟩ := hknows.2.1 _ List.mem_cons_self
  have hwell := h.wellFormed id
  have hnext : Inv { s with loop := .handling .readable ((id, ready) :: keys) sessionsToAdd } :=
    ⟨⟨h.wellFormed, h.present, h.unconstructed⟩, hknows⟩
  unfold testAcceptable
  dsimp only
  rw [if_neg (by simp [isValid_of_serves h hmem hserves])]
  split
  · exact ⟨_, _, rfl, hnext, by simp⟩
  · rename_i haccept
    have hserver := hserves.accept (by simpa using haccept)
    rw [if_neg (by simp [hwell.server, hserver]), if_neg (by simp [hserver])]
    cases accepted with
    | failed => exact ⟨_, _, rfl, hnext, by simp⟩
    | null => exact absurd rfl (hnull (by simpa using haccept))
    | channel =>
        refine ⟨_, _, rfl, ?_, by simp [Present]⟩
        have hsound := h.construct (wellFormed_clientSession (s.entries id).session)
        have hother : ∀ id', id' < s.mNextSessionID →
            (s.setEntry s.mNextSessionID (.new (clientSession (s.entries id).session) false)).entries
              id' = s.entries id' := by
          intro id' hlt
          rw [entries_setEntry, if_neg (Nat.ne_of_lt hlt)]
        refine ⟨⟨hsound.wellFormed, hsound.present, hsound.unconstructed⟩, hknows.1,
          fun key hkey => ?_, fun id' hid' => ?_⟩
        · obtain ⟨hmem', hserves'⟩ := hknows.2.1 key hkey
          refine ⟨hmem', ?_⟩
          change Serves ((s.setEntry _ _).entries key.1) key.2
          rw [hother _ (h.present _ hmem').1]
          exact hserves'
        · rcases List.mem_append.mp hid' with hid' | hid'
          · obtain ⟨hlt, hrest⟩ := hknows.2.2 id' hid'
            refine ⟨Nat.lt_succ_of_lt hlt, ?_⟩
            change ((s.setEntry _ _).entries id').isOpen = true ∧ _
            have hsame := hother id' hlt
            rw [hsame]
            exact hrest
          · rw [List.mem_singleton.mp hid']
            refine ⟨Nat.lt_succ_self _, ?_⟩
            change ((s.setEntry _ _).entries _).isOpen = true ∧
              ((s.setEntry _ _).entries _).destroying = .no ∧ ((s.setEntry _ _).entries _).key = none
            rw [entries_setEntry, if_pos rfl]
            exact ⟨rfl, rfl, rfl⟩

theorem testReadable_returns [CharData] (h : Sound s) {test : Test}
    (hknows : Knows s (.handling test ((id, ready) :: keys) sessionsToAdd))
    {incoming : Session.Incoming}
    (hharmless : ready.read → ReadsHarmless (s.entries id).session incoming) :
    ∃ s' out, testReadable s incoming id ready keys sessionsToAdd = .ok (s', out) ∧ Inv s' ∧
      ∀ event ∈ out, Present event := by
  obtain ⟨hmem, hserves⟩ := hknows.2.1 _ List.mem_cons_self
  have hwell := h.wellFormed id
  rw [testReadable, if_neg (by simp [isValid_of_serves h hmem hserves])]
  split
  · exact ⟨_, _, rfl, ⟨⟨h.wellFormed, h.present, h.unconstructed⟩, hknows⟩, by simp⟩
  · rename_i hread
    have hready : ready.read = true := by simpa using hread
    rw [if_neg (by simp [hserves.read hready])]
    obtain ⟨hstate, hmode, hfragments⟩ := readMoreFrom_keeps (s.entries id).session incoming
    have hdrained := readMoreFrom_drained hwell.drained incoming
    obtain ⟨err, herr⟩ :=
      readMoreFrom_returns hwell.datagram hwell.drained (hharmless hready)
    generalize (s.entries id).session.readMoreFrom incoming = result
      at hstate hmode hfragments hdrained herr
    obtain ⟨session, posted, outcome⟩ := result
    dsimp only at hstate hmode hfragments hdrained herr ⊢
    rw [herr]
    have hsound : Sound (s.setEntry id { s.entries id with session }) := by
      refine h.setSession (hwell.setSession ?_ ?_ ?_ hdrained)
      · simp only [Session.isServer, hstate]
      · rw [hstate, hmode]
        exact hwell.datagram
      · rw [hfragments]
        exact hwell.inRange
    have hkeeps : Knows (s.setEntry id { s.entries id with session })
        (.handling test ((id, ready) :: keys) sessionsToAdd) := by
      refine hknows.setSession fun hwritable => ?_
      unfold Writable at hwritable ⊢
      rwa [hstate, hfragments]
    refine ⟨_, _, rfl, ⟨⟨hsound.wellFormed, hsound.present, hsound.unconstructed⟩, hkeeps⟩, ?_⟩
    simp [Present, hmem]

theorem testWritable_returns (h : Sound s) {test : Test}
    (hknows : Knows s (.handling test ((id, ready) :: keys) sessionsToAdd))
    {outgoing : Session.Outgoing} (hconnected : ready.write →
      (s.entries id).session.mState = .DATAGRAM → outgoing.isConnected = true) :
    ∃ s' out, testWritable s outgoing id ready keys sessionsToAdd = .ok (s', out) ∧ Inv s' ∧
      ∀ event ∈ out, Present event := by
  obtain ⟨hmem, hserves⟩ := hknows.2.1 _ List.mem_cons_self
  obtain ⟨hnot, hnodup⟩ := List.nodup_cons.mp hknows.1
  have hrest : Knows s (.handling .acceptable keys sessionsToAdd) :=
    ⟨hnodup, fun key hkey => hknows.2.1 key (List.mem_cons_of_mem _ hkey), hknows.2.2⟩
  rw [testWritable, if_neg (by simp [isValid_of_serves h hmem hserves])]
  split
  · exact ⟨_, _, rfl, ⟨⟨h.wellFormed, h.present, h.unconstructed⟩, hrest⟩, by simp⟩
  · rename_i hwrite
    have hready : ready.write = true := by simpa using hwrite
    obtain ⟨hstream, hwritable⟩ := hserves.write hready
    rw [if_neg (by simp [hstream])]
    obtain ⟨w, hw, hwell⟩ := writeMoreTo_returns (h.wellFormed id) hwritable (hconnected hready)
    rw [hw]
    have hsound := h.setSession hwell
    refine ⟨_, _, rfl, ⟨⟨hsound.wellFormed, hsound.present, hsound.unconstructed⟩, hnodup,
      fun key hkey => ?_, fun id' hid' => ?_⟩, by simp [Present, hmem]⟩
    · obtain ⟨hmem', hserves'⟩ := hrest.2.1 key hkey
      refine ⟨hmem', ?_⟩
      change Serves ((s.setEntry id _).entries key.1) key.2
      rw [entries_setEntry, if_neg]
      · exact hserves'
      · intro heq
        exact hnot (List.mem_map.mpr ⟨key, hkey, heq⟩)
    · have hkept := hknows.2.2 id' hid'
      change id' < s.mNextSessionID ∧ ((s.setEntry id _).entries id').isOpen = true ∧
        ((s.setEntry id _).entries id').destroying = .no ∧
          ((s.setEntry id _).entries id').key = none
      rw [entries_setEntry]
      split
      · rename_i heq
        cases heq
        exact hkept
      · exact hkept

end

/-! ## The steps of other threads -/

section

variable {s : State} {id : ℕ}

theorem Sound.setAbsent (h : Sound s) {e : Entry} (habsent : id ∉ s.mSessions)
    (hwell : WellFormed e) (hkey : (s.entries id).key = none → e.key = none) :
    Sound (s.setEntry id e) where
  wellFormed := by
    intro id'
    rw [entries_setEntry]
    split
    · exact hwell
    · exact h.wellFormed id'
  present := by
    intro id' hid'
    rw [entries_setEntry, if_neg]
    · exact h.present id' hid'
    · rintro rfl
      exact habsent hid'
  unconstructed := by
    intro id' hid'
    rw [entries_setEntry]
    split
    · rename_i heq
      cases heq
      exact hkey (h.unconstructed _ hid')
    · exact h.unconstructed id' hid'

/-- A session that `destroySession` has removed changes. -/
theorem Inv.setDestroyed (h : Inv s) {e : Entry} (hdestroying : (s.entries id).destroying ≠ .no)
    (hwell : WellFormed e) (hkey : (s.entries id).key = none → e.key = none) :
    Inv (s.setEntry id e) := by
  have habsent : id ∉ s.mSessions := fun hmem => hdestroying (h.present id hmem).2.2.1
  refine ⟨h.toSound.setAbsent habsent hwell hkey, h.knows.setAbsent habsent ?_⟩
  intro test keys sessionsToAdd hloop hmem
  have hknows := h.knows
  rw [hloop] at hknows
  exact hdestroying (hknows.2.2 id hmem).2.2.1

theorem inv_addSession (h : Inv s) (hlock : s.isLocked = false) (mode : Mode) :
    Inv { s.setEntry s.mNextSessionID mode.entry with
      mSessions := s.mSessions ++ [s.mNextSessionID]
      mNextSessionID := s.mNextSessionID + 1 } := by
  have hsound := h.toSound.construct (wellFormed_entry mode)
  have hnew : (s.setEntry s.mNextSessionID mode.entry).entries s.mNextSessionID = mode.entry :=
    (entries_setEntry ..).trans (if_pos rfl)
  have hother : ∀ id, id < s.mNextSessionID →
      (s.setEntry s.mNextSessionID mode.entry).entries id = s.entries id := fun id hlt =>
    (entries_setEntry ..).trans (if_neg (Nat.ne_of_lt hlt))
  have hentry : mode.entry.isOpen = true ∧ mode.entry.destroying = .no ∧ mode.entry.key = none := by
    cases mode <;> exact ⟨rfl, rfl, rfl⟩
  refine ⟨⟨hsound.wellFormed, fun id hid => ?_, hsound.unconstructed⟩, ?_⟩
  · rcases List.mem_append.mp hid with hid | hid
    · exact hsound.present id hid
    · rw [List.mem_singleton.mp hid]
      refine ⟨Nat.lt_succ_self _, ?_⟩
      change ((s.setEntry _ _).entries _).isOpen = true ∧
        ((s.setEntry _ _).entries _).destroying = .no ∧
          ∀ key, ((s.setEntry _ _).entries _).key = some key → _
      rw [hnew]
      refine ⟨hentry.1, hentry.2.1, fun key hkey => ?_⟩
      rw [hentry.2.2] at hkey
      cases hkey
  · have hknows := h.knows
    change Knows _ s.loop
    cases hloop : s.loop with
    | updating => trivial
    | selecting =>
        rw [hloop] at hknows
        intro id hid key
        change ((s.setEntry _ _).entries id).key = some key → _ →
          Writable ((s.setEntry _ _).entries id).session
        rcases List.mem_append.mp hid with hid | hid
        · rw [hother id (h.present id hid).1]
          exact hknows id hid key
        · rw [List.mem_singleton.mp hid, hnew, hentry.2.2]
          nofun
    | selected keys =>
        rw [hloop] at hknows
        refine ⟨hknows.1, fun key hkey => ?_⟩
        obtain ⟨hlt, hserves⟩ := hknows.2 key hkey
        refine ⟨Nat.lt_succ_of_lt hlt, fun hmem => ?_⟩
        change Serves ((s.setEntry _ _).entries key.1) key.2
        rw [hother _ hlt]
        rcases List.mem_append.mp hmem with hmem | hmem
        · exact hserves hmem
        · exact absurd (List.mem_singleton.mp hmem) (Nat.ne_of_lt hlt)
    | handling test keys sessionsToAdd =>
        rw [State.isLocked, hloop] at hlock
        cases hlock

theorem inv_sendRequest (h : Inv s) {data : Data} {size err : ℤ} {timeUs : Option ℤ}
    {session : Session}
    (hsend : (s.entries id).session.sendRequest data size timeUs = .ok (session, err)) :
    Inv (s.setEntry id { s.entries id with session }) := by
  obtain ⟨hwell, hwritable⟩ := sendRequest_keeps (h.wellFormed id) hsend
  exact ⟨h.toSound.setSession hwell, h.knows.setSession hwritable⟩

theorem inv_switchToWebSocketMode (h : Inv s) :
    Inv (s.setEntry id { s.entries id with
      session := (s.entries id).session.switchToWebSocketMode.1 }) := by
  obtain ⟨hwell, hwritable⟩ := switchToWebSocketMode_keeps (h.wellFormed id)
  exact ⟨h.toSound.setSession hwell, h.knows.setSession hwritable⟩

theorem inv_destroySession (h : Inv s) (hlock : s.isLocked = false) :
    Inv { s.setEntry id { s.entries id with destroying := .removed } with
      mSessions := s.mSessions.filter (· != id) } := by
  have hmem : ∀ id' ∈ s.mSessions.filter (· != id), id' ∈ s.mSessions := fun id' hid' =>
    List.mem_of_mem_filter hid'
  have habsent : id ∉ s.mSessions.filter (· != id) := by simp
  have hwell := h.wellFormed id
  have hremoved : Inv { s with mSessions := s.mSessions.filter (· != id) } := by
    refine ⟨⟨h.wellFormed, fun id' hid' => h.present id' (hmem id' hid'), h.unconstructed⟩, ?_⟩
    have hknows := h.knows
    change Knows _ s.loop
    cases hloop : s.loop with
    | updating => trivial
    | selecting =>
        rw [hloop] at hknows
        exact fun id' hid' => hknows id' (hmem id' hid')
    | selected keys =>
        rw [hloop] at hknows
        exact ⟨hknows.1, fun key hkey => ⟨(hknows.2 key hkey).1, fun hid' =>
          (hknows.2 key hkey).2 (hmem _ hid')⟩⟩
    | handling test keys sessionsToAdd =>
        rw [State.isLocked, hloop] at hlock
        cases hlock
  have hsound := hremoved.toSound.setAbsent (e := { s.entries id with destroying := .removed })
    habsent ⟨hwell.server, hwell.datagram, hwell.inRange, hwell.drained, hwell.key⟩ fun hkey => hkey
  refine ⟨⟨hsound.wellFormed, hsound.present, hsound.unconstructed⟩, ?_⟩
  refine hremoved.knows.setAbsent habsent fun test keys sessionsToAdd hloop => ?_
  change s.loop = _ at hloop
  rw [State.isLocked, hloop] at hlock
  cases hlock

end

/-! ## Runs -/

theorem step_returns [CharData] {s : State} (h : Inv s) {i : Input} (hi : Undisturbed s i) :
    ∃ s' out, step s i = .ok (s', out) ∧ Inv s' ∧ ∀ event ∈ out, Present event := by
  have hsame : ∀ loop, Knows s loop → Inv { s with loop } := fun loop hknows =>
    ⟨⟨h.wellFormed, h.present, h.unconstructed⟩, hknows⟩
  have hknows := h.knows
  unfold step
  split
  · obtain ⟨s', hupdate, hinv⟩ := inv_updateSelectionKeys h.toSound
    rw [hupdate]
    exact ⟨_, _, rfl, hinv, by simp⟩
  · rename_i keys hloop
    split
    · exact ⟨_, _, rfl, hsame _ trivial, by simp⟩
    · split
      · rename_i hkeys
        exact ⟨_, _, rfl, hsame _ (knows_selected h hloop hkeys), by simp⟩
      · exact ⟨_, _, rfl, h, by simp⟩
  · exact ⟨_, _, rfl, hsame _ trivial, by simp⟩
  · rename_i keys hloop
    rw [hloop] at hknows
    have hpresent := hi keys hloop
    refine ⟨_, _, rfl, hsame _ ⟨hknows.1, fun key hkey => ?_, by simp⟩, by simp⟩
    exact ⟨hpresent key hkey, (hknows.2 key hkey).2 (hpresent key hkey)⟩
  · rename_i accepted id ready keys sessionsToAdd hloop
    rw [hloop] at hknows
    exact testAcceptable_returns h.toSound hknows (hi id ready keys sessionsToAdd hloop)
  · rename_i incoming id ready keys sessionsToAdd hloop
    rw [hloop] at hknows
    exact testReadable_returns h.toSound hknows (hi id ready keys sessionsToAdd hloop)
  · rename_i outgoing id ready keys sessionsToAdd hloop
    rw [hloop] at hknows
    exact testWritable_returns h.toSound hknows (hi id ready keys sessionsToAdd hloop)
  · rename_i sessionsToAdd hloop
    rw [hloop] at hknows
    refine ⟨_, _, rfl, ⟨⟨h.wellFormed, fun id hid => ?_, h.unconstructed⟩, trivial⟩, by simp⟩
    rcases List.mem_append.mp hid with hid | hid
    · exact h.present id hid
    · obtain ⟨hlt, hopen, hno, hnone⟩ := hknows.2.2 id hid
      refine ⟨hlt, hopen, hno, fun key hkey => ?_⟩
      exact nomatch hnone.symm.trans hkey
  · split
    · exact ⟨_, _, rfl, h, by simp⟩
    · rename_i hlock
      exact ⟨_, _, rfl, inv_addSession h (by simpa using hlock) _, by simp⟩
  · split
    · exact ⟨_, _, rfl, h, by simp⟩
    · split
      · exact ⟨_, _, rfl, h, by simp⟩
      · rename_i session err hsend
        exact ⟨_, _, rfl, inv_sendRequest h hsend, by simp⟩
  · split
    · exact ⟨_, _, rfl, h, by simp⟩
    · exact ⟨_, _, rfl, inv_switchToWebSocketMode h, by simp⟩
  · split
    · exact ⟨_, _, rfl, h, by simp⟩
    · rename_i hcond
      exact ⟨_, _, rfl, inv_destroySession h (by simpa using fun hlock => hcond (.inl hlock)),
        by simp⟩
  · rename_i id
    dsimp only
    split
    · rename_i hremoved
      have hwell := h.wellFormed id
      refine ⟨_, _, rfl, h.setDestroyed (by rw [hremoved]; nofun) ⟨hwell.server, hwell.datagram,
        hwell.inRange, hwell.drained, fun key hkey => ?_⟩ fun hnone => ?_, by simp⟩
      · obtain ⟨old, hold, rfl⟩ := Option.map_eq_some_iff.mp hkey
        exact hwell.key old hold
      · change Option.map _ (s.entries id).key = none
        rw [hnone]
        rfl
    · exact ⟨_, _, rfl, h, by simp⟩
  · rename_i id
    dsimp only
    split
    · rename_i hcancelled
      have hwell := h.wellFormed id
      exact ⟨_, _, rfl, h.setDestroyed (by rw [hcancelled]; nofun) ⟨hwell.server, hwell.datagram,
        hwell.inRange, hwell.drained, hwell.key⟩ fun hnone => hnone, by simp⟩
    · exact ⟨_, _, rfl, h, by simp⟩
  · exact ⟨_, _, rfl, h, by simp⟩

/-- In a run that is not disturbed no exception leaves `threadLoop`, and it reads from and
writes to sessions in `mSessions` only. -/
theorem survives [CharData] {is : List Input}
    (hmeets : Machine.Meets step (fun _ s i => Undisturbed s i) [] .initial is) :
    (∃ s, Machine.final step .initial is = .ok s) ∧
      ∀ event ∈ Machine.outputs step .initial is, Present event :=
  Machine.returns_of_meets Inv Present (fun _ _ _ h hi => step_returns h hi) inv_initial hmeets

/-- An RTSP server accepts a connection, and a binary message of one byte is read from it. -/
def acceptAndRead : List Input :=
  [.addSession .MODE_CREATE_RTSP_SERVER, .updateSelectionKeys,
    .select [(1, ⟨true, false, false⟩)], .lock, .testAcceptable .channel,
    .testReadable ⟨none, [], false⟩, .testWritable ⟨false, fun _ => none⟩, .unlock,
    .updateSelectionKeys, .select [(2, ⟨false, true, false⟩)], .lock, .testAcceptable .failed,
    .testReadable ⟨some [0x24, 0, 0, 1, 7], [], false⟩]

theorem survives_acceptAndRead :
    (∃ s, Machine.final (@step CharData.ascii) .initial acceptAndRead = .ok s) ∧
      ∀ event ∈ Machine.outputs (@step CharData.ascii) .initial acceptAndRead, Present event := by
  let _ := CharData.ascii
  refine survives ?_
  unfold acceptAndRead
  refine (Machine.meets_cons_of_ok rfl _).mpr ⟨trivial, ?_⟩
  refine (Machine.meets_cons_of_ok rfl _).mpr ⟨trivial, ?_⟩
  refine (Machine.meets_cons_of_ok rfl _).mpr ⟨trivial, ?_⟩
  refine (Machine.meets_cons_of_ok rfl _).mpr ⟨?_, ?_⟩
  · rintro keys ⟨⟩
    decide
  refine (Machine.meets_cons_of_ok rfl _).mpr ⟨fun _ _ _ _ _ _ => by decide, ?_⟩
  refine (Machine.meets_cons_of_ok rfl _).mpr ⟨?_, ?_⟩
  · rintro _ _ _ _ ⟨⟩ ⟨⟩
  refine (Machine.meets_cons_of_ok rfl _).mpr ⟨?_, ?_⟩
  · rintro _ _ _ _ ⟨⟩ ⟨⟩
  refine (Machine.meets_cons_of_ok rfl _).mpr ⟨trivial, ?_⟩
  refine (Machine.meets_cons_of_ok rfl _).mpr ⟨trivial, ?_⟩
  refine (Machine.meets_cons_of_ok rfl _).mpr ⟨trivial, ?_⟩
  refine (Machine.meets_cons_of_ok rfl _).mpr ⟨?_, ?_⟩
  · rintro keys ⟨⟩
    decide
  refine (Machine.meets_cons_of_ok rfl _).mpr ⟨fun _ _ _ _ _ _ => by decide, ?_⟩
  refine ⟨?_, fun _ _ _ => trivial⟩
  rintro _ _ _ _ ⟨⟩ - - _ ⟨⟩ k hk
  have hpos : k = 0 ∨ k = 5 := by
    induction hk with
    | start => exact .inl rfl
    | next _ hnext ih =>
        rcases ih with rfl | rfl
        · have hfirst : Net.advance .MODE_RTSP [0x24, 0, 0, 1, 7] = some 5 := by decide +kernel
          cases hfirst.symm.trans hnext
          exact .inr rfl
        · cases hnext
  rcases hpos with rfl | rfl
  · exact .inr (by decide)
  · rintro _ _ ⟨⟩

/-- A datagram arrives. -/
def arrival : Session.Incoming := ⟨none, [[1, 2]], false⟩

/-- A server is destroyed after a connection to it was selected. -/
def cancelledAfterSelect : List Input :=
  [.addSession .MODE_CREATE_RTSP_SERVER, .updateSelectionKeys,
    .select [(1, ⟨true, false, false⟩)], .destroySession 1, .cancel 1, .lock,
    .testAcceptable .channel]

/-- A session is removed after a datagram was selected; its key is not cancelled yet. -/
def removedAfterSelect : List Input :=
  [.addSession .MODE_CREATE_UDP_SESSION, .updateSelectionKeys, .select [(1, ⟨false, true, false⟩)],
    .destroySession 1, .lock, .testAcceptable .failed, .testReadable arrival]

/-- A connection that was selected is gone when it is accepted. -/
def nullAccepted : List Input :=
  [.addSession .MODE_CREATE_RTSP_SERVER, .updateSelectionKeys,
    .select [(1, ⟨true, false, false⟩)], .lock, .testAcceptable .null]

theorem does_not_survive :
    (¬ ∀ is, ∃ s, Machine.final (@step CharData.ascii) .initial is = .ok s) ∧
    (¬ ∀ is, ∀ event ∈ Machine.outputs (@step CharData.ascii) .initial is, Present event) ∧
    Machine.final (@step CharData.ascii) .initial nullAccepted =
      .error (.unchecked .nullPointer) := by
  refine ⟨fun h => ?_, fun h => ?_, rfl⟩
  · obtain ⟨s, hs⟩ := h cancelledAfterSelect
    have hthrown : Machine.final (@step CharData.ascii) .initial cancelledAfterSelect =
        .error .cancelledKey := rfl
    exact nomatch hthrown.symm.trans hs
  · have hread : Machine.outputs (@step CharData.ascii) .initial removedAfterSelect =
        [.readMore 1 false [.datagram [1, 2]]] := rfl
    have hpresent := h removedAfterSelect (.readMore 1 false [.datagram [1, 2]])
      (by rw [hread]; exact List.mem_singleton_self _)
    exact nomatch hpresent

end MirrorCast.Thread
