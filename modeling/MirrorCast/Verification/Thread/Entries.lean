import MirrorCast.Program.NetworkThread
import MirrorCast.Verification.Net.Exceptions
import MirrorCast.Verification.Net.Sending

/-! # Sessions of the network thread, one at a time -/

namespace MirrorCast.Thread

open Java ANetworkSession NetworkThread

/-! ## Sessions -/

/-- What the code relies on in a session and its channel. -/
structure WellFormed (e : Entry) : Prop where
  server : e.session.isServer = e.isServerSocketChannel
  datagram : e.session.mState = .DATAGRAM → e.session.mMode = .MODE_DATAGRAM
  inRange : ∀ frag ∈ e.session.mOutFragments, Net.InRange frag
  drained : Net.Drained e.session.mInBuffer
  key : ∀ key, e.key = some key → (key.interestOps.accept → e.isServerSocketChannel = true) ∧
    (key.interestOps.read ∨ key.interestOps.write → e.isServerSocketChannel = false)

/-- The session has something to write, or waits for its connection. -/
def Writable (s : Session) : Prop :=
  s.mState = .CONNECTING ∨ ((s.mState = .CONNECTED ∨ s.mState = .DATAGRAM) ∧ s.mOutFragments ≠ [])

/-- The session is of the kind that a key with these operations belongs to. -/
structure Serves (e : Entry) (ready : Ops) : Prop where
  registered : e.key.isSome
  accept : ready.accept → e.isServerSocketChannel = true
  read : ready.read → e.isServerSocketChannel = false
  write : ready.write → e.isServerSocketChannel = false ∧ Writable e.session

/-- A read of the channel, of 512 bytes at most, gives nothing that the parser of the session
throws on. -/
def ReadsHarmless [CharData] (s : Session) (incoming : Session.Incoming) : Prop :=
  s.mState ≠ .DATAGRAM → ∀ bytes, incoming.read = some bytes →
    Net.AllHarmless s.mMode (bytes.take 512)

theorem writable_of_wantsToWrite {s : Session} (h : s.wantsToWrite = true) : Writable s := by
  simp only [Session.wantsToWrite, Bool.and_eq_true, Bool.or_eq_true, beq_iff_eq, bne_iff_ne,
    ne_eq] at h
  obtain ⟨-, (h | h) | h⟩ := h
  · exact .inl h
  · exact .inr ⟨.inl h.1, h.2⟩
  · exact .inr ⟨.inr h.1, h.2⟩

theorem isServer_of_writable {s : Session} (h : Writable s) : s.isServer = false := by
  rcases h with h | ⟨h | h, -⟩ <;> simp [Session.isServer, h]

theorem wellFormed_new (mState : Session.State) (mMode : Session.Mode) (isServer : Bool)
    (hserver : (Session.new mState mMode).isServer = isServer)
    (hdatagram : mState = .DATAGRAM → mMode = .MODE_DATAGRAM) :
    WellFormed (.new (.new mState mMode) isServer) :=
  ⟨hserver, hdatagram, by simp [Entry.new, Session.new], Net.drained_new, by simp [Entry.new]⟩

theorem wellFormed_entry (mode : Mode) : WellFormed mode.entry := by
  cases mode <;> exact wellFormed_new _ _ _ rfl (by simp)

theorem wellFormed_clientSession (server : Session) :
    WellFormed (.new (clientSession server) false) :=
  wellFormed_new _ _ _ rfl (by simp)

/-- The session of an entry changes; its kind and what it has to send stay in order. -/
theorem WellFormed.setSession {e : Entry} (h : WellFormed e) {s : Session}
    (hserver : s.isServer = e.session.isServer)
    (hdatagram : s.mState = .DATAGRAM → s.mMode = .MODE_DATAGRAM)
    (hinRange : ∀ frag ∈ s.mOutFragments, Net.InRange frag) (hdrained : Net.Drained s.mInBuffer) :
    WellFormed { e with session := s } :=
  ⟨hserver.trans h.server, hdatagram, hinRange, hdrained, h.key⟩

theorem WellFormed.setKey {e : Entry} (h : WellFormed e) :
    WellFormed { e with key := some ⟨e.ops, false⟩ } := by
  refine ⟨h.server, h.datagram, h.inRange, h.drained, ?_⟩
  rintro _ ⟨⟩
  simp only [Entry.ops, Bool.and_eq_true, Bool.not_eq_true']
  refine ⟨fun haccept => haccept.2, ?_⟩
  rintro (hread | hwrite)
  · exact hread.2
  · rw [← h.server]
    exact isServer_of_writable (writable_of_wantsToWrite hwrite)

/-! ## `readMore` -/

theorem readMore_keeps [CharData] (s : Session) (read : Option (List UInt8)) :
    (s.readMore read).1.mState = s.mState ∧ (s.readMore read).1.mMode = s.mMode ∧
      (s.readMore read).1.mOutFragments = s.mOutFragments := by
  unfold Session.readMore
  split
  · exact ⟨rfl, rfl, rfl⟩
  · dsimp only
    split
    · exact ⟨rfl, rfl, rfl⟩
    · split <;> exact ⟨rfl, rfl, rfl⟩

theorem receiveMore_keeps (s : Session) (incoming : Session.Incoming) :
    (s.receiveMore incoming).1.mState = s.mState ∧ (s.receiveMore incoming).1.mMode = s.mMode ∧
      (s.receiveMore incoming).1.mOutFragments = s.mOutFragments := by
  unfold Session.receiveMore
  split
  · exact ⟨rfl, rfl, rfl⟩
  · dsimp only
    split
    · split <;> exact ⟨rfl, rfl, rfl⟩
    · exact ⟨rfl, rfl, rfl⟩

theorem readMoreFrom_keeps [CharData] (s : Session) (incoming : Session.Incoming) :
    (s.readMoreFrom incoming).1.mState = s.mState ∧ (s.readMoreFrom incoming).1.mMode = s.mMode ∧
      (s.readMoreFrom incoming).1.mOutFragments = s.mOutFragments := by
  unfold Session.readMoreFrom
  split
  · exact receiveMore_keeps s incoming
  · exact readMore_keeps s incoming.read

theorem receiveMore_mInBuffer (s : Session) (incoming : Session.Incoming) :
    (s.receiveMore incoming).1.mInBuffer = s.mInBuffer := by
  unfold Session.receiveMore
  split
  · rfl
  · dsimp only
    split
    · split <;> rfl
    · rfl

theorem readMoreFrom_drained [CharData] {s : Session} (h : Net.Drained s.mInBuffer)
    (incoming : Session.Incoming) : Net.Drained (s.readMoreFrom incoming).1.mInBuffer := by
  unfold Session.readMoreFrom
  split
  · rw [receiveMore_mInBuffer]
    exact h
  · exact (Net.readMore_returns_iff h incoming.read).1

/-- Reading returns if the bytes are harmless. -/
theorem readMoreFrom_returns [CharData] {s : Session} {incoming : Session.Incoming}
    (hdatagram : s.mState = .DATAGRAM → s.mMode = .MODE_DATAGRAM)
    (hdrained : Net.Drained s.mInBuffer) (hharmless : ReadsHarmless s incoming) :
    ∃ err, (s.readMoreFrom incoming).2.2 = .ok err := by
  unfold Session.readMoreFrom
  split
  · rename_i hstate
    unfold Session.receiveMore
    rw [if_neg (not_not_intro (hdatagram hstate))]
    dsimp only
    split
    · split <;> exact ⟨_, rfl⟩
    · exact ⟨_, rfl⟩
  · rename_i hstate
    refine (Net.readMore_returns_iff hdrained incoming.read).2.mpr ?_
    cases hread : incoming.read with
    | none => exact Net.allHarmless_nil s.mMode
    | some bytes => exact hharmless hstate bytes hread

/-! ## `writeMore` and `sendRequest` -/

theorem mem_of_mem_sendLoop {frags : List Fragment} {outcomes : ℕ → Option ℕ} {frag : Fragment}
    (h : frag ∈ (Session.sendLoop frags outcomes).1) : frag ∈ frags := by
  induction frags generalizing outcomes with
  | nil => exact h
  | cons head frags ih =>
      rw [Session.sendLoop] at h
      split at h
      · exact h
      · dsimp only at h
        split at h
        · exact h
        · exact List.mem_cons_of_mem _ (ih h)

/-- What can be written is written, without an exception. -/
theorem writeMoreTo_returns {e : Entry} (h : WellFormed e) (hwritable : Writable e.session)
    {outgoing : Session.Outgoing}
    (hconnected : e.session.mState = .DATAGRAM → outgoing.isConnected = true) :
    ∃ w, e.session.writeMoreTo outgoing = .ok w ∧ WellFormed { e with session := w.session } := by
  obtain ⟨s, isServerSocketChannel, isOpen, key, destroying⟩ := e
  dsimp only at h hwritable hconnected ⊢
  have hset := fun (s' : Session) => h.setSession (s := s')
  rw [Session.writeMoreTo, if_neg (by
    rintro ⟨hstate, -, hnot⟩
    rw [hconnected hstate] at hnot
    cases hnot), Session.writeMore]
  split
  · rename_i hstate
    have hne : s.mOutFragments ≠ [] := by
      rcases hwritable with hconnecting | ⟨-, hne⟩
      · rw [hstate] at hconnecting
        cases hconnecting
      · exact hne
    have hrange : ∀ frag ∈ (Session.sendLoop s.mOutFragments outgoing.outcomes).1,
        Net.InRange frag := fun frag hfrag => h.inRange frag (mem_of_mem_sendLoop hfrag)
    rw [Session.sendDatagrams, if_neg hne]
    dsimp only
    generalize (if (Session.sendLoop s.mOutFragments outgoing.outcomes).2.2 = -EAGAIN then OK
      else (Session.sendLoop s.mOutFragments outgoing.outcomes).2.2) = err
    split
    · split
      · refine ⟨_, rfl, ?_⟩
        exact hset _ rfl h.datagram hrange h.drained
      · refine ⟨_, rfl, ?_⟩
        exact hset _ rfl h.datagram hrange h.drained
    · refine ⟨_, rfl, ?_⟩
      exact hset _ rfl h.datagram hrange h.drained
  · rename_i hdatagram
    split
    · rename_i hstate
      split
      · exact ⟨_, rfl, hset _ rfl h.datagram h.inRange h.drained⟩
      · refine ⟨_, rfl, hset _ ?_ nofun h.inRange h.drained⟩
        simp [Session.isServer, hstate]
    · rename_i hconnecting
      rcases hwritable with hstate | ⟨hstate | hstate, hne⟩
      · exact absurd hstate hconnecting
      · rw [if_neg (by simp [hstate, hne])]
        obtain ⟨frags, written, last, hloop, hrange, -⟩ :=
          Net.writeLoop_spec (-1) s.mOutFragments outgoing.outcomes h.inRange
        rw [hloop, ok_bind]
        dsimp only
        generalize (if last < 0 then - ANetworkSession.EIO else if last = 0 then -EAGAIN
          else OK) = err
        split
        · refine ⟨_, rfl, ?_⟩
          exact hset _ rfl h.datagram hrange h.drained
        · refine ⟨_, rfl, ?_⟩
          exact hset _ rfl h.datagram hrange h.drained
      · exact absurd hstate hdatagram

/-- A request only adds a fragment. -/
theorem sendRequest_keeps {e : Entry} (h : WellFormed e) {data : Data} {size err : ℤ}
    {timeUs : Option ℤ} {s : Session}
    (hsend : e.session.sendRequest data size timeUs = .ok (s, err)) :
    WellFormed { e with session := s } ∧ (Writable e.session → Writable s) := by
  have hstate : e.session.mState = .CONNECTED ∨ e.session.mState = .DATAGRAM := by
    unfold Session.sendRequest at hsend
    split at hsend
    · cases hsend
    · tauto
  rcases Net.sendRequest_cases hsend with ⟨-, rfl⟩ | ⟨hne, buffer, k, hbuffer, hk, rfl⟩
  · exact ⟨h, id⟩
  · have hbuffer_ne : buffer ≠ [] := by
      rcases hstate with hstate | hstate
      · rw [Net.framed_connected hstate hbuffer, hk]
        exact Net.wire_ne_nil hne
      · rw [Net.framed_datagram hstate hbuffer, hk]
        exact hne
    refine ⟨h.setSession rfl h.datagram ?_ h.drained, fun _ => .inr ⟨hstate, by simp⟩⟩
    intro frag hfrag
    rcases List.mem_append.mp hfrag with hfrag | hfrag
    · exact h.inRange frag hfrag
    · rw [List.mem_singleton.mp hfrag]
      exact Net.inRange_ofBytes hbuffer_ne timeUs

/-- Another mode changes neither what there is to send nor the kind of the session. -/
theorem switchToWebSocketMode_keeps {e : Entry} (h : WellFormed e) :
    WellFormed { e with session := e.session.switchToWebSocketMode.1 } ∧
      (Writable e.session → Writable e.session.switchToWebSocketMode.1) := by
  unfold Session.switchToWebSocketMode
  split
  · exact ⟨h, id⟩
  · rename_i hmode
    refine ⟨h.setSession rfl (fun hstate => ?_) h.inRange h.drained, id⟩
    change e.session.mState = .DATAGRAM at hstate
    rw [hstate] at hmode
    exact absurd (.inl (by decide)) hmode

end MirrorCast.Thread
