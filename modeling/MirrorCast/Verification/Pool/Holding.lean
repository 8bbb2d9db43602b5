import MirrorCast.Program.AMessage

/-! # Who has a message of the pool -/

namespace MirrorCast.Pool

open AMessage LinkedStack

variable {V : Type}

/-! ## What a call needs -/

/-- The message a call has for itself: popped from the pool and not acquired yet, or no
longer in use and not pushed yet. -/
def Possesses : Call → ℕ → Prop
  | .obtain (.unlink cur) _, m => m = cur
  | .obtain (.acquire cur) _, m => m = cur
  | .recycle k stage _, m => m = k ∧ stage ≠ .checkWaiting ∧ stage ≠ .checkInUse
  | _, _ => False

/-- The call is an `obtain` that has popped `m`. -/
def Takes : Call → ℕ → Prop
  | .obtain (.unlink cur) _, m => m = cur
  | .obtain (.acquire cur) _, m => m = cur
  | _, _ => False

/-- The call is a `recycle` of `m` that has not yet looked whether `m` is in use. -/
def MayRecycle : Call → ℕ → Prop
  | .recycle k stage _, m => m = k ∧ (stage = .checkWaiting ∨ stage = .checkInUse)
  | _, _ => False

/-- Nobody has `m`, or a thread waits for a response to it. -/
def Hold.Answerable (h : Hold) : Prop := h = .nobody ∨ ∃ t, h = .awaiter t

/-- A call of thread `t` is consistent with `h` having `m`. -/
def Fits (t : ℕ) : Call → ℕ → Hold → Prop
  | .copy _ dupMsg _, m, h => m = dupMsg → h = .dup t
  | .recycle k stage response, m, h =>
      (m = k → stage = .checkWaiting → Hold.Answerable h) ∧
        (m = k → stage = .checkInUse → h = .nobody) ∧ (response = some m → h = .answer t)
  | .await k .send, m, h => m = k → h = .sender t
  | .await k .take, m, h => m = k → h = .awaiter t
  | .await k (.unmark response), m, h =>
      (m = k → h = .awaiter t) ∧ (m = response → h = .answer t)
  | _, _, _ => True

/-- A message on its way to a handler, or being handled, is consistent with `h` having it. -/
def Sent (awaited : Bool) (h : Hold) : Prop :=
  if awaited then Hold.Answerable h else h = .nobody ∨ h = .receiver

/-- No `dispatchMessage` and no `recycle` under way will still recycle `m`. -/
def Unclaimed (s : State V) (m : ℕ) : Prop :=
  (∀ d ∈ s.mailbox, d.message ≠ m) ∧
    ∀ t, ¬ MayRecycle (s.call t) m ∧ ∀ awaited, s.dispatching t ≠ some (m, awaited)

/-! ## Changes of hold -/

/-- Thread `t` neither waits for a response nor is about to send or return the message. -/
def Foreign (t : ℕ) (h : Hold) : Prop :=
  h ≠ .nobody ∧ (∀ t', h ≠ .awaiter t') ∧ h ≠ .dup t ∧ h ≠ .sender t ∧ h ≠ .answer t

theorem Fits.of_foreign {t : ℕ} {c : Call} {m : ℕ} {h : Hold} (hfits : Fits t c m h)
    (hforeign : Foreign t h) (h' : Hold) : Fits t c m h' := by
  obtain ⟨hnobody, hawaiter, hdup, hsender, hanswer⟩ := hforeign
  have hnot : ¬ Hold.Answerable h := by
    rintro (h | ⟨t', h⟩)
    · exact hnobody h
    · exact hawaiter t' h
  cases c with
  | idle => trivial
  | obtain stage source => trivial
  | copy source dupMsg stage => exact fun hm => absurd (hfits hm) hdup
  | recycle k stage response =>
      exact ⟨fun hm hs => absurd (hfits.1 hm hs) hnot, fun hm hs => absurd (hfits.2.1 hm hs) hnobody,
        fun hr => absurd (hfits.2.2 hr) hanswer⟩
  | await k stage =>
      cases stage with
      | send => exact fun hm => absurd (hfits hm) hsender
      | take => exact fun hm => absurd (hfits hm) (hawaiter t)
      | unmark response =>
          exact ⟨fun hm => absurd (hfits.1 hm) (hawaiter t), fun hr => absurd (hfits.2 hr) hanswer⟩

/-- A message nobody has may be given to anyone if no call may still recycle it. -/
theorem Fits.of_nobody {t : ℕ} {c : Call} {m : ℕ} (hfits : Fits t c m .nobody)
    (hmay : ¬ MayRecycle c m) (h : Hold) : Fits t c m h := by
  cases c with
  | idle => trivial
  | obtain stage source => trivial
  | copy source dupMsg stage => exact fun hm => nomatch hfits hm
  | recycle k stage response =>
      exact ⟨fun hm hs => absurd ⟨hm, .inl hs⟩ hmay, fun hm hs => absurd ⟨hm, .inr hs⟩ hmay,
        fun hr => nomatch hfits.2.2 hr⟩
  | await k stage =>
      cases stage with
      | send => exact fun hm => nomatch hfits hm
      | take => exact fun hm => nomatch hfits hm
      | unmark response => exact ⟨fun hm => (nomatch hfits.1 hm), fun hr => (nomatch hfits.2 hr)⟩

/-- The end of the wait of thread `t`, for a call of another thread or a `recycle`. -/
theorem Fits.of_awaiter {t t' : ℕ} {c : Call} {m : ℕ} (hfits : Fits t' c m (.awaiter t))
    (hc : t' ≠ t ∨ ∃ stage response, c = .recycle m stage response) : Fits t' c m .nobody := by
  have hother : (∀ stage, c ≠ .await m stage) ∨ t' ≠ t := by
    rcases hc with hne | ⟨stage, response, rfl⟩
    · exact .inr hne
    · exact .inl fun _ => nofun
  cases c with
  | idle => trivial
  | obtain stage source => trivial
  | copy source dupMsg stage => exact fun hm => nomatch hfits hm
  | recycle k stage response =>
      exact ⟨fun _ _ => .inl rfl, fun _ _ => rfl, fun hr => nomatch hfits.2.2 hr⟩
  | await k stage =>
      have hwait : m = k → Hold.awaiter t = .awaiter t' → False := by
        rintro rfl heq
        rcases hother with h | h
        · exact h stage rfl
        · exact h (Hold.awaiter.inj heq).symm
      cases stage with
      | send => exact fun hm => nomatch hfits hm
      | take => exact fun hm => (hwait hm (hfits hm)).elim
      | unmark response =>
          exact ⟨fun hm => (hwait hm (hfits.1 hm)).elim, fun hr => nomatch hfits.2 hr⟩

theorem Sent.of_foreign {awaited : Bool} {t : ℕ} {h : Hold} (hsent : Sent awaited h)
    (hforeign : Foreign t h) (hreceiver : h ≠ .receiver) (h' : Hold) : Sent awaited h' := by
  obtain ⟨hnobody, hawaiter, -⟩ := hforeign
  unfold Sent at hsent
  split at hsent
  · rcases hsent with hsent | ⟨t', hsent⟩
    · exact absurd hsent hnobody
    · exact absurd hsent (hawaiter t')
  · rcases hsent with hsent | hsent
    · exact absurd hsent hnobody
    · exact absurd hsent hreceiver

theorem sent_nobody (awaited : Bool) : Sent awaited .nobody := by
  cases awaited
  · exact .inl rfl
  · exact .inl rfl

end MirrorCast.Pool
