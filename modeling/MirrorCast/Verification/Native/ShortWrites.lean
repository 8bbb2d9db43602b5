import MirrorCast.Program.Native.MediaClient

/-! # When the TCP stream stays a sequence of whole messages -/

namespace MirrorCast.Native

open Native.MediaClient MediaCodec Machine

/-- No failure was reported, or the socket has got exactly the given bytes. -/
def Holds (s : Sender) (bytes : List UInt8) : Prop := s.reported = false → s.socket = bytes

/-- As long as no failure is reported, the socket has got all messages, whole and in order. -/
def WholeMessages (s : Sender) (calls : List Call) : Prop :=
  ∀ k, Holds (sendAll s (calls.take k)) (s.socket ++ (calls.take k).flatMap Call.data)

/-- A `write`, if the message gets that far, fails or takes the whole message. -/
def NotShort (s : Sender) (c : Call) : Prop :=
  s.isRecording = true → s.server_sock_fd ≠ -1 → c.written = -1 ∨ c.written = c.data.length

/-- Every `write` of the run fails or takes its whole message. -/
def NoShortWrite (s : Sender) (calls : List Call) : Prop :=
  Meets sendStep (fun _ s c => NotShort s c) [] s calls

/-! ## One call -/

section Call

variable {s : Sender} {c : Call}

theorem sendData_stopped (h : s.isRecording = false) : sendData s c = s := by
  simp [sendData, h]

/-- A call that fails is reported and ends the recording. -/
theorem sendData_fails (h : s.isRecording = true) (hfails : s.server_sock_fd = -1 ∨ c.written = -1) :
    (sendData s c).isRecording = false ∧ (sendData s c).reported = true := by
  have hlength : (send_data s c).1 ≤ 0 := by
    unfold send_data
    split
    · rcases hfails with hfd | hwritten
      · contradiction
      · exact le_of_eq_of_le hwritten (by decide)
    · exact (by decide : (-1 : ℤ) ≤ 0)
  rw [sendData, if_pos h]
  dsimp only
  rw [if_pos hlength]
  exact ⟨rfl, rfl⟩

/-- Any other call leaves the sender as it is, except for what the socket takes. -/
theorem sendData_writes (h : s.isRecording = true) (hfd : s.server_sock_fd ≠ -1)
    (hwritten : c.written ≠ -1) :
    sendData s c = { s with socket := s.socket ++ c.data.take c.written.toNat } := by
  have hpos : ¬ c.written ≤ 0 := by
    have := c.allowed
    omega
  rw [sendData, if_pos h, send_data, if_pos hfd]
  dsimp only
  rw [if_neg hpos]

end Call

/-! ## Runs -/

theorem sendAll_stopped {s : Sender} (h : s.isRecording = false) (calls : List Call) :
    sendAll s calls = s := by
  induction calls with
  | nil => rfl
  | cons c calls ih => rw [sendAll, List.foldl_cons, sendData_stopped h]; exact ih

theorem noShortWrite_stopped {s : Sender} (h : s.isRecording = false) (past calls : List Call) :
    Meets sendStep (fun _ s c => NotShort s c) past s calls := by
  induction calls generalizing past with
  | nil => trivial
  | cons c calls ih =>
      rw [meets_cons_of_ok rfl, sendData_stopped h]
      refine ⟨fun hrecording => ?_, ih (c :: past)⟩
      rw [h] at hrecording
      cases hrecording

theorem wholeMessages_cons {s : Sender} {c : Call} {calls : List Call} :
    WholeMessages s (c :: calls) ↔
      ∀ k, Holds (sendAll (sendData s c) (calls.take k))
        (s.socket ++ c.data ++ (calls.take k).flatMap Call.data) := by
  constructor
  · intro h k
    have hk := h (k + 1)
    rwa [List.take_succ_cons, List.flatMap_cons, ← List.append_assoc] at hk
  · intro h k
    cases k with
    | zero => simp [Holds, sendAll]
    | succ k =>
        rw [List.take_succ_cons, List.flatMap_cons, ← List.append_assoc]
        exact h k

/-- The stream consists of whole messages as long as no failure is reported, if and only if no
`write` before the first failure is a short one. -/
theorem wholeMessages_iff (s : Sender) (calls : List Call) (hrecording : s.isRecording = true)
    (hreported : s.reported = false) : WholeMessages s calls ↔ NoShortWrite s calls := by
  unfold NoShortWrite
  generalize ([] : List Call) = past
  induction calls generalizing s past with
  | nil => simp [WholeMessages, Holds, sendAll, Meets]
  | cons c calls ih =>
      rw [wholeMessages_cons, meets_cons_of_ok rfl]
      by_cases hfails : s.server_sock_fd = -1 ∨ c.written = -1
      · obtain ⟨hstopped, hfailed⟩ := sendData_fails hrecording hfails
        refine ⟨fun _ => ⟨?_, noShortWrite_stopped hstopped _ _⟩, fun _ k hk => ?_⟩
        · intro _ hfd
          exact .inl (hfails.resolve_left hfd)
        · rw [sendAll_stopped hstopped, hfailed] at hk
          cases hk
      · obtain ⟨hfd, hwritten⟩ := not_or.mp hfails
        have hstep := sendData_writes hrecording hfd hwritten
        have hallowed := c.allowed.resolve_left hwritten
        by_cases hwhole : c.written = c.data.length
        · -- the message goes out whole, and the rest is the run from there
          rw [hwhole, Int.toNat_natCast, List.take_length] at hstep
          have hrest := ih (sendData s c) (by rw [hstep]; exact hrecording)
            (by rw [hstep]; exact hreported) (c :: past)
          rw [← hrest, hstep]
          exact ⟨fun h => ⟨fun _ _ => .inr hwhole, h⟩, fun h => h.2⟩
        · refine ⟨fun h => ?_, fun h => ?_⟩
          · -- what went out before the next call is too short
            have hshort := h 0
            rw [hstep] at hshort
            have hlength := congrArg List.length (hshort hreported)
            simp only [List.take_zero, sendAll, List.foldl_nil, List.flatMap_nil, List.append_nil,
              List.length_append, List.length_take] at hlength
            omega
          · rcases h.1 hrecording hfd with herror | hlength
            · exact absurd herror hwritten
            · exact absurd hlength hwhole

/-- A connected sender at the start of a recording. -/
def recording : Sender where
  server_sock_fd := 3
  isRecording := true
  isPlaying1 := true
  isPlaying2 := false
  socket := []
  reported := false

/-- An orientation message of which `n` bytes are taken. -/
def orientationCall (n : ℕ) (h : 1 ≤ n ∧ n ≤ 5) : Call where
  data := [1, 0, 0, 0, 255]
  written := n
  allowed := .inr ⟨by omega, by simp; omega⟩

/-- An orientation message whose `write` fails. -/
def failingCall : Call where
  data := [1, 0, 0, 0, 254]
  written := -1
  allowed := .inl rfl

instance (s : Sender) (c : Call) : Decidable (NotShort s c) :=
  inferInstanceAs (Decidable (_ → _ → _ ∨ _))

instance (s : Sender) (calls : List Call) : Decidable (NoShortWrite s calls) :=
  inferInstanceAs (Decidable (Meets sendStep _ [] s calls))

/-- The stream stays one of whole messages up to a failing `write`, but not over a short one. -/
theorem wholeMessages_iff_failing :
    WholeMessages recording
        [orientationCall 5 (by decide), orientationCall 5 (by decide), failingCall] ∧
      ¬ WholeMessages recording [orientationCall 5 (by decide), orientationCall 3 (by decide),
        orientationCall 5 (by decide)] :=
  ⟨(wholeMessages_iff recording _ rfl rfl).mpr (by decide),
    (wholeMessages_iff recording _ rfl rfl).not.mpr (by decide)⟩

/-- After a short write the socket has got no sequence of whole messages, and nothing is
reported. -/
theorem short_write_unnoticed :
    ¬ ∀ (s : Sender) (calls : List Call), s.isRecording = true → s.reported = false →
      s.socket = [] → (sendAll s calls).reported = false →
        ∃ messages : List (List UInt8), messages.Sublist (calls.map Call.data) ∧
          (sendAll s calls).socket = messages.flatten := by
  intro h
  obtain ⟨messages, hsub, hsocket⟩ := h recording [orientationCall 3 (by decide)] rfl rfl rfl rfl
  have hlength := congrArg List.length hsocket
  rw [List.map_cons, List.map_nil, List.sublist_singleton] at hsub
  rcases hsub with rfl | rfl
  · exact absurd hlength (by decide)
  · exact absurd hlength (by decide)

end MirrorCast.Native
