import MirrorCast.Verification.Udp.Assembly

/-! # What one datagram can do -/

namespace MirrorCast.Udp

open Java Pieces MediaClient MediaServer

/-- The loop appends fragment `g` to its open buffer. -/
structure Appends (s : LoopState) (g : Fragment) : Prop where
  accepts : Accepts s g.frame
  not_whole : ¬ g.Whole
  not_first : g.counter % 2 ^ 16 ≠ 1
  same_length : s.tempLength = g.frame.data.length
  numbered : g.frame.isKey = true → int32 (s.count + 1) = ((g.counter % 2 ^ 16 : ℕ) : ℤ)

/-- A continuation of a key frame whose number is not the one counted. -/
structure Refuses (s : LoopState) (g : Fragment) : Prop where
  not_whole : ¬ g.Whole
  not_first : g.counter % 2 ^ 16 ≠ 1
  same_length : s.tempLength = g.frame.data.length
  isKey : g.frame.isKey = true
  misnumbered : int32 (s.count + 1) ≠ ((g.counter % 2 ^ 16 : ℕ) : ℤ)

/-- A continuation for which no buffer of its length is open. -/
structure Mismatches (s : LoopState) (g : Fragment) : Prop where
  not_whole : ¬ g.Whole
  not_first : g.counter % 2 ^ 16 ≠ 1
  other_length : s.tempLength ≠ g.frame.data.length

/-- The report of a damaged key frame. -/
def complaint (s : LoopState) (g : Fragment) : List LoopEvent :=
  [.sendData s.tempLength 1 (orientation g.frame.isPortrait)]

/-- The outcomes of one datagram. -/
inductive Outcome (s : LoopState) (g : Fragment) : LoopState → List LoopEvent → Prop where
  | skipped (h : ¬ Accepts s g.frame) : Outcome s g s []
  | whole (h : Accepts s g.frame) (hw : g.Whole) : Outcome s g (complete g.frame) (arrived g.frame)
  | opened (h : Accepts s g.frame) (hw : ¬ g.Whole) (hfirst : g.counter % 2 ^ 16 = 1) :
      Outcome s g (opened g) []
  | appended {s' : LoopState} {out : List LoopEvent} (h : Appends s g)
      (hnext : nextFragment (cleared s) g.datagram = .ok (s', out)) : Outcome s g s' out
  | refused (h : Refuses s g) :
      Outcome s g { cleared s with count := int32 (s.count + 1) } (complaint s g)
  | reported (h : Mismatches s g) (hkey : g.frame.isKey = true) :
      Outcome s g (cleared s) (complaint s g)
  | damaged (h : Mismatches s g) (hopen : s.needToAbandon = false)
      (hkey : g.frame.isKey = false) :
      Outcome s g { s with needToAbandon := true } [.drainFrame]

theorem receive_outcome {s s' : LoopState} {g : Fragment} {out : List LoopEvent}
    (h : receive s g = .ok (s', out)) : Outcome s g s' out := by
  by_cases haccepts : Accepts s g.frame
  swap
  · rw [receive_abandoned haccepts] at h
    cases h
    exact .skipped haccepts
  by_cases hw : g.Whole
  · rw [receive_whole haccepts hw] at h
    cases h
    exact .whole haccepts hw
  by_cases hfirst : g.counter % 2 ^ 16 = 1
  · rw [receive_first haccepts hw hfirst] at h
    split at h
    · cases h
      exact .opened haccepts hw hfirst
    · cases h
  by_cases hlength : s.tempLength = g.frame.data.length
  · rw [receive_next haccepts hw hfirst hlength] at h
    by_cases hnumbered : g.frame.isKey = true →
        int32 (s.count + 1) = ((g.counter % 2 ^ 16 : ℕ) : ℤ)
    · exact .appended ⟨haccepts, hw, hfirst, hlength, hnumbered⟩ h
    · push Not at hnumbered
      obtain ⟨hkey, hne⟩ := hnumbered
      rw [nextFragment, if_pos] at h
      · cases h
        exact .refused ⟨hw, hfirst, hlength, hkey, hne⟩
      · rw [bytesToInt2_datagram]
        exact ⟨hne, hkey⟩
  · have hmismatch : Mismatches s g := ⟨hw, hfirst, hlength⟩
    rw [receive_of_accepts haccepts, if_neg hw, if_neg hfirst,
      if_neg (fun hboth => hlength hboth.2)] at h
    by_cases hkey : g.frame.isKey = true
    · rw [if_pos hkey] at h
      cases h
      exact .reported hmismatch hkey
    · rw [if_neg hkey] at h
      cases h
      exact .damaged hmismatch (haccepts.resolve_right hkey) (by simpa using hkey)

theorem needToAbandon_nextFragment {s s' : LoopState} {data : List UInt8} {out : List LoopEvent}
    (h : nextFragment s data = .ok (s', out)) : s'.needToAbandon = s.needToAbandon := by
  unfold nextFragment at h
  dsimp only at h
  split at h
  · cases h
    rfl
  · split at h
    all_goals
      obtain ⟨tempData, -, hrest⟩ := bind_eq_ok.mp h
      cases hrest
      rfl

/-- A datagram of a key frame leaves the flag down. -/
theorem needToAbandon_of_key {s s' : LoopState} {g : Fragment} {out : List LoopEvent}
    (h : Outcome s g s' out) (hkey : g.frame.isKey = true) : s'.needToAbandon = false := by
  cases h with
  | skipped haccepts => exact absurd (Or.inr hkey) haccepts
  | whole haccepts hw => rfl
  | opened haccepts hw hfirst => rfl
  | appended happends hnext => exact needToAbandon_nextFragment hnext
  | refused hrefuses => rfl
  | reported hmismatch _ => rfl
  | damaged hmismatch hopen hnot =>
      rw [hkey] at hnot
      cases hnot

/-- A datagram of a non-key frame never takes the flag down. -/
theorem needToAbandon_of_not_key {s s' : LoopState} {g : Fragment} {out : List LoopEvent}
    (h : Outcome s g s' out) (hkey : g.frame.isKey = false) (hflag : s.needToAbandon = true) :
    s'.needToAbandon = true := by
  have hskip : ¬ Accepts s g.frame := by simp [Accepts, hkey, hflag]
  cases h with
  | skipped _ => exact hflag
  | whole haccepts hw => exact absurd haccepts hskip
  | opened haccepts hw hfirst => exact absurd haccepts hskip
  | appended happends hnext => exact absurd happends.accepts hskip
  | refused hrefuses => simp [hrefuses.isKey] at hkey
  | reported hmismatch hyes => simp [hyes] at hkey
  | damaged hmismatch hopen _ => rfl

/-- A non-key frame is handed over only with the flag down and its length expected. -/
theorem open_of_putData {s s' : LoopState} {g : Fragment} {out : List LoopEvent}
    (h : Outcome s g s' out) (hkey : g.frame.isKey = false) {d : List UInt8}
    (hd : .putData d ∈ out) : s.needToAbandon = false ∧ ¬ Mismatches s g := by
  have hopen : Accepts s g.frame → s.needToAbandon = false :=
    fun h => h.resolve_right (by simp [hkey])
  cases h with
  | skipped _ => simp at hd
  | whole haccepts hw => exact ⟨hopen haccepts, fun hmismatch => hmismatch.not_whole hw⟩
  | opened haccepts hw hfirst => simp at hd
  | appended happends hnext =>
      exact ⟨hopen happends.accepts, fun hmismatch => hmismatch.other_length happends.same_length⟩
  | refused hrefuses => simp [hrefuses.isKey] at hkey
  | reported hmismatch hyes => simp [hyes] at hkey
  | damaged hmismatch _ _ => simp at hd

end MirrorCast.Udp
