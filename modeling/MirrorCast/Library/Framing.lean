import Mathlib.Algebra.BigOperators.Group.List.Basic
import Mathlib.Algebra.Ring.Nat
import Mathlib.Data.List.Basic

/-! # Framing: taking messages off a byte stream

A reader takes messages off the front of a buffer until it meets an incomplete one.
A receiver is given a stream in pieces and should post what the reader takes off the whole
stream, no matter where the stream is cut; the rules below say when a receiver does that which
forgets the rest of every piece. -/

namespace Framing

variable {β ω ε μ σ : Type*}

/-- One turn of a reading loop: leave it, by a break or an exception, or take `n` elements. -/
inductive Turn (ω ε : Type*) where
  | stop (posted : List ω) (thrown : Option ε)
  | took (o : ω) (n : ℕ)
  deriving DecidableEq, Repr

structure Reader (β ω ε : Type*) where
  turn : List β → Turn ω ε
  bounds : ∀ {data o n}, turn data = .took o n → 0 < n ∧ n ≤ data.length

namespace Reader

/-- What the loop posts, and the exception that ended it. -/
def all (r : Reader β ω ε) (data : List β) : List ω × Option ε :=
  match _h : r.turn data with
  | .stop posted thrown => (posted, thrown)
  | .took o n => (o :: (r.all (data.drop n)).1, (r.all (data.drop n)).2)
termination_by data.length
decreasing_by all_goals
  have := r.bounds _h
  rw [List.length_drop]
  omega

theorem all_of_stop {r : Reader β ω ε} {data : List β} {posted : List ω} {thrown : Option ε}
    (h : r.turn data = .stop posted thrown) : r.all data = (posted, thrown) := by
  rw [all]
  split
  · rename_i h'
    rw [h] at h'
    cases h'
    rfl
  · rename_i h'
    rw [h] at h'
    cases h'

theorem all_of_took {r : Reader β ω ε} {data : List β} {o : ω} {n : ℕ}
    (h : r.turn data = .took o n) :
    r.all data = (o :: (r.all (data.drop n)).1, (r.all (data.drop n)).2) := by
  rw [all]
  split
  · rename_i h'
    rw [h] at h'
    cases h'
  · rename_i h'
    rw [h] at h'
    cases h'
    rfl

/-- The positions that the loop comes to. -/
inductive Visits (r : Reader β ω ε) (data : List β) : ℕ → Prop
  | start : Visits r data 0
  | took {k n : ℕ} {o : ω} : Visits r data k → r.turn (data.drop k) = .took o n →
      Visits r data (k + n)

/-- The positions that sizes of messages lead to. -/
inductive Boundary (size : List β → Option ℕ) (data : List β) : ℕ → Prop
  | start : Boundary size data 0
  | next {k n : ℕ} : Boundary size data k → size (data.drop k) = some n →
      Boundary size data (k + n)

theorem Visits.of_drop {r : Reader β ω ε} {data : List β} {o : ω} {k n : ℕ}
    (hturn : r.turn data = .took o n) (h : r.Visits (data.drop n) k) :
    r.Visits data (n + k) := by
  induction h with
  | start =>
      have hfirst := Visits.took (@Visits.start _ _ _ r data) (by rwa [List.drop_zero])
      rwa [Nat.zero_add] at hfirst
  | took _ hnext ih =>
      rw [List.drop_drop] at hnext
      rw [← Nat.add_assoc]
      exact .took ih hnext

/-- The loop ends without an exception if none of its turns throws. -/
theorem all_returns {r : Reader β ω ε} {data : List β}
    (h : ∀ k, r.Visits data k → ∀ posted e, r.turn (data.drop k) ≠ .stop posted (some e)) :
    (r.all data).2 = none := by
  induction data using all.induct r with
  | case1 data posted thrown hturn =>
      rw [all_of_stop hturn]
      cases thrown with
      | none => rfl
      | some e => exact absurd hturn (h 0 .start posted e)
  | case2 data o n hturn ih =>
      rw [all_of_took hturn]
      refine ih fun k hk posted e => ?_
      rw [List.drop_drop]
      exact h (n + k) (.of_drop hturn hk) posted e

theorem returns_of_all {r : Reader β ω ε} {data : List β} (h : (r.all data).2 = none) {k : ℕ}
    (hk : r.Visits data k) : (r.all (data.drop k)).2 = none := by
  induction hk with
  | start => rwa [List.drop_zero]
  | took _ hturn ih =>
      rw [all_of_took hturn, List.drop_drop] at ih
      exact ih

/-- The loop ends without an exception exactly if none of its turns throws. -/
theorem returns_iff {r : Reader β ω ε} {data : List β} :
    (r.all data).2 = none ↔
      ∀ k, r.Visits data k → ∀ posted e, r.turn (data.drop k) ≠ .stop posted (some e) := by
  refine ⟨fun h k hk posted e hstop => ?_, all_returns⟩
  have hrest := returns_of_all h hk
  rw [all_of_stop hstop] at hrest
  cases hrest

/-- If the turns at fine positions take what the sizes say, the loop comes to fine positions
only exactly if the sizes lead to such positions only. -/
theorem visits_iff_boundary {r : Reader β ω ε} {size : List β → Option ℕ} {Fine : List β → Prop}
    {data : List β} (hsize : ∀ k n, Fine (data.drop k) →
      (size (data.drop k) = some n ↔ ∃ o, r.turn (data.drop k) = .took o n)) :
    (∀ k, r.Visits data k → Fine (data.drop k)) ↔
      ∀ k, Boundary size data k → Fine (data.drop k) := by
  constructor
  · intro h k hk
    refine h k ?_
    induction hk with
    | start => exact .start
    | next _ hnext ih =>
        obtain ⟨o, hturn⟩ := (hsize _ _ (h _ ih)).mp hnext
        exact .took ih hturn
  · intro h k hk
    refine h k ?_
    induction hk with
    | start => exact .start
    | took _ hturn ih => exact .next ih ((hsize _ _ (h _ ih)).mpr ⟨_, hturn⟩)

variable {bytes : μ → List β} {post : μ → ω}

/-- The loop takes exactly the given messages off their concatenation, one a turn. -/
def Reads (r : Reader β ω ε) (bytes : μ → List β) (post : μ → ω) : List μ → Prop
  | [] => True
  | m :: ms =>
      r.turn (bytes m ++ ms.flatMap bytes) = .took (post m) (bytes m).length ∧
        r.Reads bytes post ms

/-- The messages that the loop takes, each with the elements that it takes up. -/
def chunks (r : Reader β ω ε) (data : List β) : List (ω × List β) :=
  match _h : r.turn data with
  | .stop _ _ => []
  | .took o n => (o, data.take n) :: r.chunks (data.drop n)
termination_by data.length
decreasing_by all_goals
  have := r.bounds _h
  rw [List.length_drop]
  omega

theorem chunks_of_stop {r : Reader β ω ε} {data : List β} {posted : List ω} {thrown : Option ε}
    (h : r.turn data = .stop posted thrown) : r.chunks data = [] := by
  rw [chunks]
  split
  · rfl
  · rename_i h'
    rw [h] at h'
    cases h'

theorem chunks_of_took {r : Reader β ω ε} {data : List β} {o : ω} {n : ℕ}
    (h : r.turn data = .took o n) :
    r.chunks data = (o, data.take n) :: r.chunks (data.drop n) := by
  rw [chunks]
  split
  · rename_i h'
    rw [h] at h'
    cases h'
  · rename_i h'
    rw [h] at h'
    cases h'
    rfl

theorem turn_of_chunks {r : Reader β ω ε} {data piece : List β} {o : ω} {cs : List (ω × List β)}
    (h : r.chunks data = (o, piece) :: cs) :
    r.turn data = .took o piece.length ∧ data = piece ++ data.drop piece.length ∧
      r.chunks (data.drop piece.length) = cs := by
  cases hturn : r.turn data with
  | stop posted thrown =>
      rw [chunks_of_stop hturn] at h
      cases h
  | took o' n =>
      obtain ⟨-, hle⟩ := r.bounds hturn
      rw [chunks_of_took hturn] at h
      cases h
      rw [List.length_take_of_le hle, List.take_append_drop]
      exact ⟨rfl, rfl, rfl⟩

/-- What the loop does behind messages that it takes. -/
theorem all_of_prefix {r : Reader β ω ε} {group : List (ω × List β)} {data rest : List β}
    (hdata : data = group.flatMap Prod.snd ++ rest) (h : group <+: r.chunks data) :
    r.chunks data = group ++ r.chunks rest ∧
      r.all data = (group.map Prod.fst ++ (r.all rest).1, (r.all rest).2) := by
  induction group generalizing data with
  | nil =>
      obtain rfl : data = rest := hdata
      exact ⟨rfl, rfl⟩
  | cons chunk group ih =>
      obtain ⟨o, piece⟩ := chunk
      obtain ⟨cs, hcs⟩ := h
      obtain ⟨hturn, -, hchunks⟩ := turn_of_chunks (hcs.symm.trans List.cons_append)
      have hdrop : data.drop piece.length = group.flatMap Prod.snd ++ rest := by
        rw [hdata, List.flatMap_cons, List.append_assoc, List.drop_left]
      have htake : data.take piece.length = piece := by
        rw [hdata, List.flatMap_cons, List.append_assoc, List.take_left]
      obtain ⟨hrest, hall⟩ := ih hdrop (by rw [hchunks]; exact List.prefix_append _ _)
      rw [chunks_of_took hturn, all_of_took hturn, hrest, hall, htake]
      exact ⟨rfl, rfl⟩

theorem chunks_prefix (r : Reader β ω ε) (data : List β) :
    (r.chunks data).flatMap Prod.snd <+: data := by
  induction data using chunks.induct r with
  | case1 data posted thrown hturn =>
      rw [chunks_of_stop hturn]
      exact List.nil_prefix
  | case2 data o n hturn ih =>
      rw [chunks_of_took hturn, List.flatMap_cons]
      conv_rhs => rw [← List.take_append_drop n data]
      exact (List.prefix_append_right_inj _).mpr ih

theorem reads_of_chunks {r : Reader β ω ε} {ms : List μ}
    (h : r.chunks (ms.flatMap bytes) = ms.map fun m => (post m, bytes m)) :
    r.Reads bytes post ms := by
  induction ms with
  | nil => trivial
  | cons m ms ih =>
      rw [List.flatMap_cons] at h
      obtain ⟨hturn, -, hrest⟩ := turn_of_chunks h
      rw [List.drop_left] at hrest
      exact ⟨hturn, ih hrest⟩

theorem Reads.last {r : Reader β ω ε} {ms : List μ} {m : μ} (h : r.Reads bytes post (ms ++ [m])) :
    r.turn (bytes m) = .took (post m) (bytes m).length := by
  induction ms with
  | nil =>
      have hturn := h.1
      rwa [List.flatMap_nil, List.append_nil] at hturn
  | cons m' ms ih => exact ih h.2

/-! ### Readers that need not look ahead -/

/-- A message that the loop takes has the same size whether or not more data follow, and the
loop posts nothing when it is left without an exception. -/
structure Steady (r : Reader β ω ε) : Prop where
  quiet : ∀ {data posted}, r.turn data = .stop posted none → posted = []
  size : ∀ {data rest o o' n n'}, r.turn (data ++ rest) = .took o n → n ≤ data.length →
    r.turn data = .took o' n' → n' = n

theorem Steady.all_of_returns {r : Reader β ω ε} (hr : r.Steady) {data : List β}
    (h : (r.all data).2 = none) : (r.all data).1 = (r.chunks data).map Prod.fst := by
  induction data using all.induct r with
  | case1 data posted thrown hturn =>
      rw [all_of_stop hturn] at h ⊢
      obtain rfl : thrown = none := h
      rw [chunks_of_stop hturn]
      exact hr.quiet hturn
  | case2 data o n hturn ih =>
      rw [all_of_took hturn] at h ⊢
      rw [chunks_of_took hturn, List.map_cons, ih h]

/-- Without what follows the loop takes the same pieces off the data, as long as it gets on. -/
theorem Steady.lockstep {r : Reader β ω ε} (hr : r.Steady) (hnil : r.turn [] = .stop [] none)
    {group : List (ω × List β)} {data rest : List β} (hdata : data = group.flatMap Prod.snd)
    (h : group <+: r.chunks (data ++ rest)) :
    (r.chunks data).map Prod.snd <+: group.map Prod.snd := by
  induction group generalizing data with
  | nil =>
      subst hdata
      have hnone : r.chunks [] = [] := chunks_of_stop hnil
      simp [hnone]
  | cons chunk group ih =>
      obtain ⟨o, piece⟩ := chunk
      obtain ⟨cs, hcs⟩ := h
      obtain ⟨hturn, -, hchunks⟩ := turn_of_chunks (hcs.symm.trans List.cons_append)
      have hpiece : data = piece ++ group.flatMap Prod.snd := hdata
      cases halone : r.turn data with
      | stop posted thrown =>
          rw [chunks_of_stop halone]
          exact List.nil_prefix
      | took o' n' =>
          have hsize := hr.size hturn (by rw [hpiece, List.length_append]; omega) halone
          subst hsize
          have hdrop : data.drop piece.length = group.flatMap Prod.snd := by
            rw [hpiece, List.drop_left]
          have htake : data.take piece.length = piece := by rw [hpiece, List.take_left]
          have hrest := ih hdrop (by
            rw [← List.drop_append_of_le_length (by rw [hpiece, List.length_append]; omega),
              hchunks]
            exact List.prefix_append _ _)
          rw [chunks_of_took halone, htake, List.map_cons, List.map_cons]
          exact List.cons_prefix_cons.mpr ⟨rfl, hrest⟩

theorem chunks_ne_nil {r : Reader β ω ε} {data : List β} :
    ∀ chunk ∈ r.chunks data, chunk.2 ≠ [] := by
  induction data using chunks.induct r with
  | case1 data posted thrown hturn => simp [chunks_of_stop hturn]
  | case2 data o n hturn ih =>
      obtain ⟨hpos, hle⟩ := r.bounds hturn
      rw [chunks_of_took hturn]
      intro chunk hchunk
      rcases List.mem_cons.mp hchunk with rfl | hchunk
      · exact List.ne_nil_of_length_pos (by rwa [List.length_take_of_le hle])
      · exact ih chunk hchunk

/-- Every piece of the stream but the last consists of whole messages, which the loop finds in the
piece alone and at the start of the stream from there on. -/
def Separate (r : Reader β ω ε) : List (List β) → Prop
  | [] => True
  | [_] => True
  | piece :: next :: pieces =>
      (r.chunks piece).flatMap Prod.snd = piece ∧
        r.chunks piece <+: r.chunks (piece ++ (next :: pieces).flatten) ∧
          r.Separate (next :: pieces)

end Reader

/-! ## Where a stream is cut -/

section Cuts

variable {bytes : μ → List β}

/-- What is left of the data once the messages that are complete in it are taken off. -/
def pending (bytes : μ → List β) : List μ → List β → List β
  | [], data => data
  | m :: ms, data =>
      if (bytes m).length ≤ data.length then pending bytes ms (data.drop (bytes m).length)
      else data

/-- Every piece of the stream consists of whole messages. -/
def Whole (bytes : μ → List β) (groups : List (List μ)) (ms : List μ)
    (pieces : List (List β)) : Prop :=
  groups.flatten = ms ∧ pieces = groups.map fun group => group.flatMap bytes

theorem pending_append (group ms : List μ) (data : List β) :
    pending bytes (group ++ ms) (group.flatMap bytes ++ data) = pending bytes ms data := by
  induction group with
  | nil => rfl
  | cons m group ih =>
      rw [List.cons_append, List.flatMap_cons, List.append_assoc, pending, if_pos (by simp),
        List.drop_left, ih]

theorem pending_nil {ms : List μ} (hbytes : ∀ m ∈ ms, bytes m ≠ []) :
    pending bytes ms [] = [] := by
  cases ms with
  | nil => rfl
  | cons m ms =>
      have hpos := List.length_pos_of_ne_nil (hbytes m List.mem_cons_self)
      rw [pending, if_neg (by simpa using hbytes m List.mem_cons_self)]

/-- Data with nothing pending ends where a message ends. -/
theorem exists_group {ms : List μ} {data : List β}
    (hstream : data <+: ms.flatMap bytes ∨ ms.flatMap bytes <+: data)
    (h : pending bytes ms data = []) :
    ∃ group ms', ms = group ++ ms' ∧ data = group.flatMap bytes := by
  induction ms generalizing data with
  | nil =>
      obtain rfl : data = [] := h
      exact ⟨[], [], rfl, rfl⟩
  | cons m ms ih =>
      rw [pending] at h
      split at h
      · rename_i hle
        rw [List.flatMap_cons] at hstream
        obtain ⟨data', rfl⟩ : bytes m <+: data := by
          rcases hstream with hstream | hstream
          · exact List.prefix_of_prefix_length_le (List.prefix_append _ _) hstream hle
          · exact (List.prefix_append _ _).trans hstream
        rw [List.drop_left] at h
        obtain ⟨group, ms', rfl, rfl⟩ := ih (by
          simpa only [List.prefix_append_right_inj] using hstream) h
        exact ⟨m :: group, ms', rfl, by rw [List.flatMap_cons]⟩
      · subst h
        exact ⟨[], m :: ms, rfl, rfl⟩

end Cuts

/-! ## Receivers that forget the rest of a piece -/

section Receivers

/-- One call of a receiver with a piece of the stream: what it posts, and the exception that it
may throw then. -/
abbrev Receive (σ β ω ε : Type*) := σ → List β → σ × List ω × Option ε

/-- What successive calls post, up to the first that throws. -/
def posts (receive : Receive σ β ω ε) : σ → List (List β) → List ω
  | _, [] => []
  | s, piece :: pieces =>
      let (s', posted, thrown) := receive s piece
      if thrown.isSome then posted else posted ++ posts receive s' pieces

/-- The state after calls that all return. -/
def after (receive : Receive σ β ω ε) : σ → List (List β) → Option σ
  | s, [] => some s
  | s, piece :: pieces =>
      let (s', _, thrown) := receive s piece
      if thrown.isSome then none else after receive s' pieces

variable {receive : Receive σ β ω ε} {r : Reader β ω ε} {kept : σ → List β} {Inv : σ → Prop}
  {Fits : List β → Prop}

/-- Where the stream is cut makes no difference: what is posted is what the loop over the whole
stream posts, and between two calls the elements of the message that is incomplete so far
are kept. -/
structure Uncut (receive : Receive σ β ω ε) (kept : σ → List β) (r : Reader β ω ε) (s : σ)
    (pieces : List (List β)) : Prop where
  posted : posts receive s pieces = (r.all pieces.flatten).1
  kept : ∀ k < pieces.length, ∃ s', after receive s (pieces.take k) = some s' ∧
    kept s' = pending Prod.snd (r.chunks pieces.flatten) (pieces.take k).flatten

/-- Every piece is read on its own, and nothing of it is kept. -/
structure Forgets (receive : Receive σ β ω ε) (r : Reader β ω ε) (kept : σ → List β)
    (Inv : σ → Prop) (Fits : List β → Prop) : Prop where
  kept : ∀ {s}, Inv s → kept s = []
  receives : ∀ {s piece}, Inv s → Fits piece →
    ∃ s', receive s piece = (s', r.all piece) ∧ Inv s'

theorem posts_cons_of_returns {s s' : σ} {piece : List β} {posted : List ω}
    (h : receive s piece = (s', posted, none)) (pieces : List (List β)) :
    posts receive s (piece :: pieces) = posted ++ posts receive s' pieces := by
  rw [posts, h]
  rfl

theorem after_cons_of_returns {s s' : σ} {piece : List β} {posted : List ω}
    (h : receive s piece = (s', posted, none)) (pieces : List (List β)) :
    after receive s (piece :: pieces) = after receive s' pieces := by
  rw [after, h]
  rfl

theorem posts_singleton {s s' : σ} {piece : List β} {posted : List ω} {thrown : Option ε}
    (h : receive s piece = (s', posted, thrown)) : posts receive s [piece] = posted := by
  rw [posts, h]
  dsimp only
  split
  · rfl
  · exact List.append_nil _

theorem returns_of_after {s s' : σ} {piece : List β} {posted : List ω} {thrown : Option ε}
    {pieces : List (List β)} (h : receive s piece = (s', posted, thrown))
    (hafter : after receive s (piece :: pieces) ≠ none) : thrown = none := by
  cases thrown with
  | none => rfl
  | some e =>
      rw [after, h] at hafter
      exact absurd rfl hafter

/-- What is pending behind messages that the loop takes. -/
theorem pending_chunks {group : List (ω × List β)} {piece rest : List β}
    (hpiece : piece = group.flatMap Prod.snd) (h : group <+: r.chunks (piece ++ rest))
    (data : List β) : pending Prod.snd (r.chunks (piece ++ rest)) (piece ++ data) =
      pending Prod.snd (r.chunks rest) data := by
  rw [(Reader.all_of_prefix (congrArg (· ++ rest) hpiece) h).1]
  subst hpiece
  exact pending_append ..

/-- What a cut must be for the elements of the incomplete message to be kept. -/
theorem Forgets.first_piece (hstep : Forgets receive r kept Inv Fits) {s : σ} (hs : Inv s)
    {piece next : List β} {pieces : List (List β)} (hfits : Fits piece)
    (h : ∀ k < (piece :: next :: pieces).length, ∃ s',
      after receive s ((piece :: next :: pieces).take k) = some s' ∧
        kept s' = pending Prod.snd (r.chunks (piece :: next :: pieces).flatten)
          ((piece :: next :: pieces).take k).flatten) :
    ∃ s₁ group, receive s piece = (s₁, (r.all piece).1, none) ∧ Inv s₁ ∧ (r.all piece).2 = none ∧
      piece = group.flatMap Prod.snd ∧
      group <+: r.chunks (piece ++ (next :: pieces).flatten) ∧
      ∀ k < (next :: pieces).length, ∃ s',
        after receive s₁ ((next :: pieces).take k) = some s' ∧
          kept s' = pending Prod.snd (r.chunks (next :: pieces).flatten)
            ((next :: pieces).take k).flatten := by
  obtain ⟨s₁, hs₁, hinv₁⟩ := hstep.receives hs hfits
  obtain ⟨s', hafter, hkept⟩ := h 1 (by simp)
  rw [List.take_succ_cons, List.take_zero] at hafter hkept
  have hreturns : (r.all piece).2 = none :=
    returns_of_after hs₁ (by rw [hafter]; exact Option.some_ne_none s')
  have hfirst : receive s piece = (s₁, (r.all piece).1, none) := by
    rw [hs₁, ← hreturns]
  obtain rfl : s₁ = s' := by
    rw [after_cons_of_returns hfirst] at hafter
    exact Option.some.inj hafter
  rw [hstep.kept hinv₁, List.flatten_singleton, List.flatten_cons] at hkept
  obtain ⟨group, cs, hchunks, hpiece⟩ := exists_group
    (List.prefix_or_prefix_of_prefix (List.prefix_append _ _) (r.chunks_prefix _)) hkept.symm
  have hprefix : group <+: r.chunks (piece ++ (next :: pieces).flatten) :=
    ⟨cs, hchunks.symm⟩
  refine ⟨s₁, group, hfirst, hinv₁, hreturns, hpiece, hprefix, fun k hk => ?_⟩
  obtain ⟨s'', hafter', hkept'⟩ := h (k + 1) (by simpa using hk)
  rw [List.take_succ_cons, after_cons_of_returns hfirst] at hafter'
  refine ⟨s'', hafter', ?_⟩
  exact hkept'.trans (pending_chunks hpiece hprefix _)

/-- A receiver that forgets never posts more messages than the stream has, cut where they end. -/
theorem Forgets.length_posts_le (hstep : Forgets receive r kept Inv Fits) (hr : r.Steady)
    (hnil : r.turn [] = .stop [] none) {s : σ} (hs : Inv s) {pieces : List (List β)}
    (hfits : ∀ piece ∈ pieces, Fits piece)
    (h : ∀ k < pieces.length, ∃ s', after receive s (pieces.take k) = some s' ∧
      kept s' = pending Prod.snd (r.chunks pieces.flatten) (pieces.take k).flatten) :
    (posts receive s pieces).length ≤ (r.all pieces.flatten).1.length := by
  induction pieces generalizing s with
  | nil => exact Nat.zero_le _
  | cons piece pieces ih =>
      cases pieces with
      | nil =>
          obtain ⟨s₁, hs₁, -⟩ := hstep.receives hs (hfits piece List.mem_cons_self)
          rw [posts_singleton hs₁, List.flatten_singleton]
      | cons next pieces =>
          obtain ⟨s₁, group, hfirst, hinv₁, hreturns, hpiece, hprefix, hrest⟩ :=
            hstep.first_piece hs (hfits piece List.mem_cons_self) h
          have hle := ih hinv₁ (fun q hq => hfits q (List.mem_cons_of_mem _ hq)) hrest
          have hlock := (hr.lockstep hnil hpiece hprefix).length_le
          rw [posts_cons_of_returns hfirst, List.flatten_cons,
            (Reader.all_of_prefix (congrArg (· ++ _) hpiece) hprefix).2, hr.all_of_returns hreturns]
          simp only [List.length_map, List.length_append] at hlock ⊢
          exact Nat.add_le_add hlock hle

theorem Forgets.separate (hstep : Forgets receive r kept Inv Fits) (hr : r.Steady)
    (hnil : r.turn [] = .stop [] none) {s : σ} (hs : Inv s) {pieces : List (List β)}
    (hfits : ∀ piece ∈ pieces, Fits piece) (h : Uncut receive kept r s pieces) :
    r.Separate pieces := by
  induction pieces generalizing s with
  | nil => trivial
  | cons piece pieces ih =>
      cases pieces with
      | nil => trivial
      | cons next pieces =>
          obtain ⟨s₁, group, hfirst, hinv₁, hreturns, hpiece, hprefix, hrest⟩ :=
            hstep.first_piece hs (hfits piece List.mem_cons_self) h.kept
          have hfits' : ∀ q ∈ next :: pieces, Fits q :=
            fun q hq => hfits q (List.mem_cons_of_mem _ hq)
          have hle := hstep.length_posts_le hr hnil hinv₁ hfits' hrest
          have hlock := hr.lockstep hnil hpiece hprefix
          have hposted := h.posted
          rw [posts_cons_of_returns hfirst, List.flatten_cons,
            (Reader.all_of_prefix (congrArg (· ++ _) hpiece) hprefix).2,
            hr.all_of_returns hreturns] at hposted
          -- The piece alone gives at most as many messages as it holds, and so does the rest.
          have hlengths := congrArg List.length hposted
          have hlockLength := hlock.length_le
          simp only [List.length_map, List.length_append] at hlengths hlockLength
          have hsame : (r.chunks piece).length = group.length := by omega
          obtain ⟨hfst, hposts⟩ := List.append_inj hposted (by simpa using hsame)
          have hsnd : (r.chunks piece).map Prod.snd = group.map Prod.snd :=
            hlock.eq_of_length (by simpa using hsame)
          have hchunks : r.chunks piece = group := by
            rw [← List.zip_unzip (r.chunks piece), ← List.zip_unzip group, List.unzip_eq_map,
              List.unzip_eq_map, hfst, hsnd]
          exact ⟨by rw [hchunks, ← hpiece], by rw [hchunks]; exact hprefix,
            ih hinv₁ hfits' ⟨hposts, hrest⟩⟩

theorem Forgets.uncut (hstep : Forgets receive r kept Inv Fits) (hr : r.Steady)
    (hnil : r.turn [] = .stop [] none) {s : σ} (hs : Inv s) {pieces : List (List β)}
    (hfits : ∀ piece ∈ pieces, Fits piece) (h : r.Separate pieces) :
    Uncut receive kept r s pieces := by
  induction pieces generalizing s with
  | nil => exact ⟨by rw [List.flatten_nil, Reader.all_of_stop hnil]; rfl, by simp⟩
  | cons piece pieces ih =>
      obtain ⟨s₁, hs₁, hinv₁⟩ := hstep.receives hs (hfits piece List.mem_cons_self)
      have hstart : kept s =
          pending Prod.snd (r.chunks (piece :: pieces).flatten) [] := by
        rw [hstep.kept hs, pending_nil Reader.chunks_ne_nil]
      cases pieces with
      | nil =>
          constructor
          · rw [posts_singleton hs₁, List.flatten_singleton]
          · intro k hk
            obtain rfl : k = 0 := by simpa using hk
            exact ⟨s, rfl, hstart⟩
      | cons next pieces =>
          obtain ⟨hwhole, hprefix, hrest⟩ := h
          obtain ⟨hposted, hkept⟩ := ih hinv₁ (fun q hq => hfits q (List.mem_cons_of_mem _ hq)) hrest
          have hpiece : piece = (r.chunks piece).flatMap Prod.snd ++ [] := by
            rw [hwhole, List.append_nil]
          have halone := Reader.all_of_prefix hpiece (List.prefix_refl (r.chunks piece))
          have hreturns : (r.all piece).2 = none := by
            rw [halone.2, Reader.all_of_stop hnil]
          have hfirst : receive s piece = (s₁, (r.all piece).1, none) := by
            rw [hs₁, ← hreturns]
          have hdata : piece ++ (next :: pieces).flatten =
              (r.chunks piece).flatMap Prod.snd ++ (next :: pieces).flatten := by
            rw [hwhole]
          obtain ⟨-, hall⟩ := Reader.all_of_prefix hdata hprefix
          constructor
          · rw [posts_cons_of_returns hfirst, List.flatten_cons, hall, hposted,
              hr.all_of_returns hreturns]
          · intro k hk
            cases k with
            | zero => exact ⟨s, rfl, hstart⟩
            | succ k =>
                obtain ⟨s', hafter, hs'⟩ := hkept k (by simpa using hk)
                refine ⟨s', ?_, ?_⟩
                · rw [List.take_succ_cons, after_cons_of_returns hfirst]
                  exact hafter
                · exact hs'.trans (pending_chunks hwhole.symm hprefix _).symm

/-- Where the stream is cut makes no difference for a receiver that forgets, exactly if every
piece but the last consists of whole messages. -/
theorem Forgets.uncut_iff (hstep : Forgets receive r kept Inv Fits) (hr : r.Steady)
    (hnil : r.turn [] = .stop [] none) {s : σ} (hs : Inv s) {pieces : List (List β)}
    (hfits : ∀ piece ∈ pieces, Fits piece) :
    Uncut receive kept r s pieces ↔ r.Separate pieces :=
  ⟨hstep.separate hr hnil hs hfits, hstep.uncut hr hnil hs hfits⟩

end Receivers

end Framing
