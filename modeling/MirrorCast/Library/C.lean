import MirrorCast.Library.Java

/-! # C values: memory that may be left -/

namespace C

/-- What C leaves undefined. -/
inductive Undefined where
  /-- An access outside the objects that are alive. -/
  | outOfBounds
  deriving DecidableEq, Repr

/-- `memcpy(dst + pos, src + srcPos, len)`. -/
def memcpy (dst : List UInt8) (pos : ℕ) (src : List UInt8) (srcPos len : ℕ) :
    Except Undefined (List UInt8) :=
  if src.length < srcPos + len ∨ dst.length < pos + len then .error .outOfBounds
  else .ok (Java.blit dst pos ((src.drop srcPos).take len))

theorem memcpy_ok {dst src : List UInt8} {pos srcPos len : ℕ} (hsrc : srcPos + len ≤ src.length)
    (hdst : pos + len ≤ dst.length) :
    memcpy dst pos src srcPos len = .ok (Java.blit dst pos ((src.drop srcPos).take len)) := by
  rw [memcpy, if_neg (by omega)]

theorem length_of_memcpy {dst src out : List UInt8} {pos srcPos len : ℕ}
    (h : memcpy dst pos src srcPos len = .ok out) : out.length = dst.length := by
  unfold memcpy at h
  split at h
  · cases h
  · cases h
    apply Java.length_blit
    simp only [List.length_take, List.length_drop]
    omega

/-! ## Staying in memory -/

/-- `x` stays in memory exactly if `safe` holds, and then `Q` holds of its result. -/
def Stays {α : Type} (x : Except Undefined α) (safe : Prop) (Q : α → Prop) : Prop :=
  (safe → ∃ a, x = .ok a ∧ Q a) ∧ (¬ safe → x = .error .outOfBounds)

namespace Stays

variable {α β : Type} {x : Except Undefined α} {safe safe' : Prop} {Q : α → Prop} {Q' : β → Prop}

theorem ok {a : α} (h : Q a) : Stays (.ok a) True Q :=
  ⟨fun _ => ⟨a, rfl, h⟩, fun hnot => absurd trivial hnot⟩

theorem bind {f : α → Except Undefined β} (hx : Stays x safe Q)
    (hf : ∀ a, Q a → Stays (f a) safe' Q') : Stays (x >>= f) (safe ∧ safe') Q' := by
  constructor
  · rintro ⟨hsafe, hsafe'⟩
    obtain ⟨a, rfl, ha⟩ := hx.1 hsafe
    exact (hf a ha).1 hsafe'
  · intro hnot
    by_cases hsafe : safe
    · obtain ⟨a, rfl, ha⟩ := hx.1 hsafe
      exact (hf a ha).2 fun hsafe' => hnot ⟨hsafe, hsafe'⟩
    · rw [hx.2 hsafe]
      rfl

/-- Nothing more can leave memory. -/
theorem map {f : α → Except Undefined β} (hx : Stays x safe Q)
    (hf : ∀ a, Q a → ∃ b, f a = .ok b ∧ Q' b) : Stays (x >>= f) safe Q' := by
  constructor
  · intro hsafe
    obtain ⟨a, rfl, ha⟩ := hx.1 hsafe
    exact hf a ha
  · intro hnot
    rw [hx.2 hnot]
    rfl

theorem congr (hx : Stays x safe Q) (h : safe ↔ safe') : Stays x safe' Q :=
  ⟨fun hsafe => hx.1 (h.mpr hsafe), fun hnot => hx.2 fun hsafe => hnot (h.mp hsafe)⟩

theorem returns_iff (hx : Stays x safe Q) : Java.Returns x ↔ safe := by
  constructor
  · rintro ⟨a, ha⟩
    by_contra hnot
    rw [hx.2 hnot] at ha
    cases ha
  · intro hsafe
    obtain ⟨a, ha, -⟩ := hx.1 hsafe
    exact ⟨a, ha⟩

end Stays

/-! ## Strings -/

/-- The string in a buffer: the bytes up to the first zero. -/
def cString (buffer : List UInt8) : Except Undefined (List UInt8) :=
  if 0 ∈ buffer then .ok (buffer.takeWhile (· ≠ 0)) else .error .outOfBounds

/-- What a `char *` leads to. -/
inductive Pointer where
  | null
  /-- A local array of a call that has returned. -/
  | dead
  | live (buffer : List UInt8)
  deriving DecidableEq, Repr

/-- The string at a pointer. -/
def Pointer.string : Pointer → Except Undefined (List UInt8)
  | .null | .dead => .error .outOfBounds
  | .live buffer => cString buffer

/-- `strncpy(dst, src, n)` of a string without its zero: it always writes `n` bytes. -/
def strncpy (dst src : List UInt8) (n : ℕ) : Except Undefined (List UInt8) :=
  if dst.length < n then .error .outOfBounds
  else .ok (Java.blit dst 0 (src.take n ++ List.replicate (n - src.length) 0))

/-- The strings that repeated `strsep(&buff, delim)` cuts off, for one delimiter. -/
def strsep (delim : UInt8) (buff : List UInt8) : List (List UInt8) := buff.splitOn delim

theorem notMem_of_mem_strsep {delim : UInt8} {buff piece : List UInt8}
    (h : piece ∈ strsep delim buff) : delim ∉ piece := by
  induction buff generalizing piece with
  | nil => simp_all [strsep]
  | cons b buff ih =>
      rw [strsep, List.splitOn_cons_eq_if_modifyHead] at h
      split at h
      · rcases List.mem_cons.mp h with rfl | h
        · exact List.not_mem_nil
        · exact ih h
      · rename_i hb
        cases hsplit : buff.splitOn delim with
        | nil => exact absurd hsplit (List.splitOn_ne_nil delim buff)
        | cons first pieces =>
            rw [hsplit, List.modifyHead_cons] at h
            rw [strsep, hsplit] at ih
            rcases List.mem_cons.mp h with rfl | h
            · have hfirst : delim ∉ first := ih List.mem_cons_self
              rw [List.mem_cons, not_or]
              exact ⟨fun heq => hb (heq ▸ beq_self_eq_true delim), hfirst⟩
            · exact ih (List.mem_cons_of_mem first h)

/-- The pieces are the bytes that are no delimiters. -/
theorem flatten_strsep (delim : UInt8) (buff : List UInt8) :
    (strsep delim buff).flatten = buff.filter (· ≠ delim) := by
  induction buff with
  | nil => rfl
  | cons b buff ih =>
      rw [strsep, List.splitOn_cons_eq_if_modifyHead]
      rw [strsep] at ih
      split
      · simp_all
      · cases hsplit : buff.splitOn delim with
        | nil => exact absurd hsplit (List.splitOn_ne_nil delim buff)
        | cons first pieces => simp_all

/-- A run of delimiters separates like one where empty pieces are skipped. -/
theorem strsep_replicate_append (delim : UInt8) (n : ℕ) (buff : List UInt8) :
    (strsep delim (List.replicate n delim ++ buff)).filter (· ≠ []) =
      (strsep delim buff).filter (· ≠ []) := by
  induction n with
  | zero => rfl
  | succ n ih =>
      rw [List.replicate_succ, List.cons_append, strsep, List.splitOn_cons_eq_if_modifyHead,
        if_pos (by simp)]
      exact ih

theorem strsep_intercalate {delim : UInt8} {n : ℕ} {pieces : List (List UInt8)}
    (hpieces : ∀ piece ∈ pieces, piece ≠ [] ∧ delim ∉ piece) :
    (strsep delim ((List.replicate (n + 1) delim).intercalate pieces)).filter (· ≠ []) =
      pieces := by
  induction pieces with
  | nil => rfl
  | cons piece pieces ih =>
      obtain ⟨hne, hfree⟩ := hpieces piece (by simp)
      cases pieces with
      | nil =>
          rw [List.intercalate_singleton, strsep, List.splitOn_eq_singleton hfree]
          simp [hne]
      | cons piece' pieces =>
          rw [List.intercalate_cons_cons, List.append_assoc, List.replicate_succ,
            List.cons_append, strsep, List.splitOn_append_cons_self,
            List.splitOn_eq_singleton hfree, List.filter_append]
          have hrest := strsep_replicate_append delim n
            ((List.replicate (n + 1) delim).intercalate (piece' :: pieces))
          rw [strsep] at hrest
          rw [List.replicate_succ] at hrest ih
          rw [hrest, ih fun p hp => hpieces p (List.mem_cons_of_mem piece hp)]
          simp [hne]

/-- Copying at most what the source has fills the front of a cleared buffer. -/
theorem strncpy_zeros {src : List UInt8} {n capacity : ℕ} (hsrc : n ≤ src.length)
    (hfits : n ≤ capacity) : strncpy (List.replicate capacity 0) src n =
      .ok (src.take n ++ List.replicate (capacity - n) 0) := by
  have hblit : Java.blit (List.replicate capacity 0) 0 (src.take n) =
      [] ++ src.take n ++ (List.replicate capacity 0).drop (src.take n).length :=
    Java.blit_append List.length_nil (src.take n) (List.replicate capacity 0)
  rw [strncpy, List.length_replicate, if_neg (by omega), Nat.sub_eq_zero_of_le hsrc,
    List.replicate_zero, List.append_nil, hblit, List.nil_append, List.drop_replicate,
    List.length_take, Nat.min_eq_left hsrc]

theorem cString_eq_ok {buffer s : List UInt8} (h : cString buffer = .ok s) : 0 ∈ buffer := by
  unfold cString at h
  split at h
  · assumption
  · cases h

theorem cString_append {s rest : List UInt8} (hs : 0 ∉ s) : cString (s ++ 0 :: rest) = .ok s := by
  rw [cString, if_pos (by simp), List.takeWhile_append_of_pos]
  · simp
  · intro b hb
    simpa using fun h : b = 0 => hs (h ▸ hb)

/-! ## Numbers -/

def isdigit (b : UInt8) : Bool := decide (48 ≤ b) && decide (b ≤ 57)

/-- The number that the digits in front make. -/
def digits (s : List UInt8) : ℤ :=
  (s.takeWhile isdigit).foldl (fun n b => 10 * n + (b.toNat - 48)) 0

/-- `atoi`, as `(int) strtol(s, nullptr, 10)`, which stops at the bounds of a 64-bit `long`. -/
def atoi (s : List UInt8) : ℤ :=
  match s.dropWhile fun b => b = 32 ∨ 9 ≤ b ∧ b ≤ 13 with
  | 45 :: s => Java.int32 (max (-2 ^ 63) (-digits s))
  | 43 :: s => Java.int32 (min (2 ^ 63 - 1) (digits s))
  | s => Java.int32 (min (2 ^ 63 - 1) (digits s))

end C
