import MirrorCast.Verification.PlayQueue.Order

/-! # Groups of pictures that leave the play queue -/

namespace MirrorCast.PlayQueue

open Java MediaClient MyJni BlockingQueue

/-! ## Frames by their flag byte -/

def IsKey (x : Item) : Prop := hasKeyFlag x.frame = .ok true

def IsPlain (x : Item) : Prop := hasKeyFlag x.frame = .ok false

/-- An empty array, on which both drains stop with an exception. -/
def NoFlag (x : Item) : Prop := ∃ e, hasKeyFlag x.frame = .error e

/-- Behind plain frames only comes one with property `P`. -/
def Reaches (P : Item → Prop) (xs : List Item) : Prop :=
  ∃ before x after, xs = before ++ x :: after ∧ (∀ y ∈ before, IsPlain y) ∧ P x

theorem Reaches.append {P : Item → Prop} {xs : List Item} (h : Reaches P xs) (ys : List Item) :
    Reaches P (xs ++ ys) := by
  obtain ⟨before, x, after, rfl, hbefore, hx⟩ := h
  exact ⟨before, x, after ++ ys, by simp, hbefore, hx⟩

theorem reaches_cons {P : Item → Prop} {x : Item} {xs : List Item} (h : Reaches P (x :: xs)) :
    P x ∨ IsPlain x ∧ Reaches P xs := by
  obtain ⟨before, y, after, heq, hbefore, hy⟩ := h
  cases before with
  | nil =>
      obtain ⟨rfl, -⟩ := List.cons.inj heq
      exact Or.inl hy
  | cons b before =>
      obtain ⟨rfl, hrest⟩ := List.cons.inj heq
      exact Or.inr ⟨hbefore x (by simp),
        before, y, after, hrest, fun z hz => hbefore z (by simp [hz]), hy⟩

theorem not_reaches_nil {P : Item → Prop} : ¬ Reaches P [] := by
  rintro ⟨before, x, after, heq, -, -⟩
  simp at heq

/-! ## Unbroken sequences -/

/-- `x` may come right after `prev`: it is a key frame, the first frame of all or the frame
given after `prev`. -/
def Follows (prev : Option Item) (x : Item) : Prop :=
  IsKey x ∨ x.number = 0 ∨ ∃ p, prev = some p ∧ p.number + 1 = x.number

/-- Each frame may come after the one before it, the first one after `prev`. -/
def Linked : Option Item → List Item → Prop
  | _, [] => True
  | prev, x :: xs => Follows prev x ∧ Linked (some x) xs

/-- The frames are linked, and so is whatever is given next, with number `n`. -/
def Good (prev : Option Item) (xs : List Item) (n : ℕ) : Prop :=
  ∀ x : Item, x.number = n → Linked prev (xs ++ [x])

/-- The frames are linked among themselves. -/
def Inner (n : ℕ) : List Item → Prop
  | [] => True
  | x :: xs => Good (some x) xs n

/-- The frames are linked among themselves and start with a key frame. -/
def Headed (xs : List Item) (n : ℕ) : Prop := Inner n xs ∧ ∃ k ks, xs = k :: ks ∧ IsKey k

theorem follows_next {y x : Item} (h : y.number + 1 = x.number) : Follows (some y) x :=
  Or.inr (Or.inr ⟨y, rfl, h⟩)

theorem linked_append {prev : Option Item} {xs : List Item} {y x : Item}
    (h : Linked prev (xs ++ [y])) (hx : Follows (some y) x) : Linked prev (xs ++ [y] ++ [x]) := by
  induction xs generalizing prev with
  | nil => exact ⟨h.1, hx, trivial⟩
  | cons z xs ih => exact ⟨h.1, ih h.2⟩

theorem Good.put {prev : Option Item} {xs : List Item} {n : ℕ} {y : Item} (h : Good prev xs n)
    (hy : y.number = n) : Good prev (xs ++ [y]) (n + 1) := by
  intro x hx
  exact linked_append (h y hy) (follows_next (by omega))

theorem Good.cons {prev : Option Item} {x : Item} {xs : List Item} {n : ℕ}
    (h : Good prev (x :: xs) n) : Follows prev x ∧ Good (some x) xs n :=
  ⟨(h ⟨n, []⟩ rfl).1, fun y hy => (h y hy).2⟩

theorem Good.inner {prev : Option Item} {xs : List Item} {n : ℕ} (h : Good prev xs n) :
    Inner n xs := by
  cases xs with
  | nil => trivial
  | cons x xs => exact h.cons.2

theorem Inner.put {xs : List Item} {n : ℕ} {y : Item} (h : Inner n xs) (hy : y.number = n) :
    Inner (n + 1) (xs ++ [y]) := by
  cases xs with
  | nil => exact fun x hx => ⟨follows_next (by omega), trivial⟩
  | cons x xs => exact Good.put h hy

theorem Inner.tail {x : Item} {xs : List Item} {n : ℕ} (h : Inner n (x :: xs)) : Inner n xs :=
  Good.inner h

theorem Inner.good_of_key {k : Item} {ks : List Item} {n : ℕ} (h : Inner n (k :: ks))
    (hk : IsKey k) (prev : Option Item) : Good prev (k :: ks) n :=
  fun x hx => ⟨Or.inl hk, h x hx⟩

theorem Headed.good {xs : List Item} {n : ℕ} (h : Headed xs n) (prev : Option Item) :
    Good prev xs n := by
  obtain ⟨hinner, k, ks, rfl, hk⟩ := h
  exact hinner.good_of_key hk prev

theorem Headed.put {xs : List Item} {n : ℕ} {y : Item} (h : Headed xs n) (hy : y.number = n) :
    Headed (xs ++ [y]) (n + 1) := by
  obtain ⟨hinner, k, ks, rfl, hk⟩ := h
  exact ⟨hinner.put hy, k, ks ++ [y], rfl, hk⟩

/-! ## Results of `getData` -/

/-- What the previous call returned. -/
def previous (returned : List (Option Item)) : Option Item := returned.getLast?.join

/-- Every frame returned may come after what the call before it returned. -/
def Untorn (returned : List (Option Item)) : Prop :=
  ∀ before x after, returned = before ++ some x :: after → Follows (previous before) x

theorem Untorn.append {returned : List (Option Item)} {r : Option Item} (h : Untorn returned)
    (hr : ∀ x, r = some x → Follows (previous returned) x) : Untorn (returned ++ [r]) := by
  intro before x after heq
  rcases List.eq_nil_or_concat after with rfl | ⟨after, y, rfl⟩
  · obtain ⟨rfl, hx⟩ := List.append_inj' heq rfl
    exact hr x (by simpa using hx)
  · rw [List.concat_eq_append, ← List.cons_append, ← List.append_assoc] at heq
    exact h before x after (List.append_inj' heq rfl).1

@[simp] theorem previous_append (returned : List (Option Item)) (r : Option Item) :
    previous (returned ++ [r]) = r := by
  simp [previous]

/-! ## The invariant -/

/-- The values of a list of cells. -/
def values (cells : List (Cell Item)) : List Item := cells.map Cell.value

/-- What holds of the queue while the decode thread is where it is; `prev` is the result of
its previous call, `n` the number of frames given and `t` the number of calls. -/
def Position (q : Queue Item) (prev : Option Item) (n t : ℕ) : Consumer → Prop
  | .idle => Good prev q.values n ∨ 10 ≤ t ∧ Reaches NoFlag q.values
  | .beforeFirstScan _ => 10 ≤ t ∧ (Good prev q.values n ∨ Reaches NoFlag q.values)
  | .firstScan _ it count => 10 ≤ t ∧ ∃ passed unseen, it.Tracks q passed unseen ∧
      (∀ c ∈ passed, IsPlain c.value) ∧ count = passed.length ∧
      (Good prev q.values n ∨ Reaches NoFlag (values it.ahead))
  | .beforeFirstPass _ => Reaches IsKey q.values ∧ Inner n q.values
  | .firstPass _ it => ∃ unseen, it.Tracks q [] unseen ∧ Reaches IsKey (values it.ahead) ∧
      Inner n q.values
  | .firstRemoval _ it ticket => ∃ c unseen, c.ticket = ticket ∧ it.Tracks q [c] unseen ∧
      Reaches IsKey (values it.ahead) ∧ Inner n q.values
  | .measuring _ => Headed q.values n
  | .beforeSecondScan => Headed q.values n
  | .secondScan _ _ _ => Headed q.values n
  | .beforeSecondPass => Headed q.values n
  | .secondPass it false dropped => dropped = false ∧ Headed q.values n ∧
      it.ahead ≠ [] ∧ ∃ unseen, it.Tracks q [] unseen
  | .secondPass it true dropped => (dropped = false → Headed q.values n) ∧
      ∃ k unseen, IsKey k.value ∧ it.Tracks q [k] unseen ∧ Inner n (values (it.ahead ++ unseen))
  | .secondRemoval it secondKeyFrame ticket => secondKeyFrame = true ∧
      ∃ k c unseen, IsKey k.value ∧ c.ticket = ticket ∧ it.Tracks q [k, c] unseen ∧
        Inner n (values (c :: it.ahead ++ unseen))
  | .taking => Good prev q.values n

structure Whole (s : State) : Prop where
  alone : s.producer = .idle
  untorn : Untorn s.returned
  position : Position s.mPlayQueue1 (previous s.returned) s.given.length s.mTakeCount1 s.consumer

/-- A second pass that has removed a frame does not come to an end without a key frame: it
always has a next frame with a flag byte to look at. -/
def FindsKey (s : State) (i : Input) : Prop :=
  i = .consumer → ∀ it second, s.consumer = .secondPass it second true →
    ∃ c ahead, it.ahead = c :: ahead ∧ c.value.frame ≠ []

/-- The iterator of a second pass that has removed a frame. -/
def removed : Consumer → Option (Iterator Item)
  | .secondPass it _ true => some it
  | _ => none

theorem findsKey_iff {s : State} {i : Input} : FindsKey s i ↔ (i = .consumer →
    ∀ it ∈ removed s.consumer, ∃ c ∈ it.ahead.head?, c.value.frame ≠ []) := by
  refine imp_congr_right fun _ => ⟨fun h it hit => ?_, fun h it second hc => ?_⟩
  · unfold removed at hit
    split at hit
    · rename_i it' second hc
      obtain ⟨c, ahead, hahead, hne⟩ := h it' second hc
      cases hit
      exact ⟨c, by rw [hahead]; rfl, hne⟩
    · cases hit
  · obtain ⟨c, hc, hne⟩ := h it (by rw [hc]; rfl)
    exact ⟨c, it.ahead.tail, List.eq_cons_of_mem_head? hc, hne⟩

instance (s : State) (i : Input) : Decidable (FindsKey s i) := decidable_of_iff _ findsKey_iff.symm

theorem whole_initial : Whole .initial where
  alone := rfl
  untorn := by
    intro before x after h
    simp [State.initial] at h
  position := Or.inl fun x hx => ⟨Or.inr (Or.inl hx), trivial⟩

/-! ## Steps of the receive thread and of the iterators -/

section Insert

variable {q : Queue Item} {n : ℕ} {x : Item}

theorem Good.insert {prev : Option Item} (h : Good prev q.values n) (hx : x.number = n) :
    Good prev (q.insert x).values (n + 1) := by
  rw [Queue.values_insert]
  exact h.put hx

theorem Inner.insert (h : Inner n q.values) (hx : x.number = n) :
    Inner (n + 1) (q.insert x).values := by
  rw [Queue.values_insert]
  exact h.put hx

theorem Headed.insert (h : Headed q.values n) (hx : x.number = n) :
    Headed (q.insert x).values (n + 1) := by
  rw [Queue.values_insert]
  exact h.put hx

theorem Reaches.insert {P : Item → Prop} (h : Reaches P q.values) :
    Reaches P (q.insert x).values := by
  rw [Queue.values_insert]
  exact h.append [x]

theorem Position.put {prev : Option Item} {t : ℕ} {c : Consumer} (h : Position q prev n t c)
    (hx : x.number = n) : Position (q.insert x) prev (n + 1) t c := by
  cases c with
  | idle => exact h.imp (fun hgood => hgood.insert hx) (fun hstuck => ⟨hstuck.1, hstuck.2.insert⟩)
  | beforeFirstScan size1 =>
      exact ⟨h.1, h.2.imp (fun hgood => hgood.insert hx) (fun hstuck => hstuck.insert)⟩
  | firstScan size1 it count =>
      obtain ⟨ht, passed, unseen, htracks, hplain, hcount, hgood⟩ := h
      exact ⟨ht, passed, _, htracks.insert x, hplain, hcount,
        hgood.imp_left fun hgood => hgood.insert hx⟩
  | beforeFirstPass size1 => exact ⟨h.1.insert, h.2.insert hx⟩
  | firstPass size1 it =>
      obtain ⟨unseen, htracks, hreaches, hinner⟩ := h
      exact ⟨_, htracks.insert x, hreaches, hinner.insert hx⟩
  | firstRemoval size1 it ticket =>
      obtain ⟨c, unseen, hticket, htracks, hreaches, hinner⟩ := h
      exact ⟨c, _, hticket, htracks.insert x, hreaches, hinner.insert hx⟩
  | measuring size1 => exact Headed.insert h hx
  | beforeSecondScan => exact Headed.insert h hx
  | secondScan it first second => exact Headed.insert h hx
  | beforeSecondPass => exact Headed.insert h hx
  | secondPass it second dropped =>
      cases second with
      | false =>
          obtain ⟨hdropped, hheaded, hahead, unseen, htracks⟩ := h
          exact ⟨hdropped, hheaded.insert hx, hahead, _, htracks.insert x⟩
      | true =>
          obtain ⟨hheaded, k, unseen, hk, htracks, hinner⟩ := h
          refine ⟨fun hdropped => (hheaded hdropped).insert hx, k, _, hk, htracks.insert x, ?_⟩
          simpa [values] using hinner.put hx
  | secondRemoval it second ticket =>
      obtain ⟨hsecond, k, c, unseen, hk, hticket, htracks, hinner⟩ := h
      refine ⟨hsecond, k, c, _, hk, hticket, htracks.insert x, ?_⟩
      simpa [values] using hinner.put hx
  | taking => exact Good.insert h hx

end Insert

theorem Position.reveal {q : Queue Item} {prev : Option Item} {n t m : ℕ} {c : Consumer}
    (h : Position q prev n t c) (hm : m ≤ q.issued) :
    Position q prev n t (c.mapIterator fun it => it.reveal q m) := by
  cases c with
  | firstScan size1 it count =>
      obtain ⟨ht, passed, unseen, htracks, hplain, hcount, hgood⟩ := h
      obtain ⟨shown, hidden, -, hahead, hnext⟩ := htracks.reveal hm
      refine ⟨ht, passed, hidden, hnext, hplain, hcount, hgood.imp_right fun hstuck => ?_⟩
      rw [hahead, values, List.map_append]
      exact hstuck.append _
  | firstPass size1 it =>
      obtain ⟨unseen, htracks, hreaches, hinner⟩ := h
      obtain ⟨shown, hidden, -, hahead, hnext⟩ := htracks.reveal hm
      refine ⟨hidden, hnext, ?_, hinner⟩
      rw [hahead, values, List.map_append]
      exact hreaches.append _
  | firstRemoval size1 it ticket =>
      obtain ⟨c, unseen, hticket, htracks, hreaches, hinner⟩ := h
      obtain ⟨shown, hidden, -, hahead, hnext⟩ := htracks.reveal hm
      refine ⟨c, hidden, hticket, hnext, ?_, hinner⟩
      rw [hahead, values, List.map_append]
      exact hreaches.append _
  | secondPass it second dropped =>
      cases second with
      | false =>
          obtain ⟨hdropped, hheaded, hne, unseen, htracks⟩ := h
          obtain ⟨shown, hidden, -, hahead, hnext⟩ := htracks.reveal hm
          exact ⟨hdropped, hheaded, by simp [hahead, hne], hidden, hnext⟩
      | true =>
          obtain ⟨hheaded, k, unseen, hk, htracks, hinner⟩ := h
          obtain ⟨shown, hidden, rfl, hahead, hnext⟩ := htracks.reveal hm
          exact ⟨hheaded, k, hidden, hk, hnext, by simpa [hahead] using hinner⟩
  | secondRemoval it second ticket =>
      obtain ⟨hsecond, k, c, unseen, hk, hticket, htracks, hinner⟩ := h
      obtain ⟨shown, hidden, rfl, hahead, hnext⟩ := htracks.reveal hm
      exact ⟨hsecond, k, c, hidden, hk, hticket, hnext, by simpa [hahead] using hinner⟩
  | _ => exact h

/-- Nobody but the decode thread removes anything, so no iterator has a removal to reflect. -/
theorem Position.forget {q : Queue Item} {prev : Option Item} {n t : ℕ} {c : Consumer}
    (h : Position q prev n t c) (ticket : ℕ) :
    Position q prev n t (c.mapIterator fun it => it.forget q ticket) := by
  cases c with
  | firstScan size1 it count =>
      obtain ⟨-, passed, unseen, htracks, -⟩ := id h
      rw [Consumer.mapIterator, htracks.forget]
      exact h
  | firstPass size1 it =>
      obtain ⟨unseen, htracks, -⟩ := id h
      rw [Consumer.mapIterator, htracks.forget]
      exact h
  | firstRemoval size1 it ticket' =>
      obtain ⟨c, unseen, -, htracks, -⟩ := id h
      rw [Consumer.mapIterator, htracks.forget]
      exact h
  | secondPass it second dropped =>
      cases second with
      | false =>
          obtain ⟨-, -, -, unseen, htracks⟩ := id h
          rw [Consumer.mapIterator, htracks.forget]
          exact h
      | true =>
          obtain ⟨-, k, unseen, -, htracks, -⟩ := id h
          rw [Consumer.mapIterator, htracks.forget]
          exact h
  | secondRemoval it second ticket' =>
      obtain ⟨-, k, c, unseen, -, -, htracks, -⟩ := id h
      rw [Consumer.mapIterator, htracks.forget]
      exact h
  | _ => exact h

/-! ## Steps of the decode thread -/

theorem key_or_plain {x : Item} {key : Bool} (h : hasKeyFlag x.frame = .ok key) :
    (key = true → IsKey x) ∧ (key = false → IsPlain x) := by
  constructor <;> rintro rfl <;> exact h

theorem frame_eq_nil {x : Item} {e : JavaException} (h : hasKeyFlag x.frame = .error e) :
    x.frame = [] := by
  by_contra hne
  rw [hasKeyFlag, flags, List.getLast?_eq_some_getLast hne, ok_bind] at h
  cases h

section Tracked

variable {it : Iterator Item} {q : Queue Item} {passed unseen : List (Cell Item)}

theorem values_of_tracks (h : it.Tracks q passed unseen) :
    q.values = values passed ++ values it.ahead ++ values unseen := by
  rw [Queue.values, h.cells, List.map_append, List.map_append]
  rfl

/-- After a removal the queue starts with what is ahead of the iterator. -/
theorem inner_remove {c : Cell Item} {n : ℕ} (h : it.Tracks q [c] unseen) (hinner : Inner n q.values) :
    Inner n (q.remove c.ticket).values := by
  have hremoved : it.Tracks (q.remove c.ticket) [] unseen := Iterator.Tracks.remove h
  rw [values_of_tracks hremoved]
  rw [values_of_tracks h] at hinner
  exact hinner.tail

end Tracked

/-- A step of the decode thread that neither returns nor changes the queue. -/
theorem Whole.move {s : State} (h : Whole s) {c : Consumer}
    (hc : Position s.mPlayQueue1 (previous s.returned) s.given.length s.mTakeCount1 c) :
    Whole { s with consumer := c } :=
  ⟨h.alone, h.untorn, hc⟩

/-- A call that ends in an exception returns null. -/
theorem Whole.fail {s : State} (h : Whole s)
    (hnull : Headed s.mPlayQueue1.values s.given.length ∨
      10 ≤ s.mTakeCount1 ∧ Reaches NoFlag s.mPlayQueue1.values) :
    Whole { s with consumer := .idle, returned := s.returned ++ [none] } := by
  refine ⟨h.alone, h.untorn.append (by simp), ?_⟩
  rw [previous_append]
  exact hnull.imp_left fun hheaded => hheaded.good none

/-- What a look at the next frame has to establish in each of its three outcomes. -/
theorem whole_look {s : State} {it : Iterator Item} {finished : Consumer}
    {frame : Cell Item → Iterator Item → Bool → Consumer} (h : Whole s)
    (hend : it.ahead = [] → Position s.mPlayQueue1 (previous s.returned) s.given.length
      s.mTakeCount1 finished)
    (hframe : ∀ c ahead key, it.ahead = c :: ahead → (key = true → IsKey c.value) →
      (key = false → IsPlain c.value) → Position s.mPlayQueue1 (previous s.returned)
        s.given.length s.mTakeCount1 (frame c { it with ahead } key))
    (hfail : ∀ c ahead, it.ahead = c :: ahead → c.value.frame = [] → NoFlag c.value →
      Headed s.mPlayQueue1.values s.given.length ∨
        10 ≤ s.mTakeCount1 ∧ Reaches NoFlag s.mPlayQueue1.values) :
    Whole (look s it finished frame) := by
  unfold look
  split
  · rename_i hahead
    exact h.move (hend hahead)
  · rename_i c ahead hahead
    split
    · rename_i key hkey
      exact h.move (hframe c ahead key hahead (key_or_plain hkey).1 (key_or_plain hkey).2)
    · rename_i e he
      exact h.fail (hfail c ahead hahead (frame_eq_nil he) ⟨e, he⟩)

theorem plain_not_noFlag {x : Item} (hx : IsPlain x) : ¬ NoFlag x := by
  rintro ⟨e, he⟩
  rw [hx] at he
  cases he

theorem key_not_noFlag {x : Item} (hx : IsKey x) : ¬ NoFlag x := by
  rintro ⟨e, he⟩
  rw [hx] at he
  cases he

theorem key_not_plain {x : Item} (hx : IsKey x) : ¬ IsPlain x := by
  intro h
  rw [IsPlain, hx] at h
  cases h

/-- The first scan stops at a key frame; only when plain frames stand before it are they
going to be removed. -/
theorem whole_firstScan {s : State} (h : Whole s) {size1 : ℕ} {it : Iterator Item} {count : ℕ}
    (hc : s.consumer = .firstScan size1 it count) :
    Whole (look s it .taking fun _ it key =>
      if key then if 1 < count + 1 then .beforeFirstPass size1 else .taking
      else .firstScan size1 it (count + 1)) := by
  have hpos := h.position
  rw [hc] at hpos
  obtain ⟨ht, passed, unseen, htracks, hplain, hcount, hgood⟩ := hpos
  have hvalues := values_of_tracks htracks
  have hplain' : ∀ x ∈ values passed, IsPlain x := by
    intro x hx
    obtain ⟨c, hmem, rfl⟩ := List.mem_map.mp hx
    exact hplain c hmem
  refine whole_look h ?_ ?_ ?_
  · intro hahead
    refine hgood.resolve_right fun hstuck => ?_
    rw [hahead] at hstuck
    exact not_reaches_nil hstuck
  · intro c ahead key hahead hkey hnot
    rw [hahead] at hvalues hgood
    cases key with
    | true =>
        have hgood : Good (previous s.returned) s.mPlayQueue1.values s.given.length := by
          refine hgood.resolve_right fun hstuck => ?_
          rcases reaches_cons hstuck with hno | ⟨hpl, -⟩
          · exact key_not_noFlag (hkey rfl) hno
          · exact key_not_plain (hkey rfl) hpl
        simp only [if_true]
        split
        · refine ⟨⟨values passed, c.value, values ahead ++ values unseen, ?_, hplain', hkey rfl⟩,
            hgood.inner⟩
          rw [hvalues]
          simp [values]
        · exact hgood
    | false =>
        refine ⟨ht, passed ++ [c], unseen, htracks.next hahead, ?_, by simp [hcount], ?_⟩
        · intro d hd
          rcases List.mem_append.mp hd with hd | hd
          · exact hplain d hd
          · rw [List.mem_singleton.mp hd]
            exact hnot rfl
        · refine hgood.imp_right fun hstuck => ?_
          rcases reaches_cons hstuck with hno | ⟨-, hrest⟩
          · exact absurd hno (plain_not_noFlag (hnot rfl))
          · exact hrest
  · intro c ahead hahead _ hno
    rw [hahead] at hvalues
    refine Or.inr ⟨ht, values passed, c.value, values ahead ++ values unseen, ?_, hplain', hno⟩
    rw [hvalues]
    simp [values]

/-- The first pass removes plain frames from the head until a key frame is the head. -/
theorem whole_firstPass {s : State} (h : Whole s) {size1 : ℕ} {it : Iterator Item}
    (hc : s.consumer = .firstPass size1 it) :
    Whole (look s it (.measuring size1) fun c it key =>
      if key then .measuring size1 else .firstRemoval size1 it c.ticket) := by
  have hpos := h.position
  rw [hc] at hpos
  obtain ⟨unseen, htracks, hreaches, hinner⟩ := hpos
  have hvalues := values_of_tracks htracks
  refine whole_look h ?_ ?_ ?_
  · intro hahead
    rw [hahead] at hreaches
    exact absurd hreaches not_reaches_nil
  · intro c ahead key hahead hkey hnot
    rw [hahead] at hvalues hreaches
    cases key with
    | true =>
        refine ⟨hinner, c.value, values ahead ++ values unseen, ?_, hkey rfl⟩
        rw [hvalues]
        simp [values]
    | false =>
        refine ⟨c, unseen, rfl, htracks.next hahead, ?_, hinner⟩
        rcases reaches_cons hreaches with hk | ⟨-, hrest⟩
        · exact absurd (hnot rfl) (key_not_plain hk)
        · exact hrest
  · intro c ahead hahead _ hno
    rw [hahead] at hreaches
    rcases reaches_cons hreaches with hk | ⟨hpl, -⟩
    · exact absurd hno (key_not_noFlag hk)
    · exact absurd hno (plain_not_noFlag hpl)

theorem whole_firstRemoval {s : State} (h : Whole s) {size1 ticket : ℕ} {it : Iterator Item}
    (hc : s.consumer = .firstRemoval size1 it ticket) :
    Whole { s with
      mPlayQueue1 := s.mPlayQueue1.remove ticket
      consumer := .firstPass size1 it } := by
  have hpos := h.position
  rw [hc] at hpos
  obtain ⟨c, unseen, rfl, htracks, hreaches, hinner⟩ := hpos
  have hremoved : it.Tracks (s.mPlayQueue1.remove c.ticket) [] unseen :=
    Iterator.Tracks.remove htracks
  exact ⟨h.alone, h.untorn, unseen, hremoved, hreaches, inner_remove htracks hinner⟩

/-- The second pass keeps the key frame at the head and removes the plain frames behind it. -/
theorem whole_secondPass {s : State} (h : Whole s) {it : Iterator Item} {second dropped : Bool}
    (hc : s.consumer = .secondPass it second dropped) (hfinds : FindsKey s .consumer) :
    Whole (look s it .taking fun c it key =>
      if key then if second then .taking else .secondPass it true dropped
      else .secondRemoval it second c.ticket) := by
  have hpos := h.position
  rw [hc] at hpos
  have hnext : dropped = true → ∃ c ahead, it.ahead = c :: ahead ∧ c.value.frame ≠ [] := by
    rintro rfl
    exact hfinds rfl it second hc
  cases second with
  | false =>
      obtain ⟨rfl, hheaded, hne, unseen, htracks⟩ := hpos
      have hvalues := values_of_tracks htracks
      refine whole_look h (fun hahead => absurd hahead hne) ?_ fun _ _ _ _ _ => Or.inl hheaded
      intro c ahead key hahead hkey hnot
      rw [hahead] at hvalues
      obtain ⟨hinner, k, ks, hqueue, hk⟩ := id hheaded
      obtain ⟨rfl, hks⟩ := List.cons.inj (hqueue.symm.trans hvalues)
      cases key with
      | true =>
          refine ⟨fun _ => hheaded, c, unseen, hk, htracks.next hahead, ?_⟩
          rw [hqueue, hks] at hinner
          simpa [values] using hinner.tail
      | false => exact absurd (hnot rfl) (key_not_plain hk)
  | true =>
      obtain ⟨hheaded, k, unseen, hk, htracks, hinner⟩ := hpos
      have hvalues := values_of_tracks htracks
      -- without a further key frame the pass must not have removed anything
      refine whole_look h ?_ ?_ ?_
      · intro hahead
        refine (hheaded ?_).good _
        by_contra hdropped
        obtain ⟨c, ahead, hcons, -⟩ := hnext (by simpa using hdropped)
        rw [hahead] at hcons
        cases hcons
      · intro c ahead key hahead hkey hnot
        rw [hahead] at hvalues hinner
        cases key with
        | true =>
            have hrest : Inner s.given.length (k.value :: values (c :: ahead ++ unseen)) :=
              hinner.good_of_key (hkey rfl) (some k.value)
            have hqueue : s.mPlayQueue1.values = k.value :: values (c :: ahead ++ unseen) := by
              rw [hvalues]
              simp [values]
            exact Headed.good ⟨hqueue ▸ hrest, k.value, _, hqueue, hk⟩ _
        | false => exact ⟨rfl, k, c, unseen, hk, rfl, htracks.next hahead, hinner⟩
      · intro c ahead hahead hempty _
        refine Or.inl (hheaded ?_)
        by_contra hdropped
        obtain ⟨d, rest, hcons, hframe⟩ := hnext (by simpa using hdropped)
        rw [hahead] at hcons
        obtain ⟨rfl, -⟩ := List.cons.inj hcons
        exact hframe hempty

theorem whole_secondRemoval {s : State} (h : Whole s) {second : Bool} {ticket : ℕ}
    {it : Iterator Item} (hc : s.consumer = .secondRemoval it second ticket) :
    Whole { s with
      mPlayQueue1 := s.mPlayQueue1.remove ticket
      consumer := .secondPass it second true } := by
  have hpos := h.position
  rw [hc] at hpos
  obtain ⟨rfl, k, c, unseen, hk, rfl, htracks, hinner⟩ := hpos
  have hremoved : it.Tracks (s.mPlayQueue1.remove c.ticket) [k] unseen :=
    @Iterator.Tracks.remove _ it s.mPlayQueue1 [k] unseen c htracks
  exact ⟨h.alone, h.untorn, by simp, k, unseen, hk, hremoved, hinner.tail⟩

theorem whole_taking {s : State} (h : Whole s) (hc : s.consumer = .taking) {item : Item}
    {queue : Queue Item} (hpoll : s.mPlayQueue1.poll = some (item, queue)) :
    Whole { s with
      mPlayQueue1 := queue, consumer := .idle, returned := s.returned ++ [some item] } := by
  have hpos : Good (previous s.returned) s.mPlayQueue1.values s.given.length := by
    have hpos := h.position
    rwa [hc] at hpos
  rw [Queue.poll_eq_some hpoll] at hpos
  refine ⟨h.alone, h.untorn.append ?_, ?_⟩
  · intro x hx
    obtain rfl := Option.some.inj hx
    exact hpos.cons.1
  · rw [previous_append]
    exact Or.inl hpos.cons.2

theorem whole_consume {s : State} (h : Whole s) (hfinds : FindsKey s .consumer) :
    Whole (consume s) := by
  have hpos := h.position
  unfold consume
  split
  case h_1 hc =>
    rw [hc] at hpos
    refine ⟨h.alone, h.untorn, ?_⟩
    dsimp only
    split
    · rename_i ht
      exact ⟨Nat.le_succ_of_le ht, hpos.imp id And.right⟩
    · rename_i ht
      exact hpos.resolve_right fun hstuck => ht hstuck.1
  case h_2 size1 hc =>
    rw [hc] at hpos
    exact h.move ⟨hpos.1, [], [], Iterator.tracks_iterator _, by simp, rfl, hpos.2⟩
  case h_3 hc => exact whole_firstScan h hc
  case h_4 size1 hc =>
    rw [hc] at hpos
    exact h.move ⟨[], Iterator.tracks_iterator _, hpos.1, hpos.2⟩
  case h_5 hc => exact whole_firstPass h hc
  case h_6 hc => exact whole_firstRemoval h hc
  case h_7 size1 hc =>
    rw [hc] at hpos
    refine h.move ?_
    split
    · exact hpos
    · exact Headed.good hpos _
  case h_8 hc =>
    rw [hc] at hpos
    exact h.move hpos
  case h_9 it first second hc =>
    have hheaded : Headed s.mPlayQueue1.values s.given.length := by rwa [hc] at hpos
    refine whole_look h ?_ ?_ fun _ _ _ _ _ => Or.inl hheaded
    · intro _
      split
      · exact hheaded
      · exact hheaded.good _
    · intro c ahead key _ _ _
      split
      · exact hheaded
      · exact hheaded
  case h_10 hc =>
    rw [hc] at hpos
    obtain ⟨-, k, ks, hqueue, -⟩ := id hpos
    refine h.move ⟨rfl, hpos, fun hnil => ?_, [], Iterator.tracks_iterator _⟩
    have hcells : s.mPlayQueue1.cells = [] := hnil
    rw [Queue.values, hcells] at hqueue
    cases hqueue
  case h_11 hc => exact whole_secondPass h hc hfinds
  case h_12 hc => exact whole_secondRemoval h hc
  case h_13 hc =>
    split
    · rename_i item queue hpoll
      exact whole_taking h hc hpoll
    · exact h

theorem whole_next {s : State} {i : Input} (h : Whole s) (hi : i ≠ .drainFrame)
    (hfinds : FindsKey s i) : Whole (next s i) := by
  cases i with
  | putData frame =>
      rw [next, if_pos h.alone, putData]
      split
      · rename_i queue hoffer
        rw [Queue.offer_eq_some hoffer]
        refine ⟨h.alone, h.untorn, ?_⟩
        rw [List.length_append]
        exact h.position.put rfl
      · exact h
  | drainFrame => exact absurd rfl hi
  | producer =>
      rw [next, produce, h.alone]
      exact h
  | consumer => exact whole_consume h hfinds
  | reveal n => exact ⟨h.alone, h.untorn, h.position.reveal (Nat.min_le_right _ _)⟩
  | forget ticket => exact ⟨h.alone, h.untorn, h.position.forget ticket⟩

/-- While every second pass that removed a frame ends at a key frame, a frame returned that
is no key frame and not the first of all comes right after the frame returned before. -/
theorem returned_untorn {is : List Input} {s : State} (hputs : ∀ i ∈ is, i ≠ .drainFrame)
    (hmeets : Machine.Meets step (fun _ s i => FindsKey s i) [] .initial is)
    (h : Machine.final step .initial is = .ok s) {before after : List (Option Item)} {x : Item}
    (hx : s.returned = before ++ some x :: after) (hkey : hasKeyFlag x.frame ≠ .ok true)
    (hfirst : x.number ≠ 0) :
    ∃ p, before.getLast? = some (some p) ∧ p.number + 1 = x.number := by
  have hwhole : Whole s := Machine.final_of_meets Whole
    (fun past s i s' out hs hi hstep => by
      cases hstep
      exact whole_next hs hi.2 hi.1)
    whole_initial (Machine.meets_and hmeets (Machine.meets_of_mem hputs)) h
  rcases hwhole.untorn before x after hx with hyes | hzero | ⟨p, hp, hnumber⟩
  · exact absurd hyes hkey
  · exact absurd hzero hfirst
  · refine ⟨p, ?_, hnumber⟩
    rw [previous, Option.join_eq_some_iff] at hp
    exact hp

/-- Ten calls that return one key frame each, so that the eleventh call drains. -/
def tenCalls : List Input :=
  (List.replicate 10 [Input.putData [7, 1, 1], .consumer, .consumer]).flatten

/-- The eleventh call removes the frame before the first key frame and the one behind it, up to the
second key frame; the calls after it return that and the frame behind. -/
def drainedGroups : List Input :=
  tenCalls ++ [.putData [8, 1, 0], .putData [7, 1, 1], .putData [8, 2, 0], .putData [7, 2, 1],
    .putData [9, 2, 0]] ++ List.replicate 28 .consumer

theorem returned_untorn_drainedGroups : ∃ p : Item,
    ((drainedGroups.foldl next .initial).returned.take 12).getLast? = some (some p) ∧
      p.number + 1 = 14 := by
  have hreturned : (drainedGroups.foldl next .initial).returned =
      (drainedGroups.foldl next .initial).returned.take 12 ++ some ⟨14, [9, 2, 0]⟩ :: [] := by
    decide +kernel
  exact returned_untorn (by decide +kernel) (by decide +kernel) (final_step _ _) hreturned
    (by decide +kernel) (by decide)

/-- A frame and a key frame are given, and the eleventh call removes the frame. Its scan for
a second key frame ends on the first one, and its second pass comes next. -/
def loneKey : List Input :=
  tenCalls ++ [.putData [8, 1, 0], .putData [7, 1, 1]] ++ List.replicate 12 .consumer

/-- The frame given now is removed by the second pass, the one given later is returned. -/
def tornGroup : List Input :=
  loneKey ++ [.putData [8, 1, 0]] ++ List.replicate 6 .consumer ++ [.putData [9, 1, 0]] ++
    List.replicate 5 .consumer

theorem tears_group : ¬ ∀ (is : List Input) (s : State), (∀ i ∈ is, i ≠ .drainFrame) →
    Machine.final step .initial is = .ok s →
    ∀ (before after : List (Option Item)) (x : Item), s.returned = before ++ some x :: after →
      hasKeyFlag x.frame ≠ .ok true → x.number ≠ 0 →
      ∃ p, before.getLast? = some (some p) ∧ p.number + 1 = x.number := by
  intro h
  have hreturned : (tornGroup.foldl next .initial).returned =
      (tornGroup.foldl next .initial).returned.take 11 ++ [some ⟨13, [9, 1, 0]⟩] := by
    decide +kernel
  obtain ⟨p, hp, hnumber⟩ := h tornGroup _ (by decide +kernel) (final_step _ _) _ _ _ hreturned
    (by decide +kernel) (by decide)
  have hlast : ((tornGroup.foldl next .initial).returned.take 11).getLast? =
      some (some ⟨11, [7, 1, 1]⟩) := by decide +kernel
  rw [hlast] at hp
  cases hp
  exact absurd hnumber (by decide)

end MirrorCast.PlayQueue
