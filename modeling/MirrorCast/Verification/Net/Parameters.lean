import MirrorCast.Program.Parameters

/-! # The body of a message as a dictionary -/

namespace MirrorCast.Parameters

open Java ParsedMessage

/-! ## Bodies -/

/-- A line, with everything behind the colon as its value. -/
structure Line where
  name : JString
  value : JString
  name_plain : ∀ c ∈ name, c ≠ 0x3a ∧ c ≠ 0x0d ∧ c ≠ 0x0a
  value_oneLine : ¬ [0x0d, 0x0a] <:+: value

def Line.text (l : Line) : JString := l.name ++ 0x3a :: (l.value ++ [0x0d, 0x0a])

def body (lines : List Line) : JString := lines.flatMap Line.text

/-! ## The scanner -/

theorem scanValue_append {value : JString} (h : ¬ [0x0d, 0x0a] <:+: value) (rest : JString) :
    scanValue (value ++ 0x0d :: 0x0a :: rest) = (value, 0x0d :: 0x0a :: rest) := by
  induction value with
  | nil => exact if_pos ⟨rfl, rfl⟩
  | cons c value ih =>
      have htail := ih fun hin => h (List.infix_cons hin)
      cases value with
      | nil =>
          simp only [List.cons_append, List.nil_append, scanValue]
          exact if_neg (by omega)
      | cons d value =>
          have hends : ¬ (c = 0x0d ∧ d = 0x0a) := by
            rintro ⟨rfl, rfl⟩
            exact h ⟨[], value, rfl⟩
          rw [List.cons_append] at htail
          rw [List.cons_append, List.cons_append, scanValue, if_neg hends, htail]

/-- No line starts with a line end. -/
theorem skipLineEnds_body (lines : List Line) : skipLineEnds (body lines) = body lines := by
  cases lines with
  | nil => rfl
  | cons l lines =>
      rw [body, List.flatMap_cons, Line.text]
      cases hname : l.name with
      | nil => rfl
      | cons c name =>
          have hc := (l.name_plain c (hname ▸ List.mem_cons_self)).2.1
          simp only [List.cons_append]
          rw [skipLineEnds]
          intro data hstart
          exact hc (List.cons.inj hstart).1

theorem internalParse_cons (mDict : List (JString × JString)) (l : Line) (lines : List Line) :
    internalParse mDict (body (l :: lines)) =
      if l.name = [] then none
      else internalParse (put mDict l.name (trim l.value)) (body lines) := by
  have htext : body (l :: lines) =
      l.name ++ 0x3a :: (l.value ++ 0x0d :: 0x0a :: body lines) := by
    simp [body, Line.text]
  have hcolon : ∀ c ∈ l.name, decide (c ≠ 0x3a) = true := fun c hc =>
    decide_eq_true (l.name_plain c hc).1
  have htake : (body (l :: lines)).takeWhile (· ≠ 0x3a) = l.name := by
    rw [htext, List.takeWhile_append_of_pos hcolon, List.takeWhile_cons_of_neg (by simp),
      List.append_nil]
  have hdrop : (body (l :: lines)).dropWhile (· ≠ 0x3a) =
      0x3a :: (l.value ++ 0x0d :: 0x0a :: body lines) := by
    rw [htext, List.dropWhile_append_of_pos hcolon, List.dropWhile_cons_of_neg (by simp)]
  have hne : body (l :: lines) ≠ [] := by
    rw [htext]
    exact List.append_ne_nil_of_right_ne_nil _ (List.cons_ne_nil _ _)
  rw [internalParse, if_neg hne, htake]
  split
  · rename_i hrest
    rw [hdrop] at hrest
    cases hrest
  · rename_i hrest
    rw [hdrop] at hrest
    cases hrest
    rw [scanValue_append l.value_oneLine]
    dsimp only
    rw [show skipLineEnds (0x0d :: 0x0a :: body lines) = skipLineEnds (body lines) from rfl,
      skipLineEnds_body]

/-- The entry of a line, on top of the entries before it. -/
def addLine (mDict : List (JString × JString)) (l : Line) : List (JString × JString) :=
  put mDict l.name (trim l.value)

theorem internalParse_body (mDict : List (JString × JString)) (lines : List Line) :
    internalParse mDict (body lines) =
      if ∀ l ∈ lines, l.name ≠ [] then some (lines.foldl addLine mDict) else none := by
  induction lines generalizing mDict with
  | nil =>
      rw [if_pos (by simp), internalParse]
      exact if_pos rfl
  | cons l lines ih =>
      rw [internalParse_cons, ih]
      by_cases hname : l.name = []
      · rw [if_pos hname, if_neg fun h => h l List.mem_cons_self hname]
      · simp only [List.forall_mem_cons, ne_eq, hname, not_false_eq_true, true_and,
          List.foldl_cons]
        rfl

/-! ## The dictionary -/

theorem lookup_cons_of_ne {name key : JString} (h : name ≠ key) (value : JString)
    (mDict : List (JString × JString)) :
    ((key, value) :: mDict).lookup name = mDict.lookup name := by
  rw [List.lookup_cons, beq_eq_false_iff_ne.mpr h]

theorem lookup_put (mDict : List (JString × JString)) (key value name : JString) :
    (put mDict key value).lookup name = if name = key then some value else mDict.lookup name := by
  induction mDict with
  | nil =>
      rw [put]
      split
      · rename_i hname
        rw [hname, List.lookup_cons_self]
      · rename_i hname
        exact lookup_cons_of_ne hname _ _
  | cons entry mDict ih =>
      obtain ⟨entryKey, entryValue⟩ := entry
      by_cases hkey : entryKey = key
      · rw [put, if_pos hkey]
        split
        · rename_i hname
          rw [hname, List.lookup_cons_self]
        · rename_i hname
          rw [lookup_cons_of_ne hname, lookup_cons_of_ne (hkey ▸ hname)]
      · rw [put, if_neg hkey]
        by_cases hname : name = entryKey
        · rw [hname, List.lookup_cons_self, List.lookup_cons_self, if_neg hkey]
        · rw [lookup_cons_of_ne hname, lookup_cons_of_ne hname, ih]

/-- The last line with a property. -/
def lastLine (p : Line → Prop) [DecidablePred p] (lines : List Line) : Option Line :=
  (lines.filter p).getLast?

theorem lastLine_cons (p : Line → Prop) [DecidablePred p] (l : Line) (lines : List Line) :
    lastLine p (l :: lines) = (lastLine p lines).or (if p l then some l else none) := by
  unfold lastLine
  by_cases h : p l
  · rw [List.filter_cons_of_pos (by simpa using h), List.getLast?_cons, if_pos h]
    cases (lines.filter p).getLast? <;> rfl
  · rw [List.filter_cons_of_neg (by simpa using h), if_neg h, Option.or_none]

theorem lastLine_eq_none {p : Line → Prop} [DecidablePred p] {lines : List Line} :
    lastLine p lines = none ↔ ∀ l ∈ lines, ¬ p l := by
  simp [lastLine]

theorem lookup_addLines (mDict : List (JString × JString)) (lines : List Line) (name : JString) :
    (lines.foldl addLine mDict).lookup name =
      ((lastLine (fun l => l.name = name) lines).map fun l => trim l.value).or
        (mDict.lookup name) := by
  induction lines generalizing mDict with
  | nil => rfl
  | cons l lines ih =>
      rw [List.foldl_cons, ih, addLine, lookup_put, lastLine_cons]
      cases lastLine (fun l => l.name = name) lines with
      | some l' => rfl
      | none =>
          by_cases hname : l.name = name
          · simp [hname]
          · simp [hname, Ne.symm hname]

variable [CharData]

/-- The name in front of the colon is `name`, blanks around it and the case apart. -/
def Line.Means (name : JString) (l : Line) : Prop :=
  CharData.toLowerCase (trim l.name) = CharData.toLowerCase name

/-- The name in front of the colon is the key that is looked up for `name`. -/
def Line.Spells (name : JString) (l : Line) : Prop := l.name = CharData.toLowerCase name

instance (name : JString) : DecidablePred (Line.Means name) :=
  fun _ => inferInstanceAs (Decidable (_ = _))

instance (name : JString) : DecidablePred (Line.Spells name) :=
  fun _ => inferInstanceAs (Decidable (_ = _))

/-- What the body says about a name. -/
def dictionary (lines : List Line) (name : JString) : Option JString :=
  (lastLine (Line.Means name) lines).map fun l => trim l.value

/-- Every line has a name, and no line means `name` or spells it, or the last line that means it
and the last one that spells it (mostly the same) have the same value. -/
def WellSpelled (lines : List Line) (name : JString) : Prop :=
  (∀ l ∈ lines, l.name ≠ []) ∧
    ((∀ l ∈ lines, ¬ l.Means name ∧ ¬ l.Spells name) ∨
      ∃ l l', lastLine (Line.Means name) lines = some l ∧
        lastLine (Line.Spells name) lines = some l' ∧ trim l.value = trim l'.value)

theorem getParameter_addLines (lines : List Line) (name : JString) :
    getParameter (lines.foldl addLine []) name =
      (lastLine (Line.Spells name) lines).map fun l => trim l.value := by
  rw [getParameter, lookup_addLines, List.lookup_nil, Option.or_none]
  rfl

theorem getParameter_eq_dictionary (lines : List Line) (name : JString) :
    getParameter (lines.foldl addLine []) name = dictionary lines name ↔
      (∀ l ∈ lines, ¬ l.Means name ∧ ¬ l.Spells name) ∨
        ∃ l l', lastLine (Line.Means name) lines = some l ∧
          lastLine (Line.Spells name) lines = some l' ∧ trim l.value = trim l'.value := by
  rw [getParameter_addLines, dictionary, forall₂_and, ← lastLine_eq_none, ← lastLine_eq_none]
  cases lastLine (Line.Means name) lines with
  | none => cases lastLine (Line.Spells name) lines <;> simp
  | some l =>
      cases lastLine (Line.Spells name) lines with
      | none => simp
      | some l' => simp [eq_comm]

/-- Parsing and looking up a name gives what the body says about it exactly if every line has a
name and the line in question is spelled as the key. -/
theorem parse_dictionary_iff (lines : List Line) (name : JString) :
    (∃ params, parse (body lines) = some params ∧
        getParameter params name = dictionary lines name) ↔ WellSpelled lines name := by
  rw [parse, internalParse_body, WellSpelled, ← getParameter_eq_dictionary]
  by_cases hnames : ∀ l ∈ lines, l.name ≠ []
  · rw [if_pos hnames]
    constructor
    · rintro ⟨params, hparams, hvalue⟩
      cases hparams
      exact ⟨hnames, hvalue⟩
    · rintro ⟨-, hvalue⟩
      exact ⟨_, rfl, hvalue⟩
  · rw [if_neg hnames]
    exact iff_of_false nofun fun h => hnames h.1

omit [CharData]

/-- `Public: x` -/
def publicLine : Line := ⟨jstr "Public", jstr " x", by decide, by decide⟩

theorem parse_dictionary_fails : ¬ ∀ (_ : CharData) (lines : List Line) (name : JString),
    ∃ params, parse (body lines) = some params ∧
      getParameter params name = dictionary lines name := by
  intro h
  obtain ⟨params, hparse, hvalue⟩ := h .ascii [publicLine] (jstr "public")
  rw [parse, internalParse_body] at hparse
  cases hparse
  revert hvalue
  decide

end MirrorCast.Parameters
