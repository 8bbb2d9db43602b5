import MirrorCast.Library.Java
import Mathlib.Data.List.Infix

/-! # Java strings as sequences of UTF-16 code units -/

namespace Java

/-- A string, as its UTF-16 code units. -/
abbrev JString := List ℕ

/-- The code units of one character. -/
def utf16Char (c : Char) : JString :=
  if c.toNat < 0x10000 then [c.toNat]
  else [c.toNat / 0x400 + 0xd7c0, c.toNat % 0x400 + 0xdc00]

def utf16 (cs : List Char) : JString := cs.flatMap utf16Char

/-- A string constant. -/
def jstr (s : String) : JString := utf16 s.toList

/-- The values of the hexadecimal digits of ASCII. -/
def asciiHexDigit (c : ℕ) : Option ℕ :=
  if 48 ≤ c ∧ c ≤ 57 then some (c - 48)
  else if 65 ≤ c ∧ c ≤ 70 then some (c - 55)
  else if 97 ≤ c ∧ c ≤ 102 then some (c - 87)
  else none

/-- The Unicode tables of the platform, which depend on its version and on the locale: only
strings without capital letters and the digits and blanks of ASCII are the same everywhere. What
`\d` and `\p{XDigit}` stand for is a matter of code points. -/
class CharData where
  toLowerCase : JString → JString
  digit : ℕ → Option ℕ
  hexDigit : ℕ → Option ℕ
  isDigit : ℕ → Bool
  isXDigit : ℕ → Bool
  isSpace : ℕ → Bool
  toLowerCase_eq_self : ∀ {s : JString}, (∀ c ∈ s, c < 128 ∧ ¬ (65 ≤ c ∧ c ≤ 90)) →
    toLowerCase s = s
  digit_lt : ∀ {c d}, digit c = some d → d < 10
  digit_ascii : ∀ {c}, c < 128 → digit c = if 48 ≤ c ∧ c ≤ 57 then some (c - 48) else none
  hexDigit_lt : ∀ {c d}, hexDigit c = some d → d < 16
  hexDigit_ascii : ∀ {c}, c < 128 → hexDigit c = asciiHexDigit c
  isDigit_ascii : ∀ {c}, c < 128 → isDigit c = decide (48 ≤ c ∧ c ≤ 57)
  isXDigit_ascii : ∀ {c}, c < 128 → isXDigit c = (asciiHexDigit c).isSome
  /-- The platforms differ on the vertical tab. -/
  isSpace_ascii : ∀ {c}, c < 128 → c ≠ 0x0b →
    isSpace c = decide (c = 0x20 ∨ 9 ≤ c ∧ c ≤ 13)

/-- The tables restricted to ASCII. -/
@[reducible] def CharData.ascii : CharData where
  toLowerCase s := s.map fun c => if 65 ≤ c ∧ c ≤ 90 then c + 32 else c
  digit c := if 48 ≤ c ∧ c ≤ 57 then some (c - 48) else none
  hexDigit := asciiHexDigit
  isDigit c := decide (48 ≤ c ∧ c ≤ 57)
  isXDigit c := (asciiHexDigit c).isSome
  isSpace c := decide (c = 0x20 ∨ 9 ≤ c ∧ c ≤ 13)
  toLowerCase_eq_self {s} h := by
    conv_rhs => rw [← List.map_id s]
    exact List.map_congr_left fun c hc => if_neg (h c hc).2
  digit_lt {c d} h := by
    split at h
    · cases h
      omega
    · cases h
  digit_ascii _ := rfl
  hexDigit_lt {c d} h := by
    unfold asciiHexDigit at h
    split_ifs at h <;> cases h <;> omega
  hexDigit_ascii _ := rfl
  isDigit_ascii _ := rfl
  isXDigit_ascii _ := rfl
  isSpace_ascii _ _ := rfl

/-- `s.trim()` drops the characters up to the blank at both ends. -/
def trim (s : JString) : JString :=
  ((s.dropWhile (· ≤ 0x20)).reverse.dropWhile (· ≤ 0x20)).reverse

theorem length_trim_le (s : JString) : (trim s).length ≤ s.length := by
  have hfront := (List.dropWhile_suffix (fun c => decide (c ≤ 0x20)) (l := s)).length_le
  have hback := (List.dropWhile_suffix (fun c => decide (c ≤ 0x20))
    (l := (s.dropWhile fun c => decide (c ≤ 0x20)).reverse)).length_le
  rw [trim, List.length_reverse]
  rw [List.length_reverse] at hback
  exact hback.trans hfront

theorem trim_cons {c : ℕ} (h : c ≤ 0x20) (s : JString) : trim (c :: s) = trim s := by
  rw [trim, List.dropWhile_cons_of_pos (by simpa using h), trim]

/-- A text without blanks at its ends. -/
theorem trim_eq_self {s : JString} (hfirst : ∀ c ∈ s.head?, 0x20 < c)
    (hlast : ∀ c ∈ s.getLast?, 0x20 < c) : trim s = s := by
  have hkeep : ∀ t : JString, (∀ c ∈ t.head?, 0x20 < c) → t.dropWhile (· ≤ 0x20) = t := by
    intro t ht
    cases t with
    | nil => rfl
    | cons c t =>
        have hc := ht c rfl
        exact List.dropWhile_cons_of_neg (by simpa using hc)
  rw [trim, hkeep s hfirst, hkeep s.reverse (by rwa [List.head?_reverse]), List.reverse_reverse]

/-- `s.substring(beginIndex, endIndex)`. -/
def substring (s : JString) (beginIndex endIndex : ℤ) : Except JavaException JString :=
  if beginIndex < 0 ∨ (s.length : ℤ) < endIndex ∨ endIndex < beginIndex then
    .error .stringIndexOutOfBounds
  else .ok ((s.drop beginIndex.toNat).take (endIndex - beginIndex).toNat)

/-- `s.charAt(index)`. -/
def charAt (s : JString) (index : ℕ) : Except JavaException ℕ :=
  match s[index]? with
  | some c => .ok c
  | none => .error .stringIndexOutOfBounds

theorem charAt_eq_ok {s : JString} {index c : ℕ} : charAt s index = .ok c ↔ s[index]? = some c := by
  unfold charAt
  split
  · rename_i h
    simp [h]
  · rename_i h
    simp [h]

/-- The value of a string of decimal digits that starts with the value `acc`. -/
def parseDigits [CharData] (acc : ℕ) : JString → Option ℕ
  | [] => some acc
  | c :: s =>
      match CharData.digit c with
      | some d => parseDigits (acc * 10 + d) s
      | none => none

/-- `Integer.parseInt(s)`. -/
def parseInt [CharData] (s : JString) : Except JavaException ℤ :=
  let (negative, digits) :=
    match s with
    | [] => (false, [])
    | c :: rest => if c = 45 then (true, rest) else if c = 43 then (false, rest) else (false, s)
  if digits = [] then .error .numberFormat
  else
    match parseDigits 0 digits with
    | none => .error .numberFormat
    | some n =>
        let value : ℤ := if negative then -n else n
        if value < -2 ^ 31 ∨ 2 ^ 31 ≤ value then .error .numberFormat else .ok value

theorem parseInt_bounds [CharData] {s : JString} {n : ℤ} (h : parseInt s = .ok n) :
    -2 ^ 31 ≤ n ∧ n < 2 ^ 31 := by
  have hrange : ∀ value : ℤ, (if value < -2 ^ 31 ∨ 2 ^ 31 ≤ value then
      Except.error JavaException.numberFormat else .ok value) = .ok n →
        -2 ^ 31 ≤ n ∧ n < 2 ^ 31 := by
    intro value hvalue
    split at hvalue
    · cases hvalue
    · cases hvalue
      omega
  unfold parseInt at h
  split at h
  split at h
  · cases h
  split at h
  · cases h
  · exact hrange _ h

theorem parseInt_nonneg [CharData] {text : JString} (hsign : text.head? ≠ some 45) {n : ℤ}
    (h : parseInt text = .ok n) : 0 ≤ n := by
  unfold parseInt at h
  cases text with
  | nil => cases h
  | cons c rest =>
      have hc : c ≠ 45 := fun hc => hsign (hc ▸ rfl)
      dsimp only at h
      rw [if_neg hc] at h
      have hsplit : (if c = 43 then (false, rest) else (false, c :: rest)) =
          (false, if c = 43 then rest else c :: rest) := by
        split <;> rfl
      rw [hsplit] at h
      generalize (if c = 43 then rest else c :: rest) = digits at h
      dsimp only at h
      split at h
      · cases h
      split at h
      · cases h
      simp only [if_neg Bool.false_ne_true] at h
      split at h
      · cases h
      · cases h
        exact Int.natCast_nonneg _

/-- `s.contains(part)`. -/
def contains (s part : JString) : Bool := s.tails.any part.isPrefixOf

/-- `String.valueOf(n)`. -/
def decimal (n : ℤ) : JString := jstr (toString n)

theorem jstr_append (s t : String) : jstr (s ++ t) = jstr s ++ jstr t := by
  rw [jstr, String.toList_append]
  exact List.flatMap_append

theorem utf16Char_digit {c : Char} (h : c.isDigit) :
    utf16Char c = [c.toNat] ∧ 48 ≤ c.toNat ∧ c.toNat ≤ 57 := by
  have hbounds : 48 ≤ c.toNat ∧ c.toNat ≤ 57 := Char.isDigit_iff_toNat.mp h
  refine ⟨if_pos (by omega), hbounds.1, hbounds.2⟩

/-- A natural number is written in digits. -/
theorem jstr_repr (n : ℕ) : jstr n.repr ≠ [] ∧ ∀ u ∈ jstr n.repr, 48 ≤ u ∧ u ≤ 57 := by
  have hdigit : ∀ c ∈ Nat.toDigits 10 n, c.isDigit := fun c hc =>
    Nat.isDigit_of_mem_toDigits (by omega) (by omega) hc
  rw [jstr, Nat.toList_repr, utf16]
  constructor
  · cases hdigits : Nat.toDigits 10 n with
    | nil => exact absurd hdigits Nat.toDigits_ne_nil
    | cons c cs =>
        rw [List.flatMap_cons, (utf16Char_digit (hdigit c (by simp [hdigits]))).1]
        exact List.cons_ne_nil _ _
  · intro u hu
    obtain ⟨c, hc, hu⟩ := List.mem_flatMap.mp hu
    obtain ⟨heq, hbounds⟩ := utf16Char_digit (hdigit c hc)
    rw [heq, List.mem_singleton] at hu
    rwa [hu]

theorem decimal_eq (n : ℤ) :
    decimal n = if 0 ≤ n then jstr n.toNat.repr else 45 :: jstr (-n).toNat.repr := by
  rw [decimal, Int.toString_eq_repr, Int.repr_eq_if]
  split
  · rfl
  · exact jstr_append "-" _

theorem decimal_ne_nil (n : ℤ) : decimal n ≠ [] := by
  rw [decimal_eq]
  split
  · exact (jstr_repr n.toNat).1
  · exact List.cons_ne_nil _ _

theorem mem_decimal {n : ℤ} {u : ℕ} (h : u ∈ decimal n) : u = 45 ∨ 48 ≤ u ∧ u ≤ 57 := by
  rw [decimal_eq] at h
  split at h
  · exact Or.inr ((jstr_repr n.toNat).2 u h)
  · rcases List.mem_cons.mp h with rfl | h
    · exact Or.inl rfl
    · exact Or.inr ((jstr_repr (-n).toNat).2 u h)

theorem parseDigits_append [CharData] (acc : ℕ) (s t : JString) :
    parseDigits acc (s ++ t) = (parseDigits acc s).bind fun n => parseDigits n t := by
  induction s generalizing acc with
  | nil => rfl
  | cons c s ih =>
      rw [List.cons_append, parseDigits, parseDigits]
      split
      · exact ih _
      · rfl

theorem toNat_digitChar : ∀ d < 10, (Nat.digitChar d).toNat = 48 + d := by decide

theorem parseDigits_digitChar [CharData] (acc : ℕ) {d : ℕ} (hd : d < 10) :
    parseDigits acc (utf16Char (Nat.digitChar d)) = some (acc * 10 + d) := by
  have hnat := toNat_digitChar d hd
  rw [utf16Char, if_pos (by omega), hnat, parseDigits, CharData.digit_ascii (by omega),
    if_pos (by omega), Nat.add_sub_cancel_left]
  rfl

theorem parseDigits_repr [CharData] (n : ℕ) : parseDigits 0 (jstr n.repr) = some n := by
  rw [jstr, Nat.toList_repr]
  induction n using Nat.strongRecOn with
  | ind n ih =>
      rw [Nat.toDigits_eq_if (by omega)]
      split
      · rename_i hlt
        rw [utf16, List.flatMap_singleton, parseDigits_digitChar 0 hlt]
        simp
      · have htens := ih (n / 10) (by omega)
        rw [utf16] at htens
        rw [utf16, List.flatMap_append, List.flatMap_singleton, parseDigits_append, htens,
          Option.bind_some, parseDigits_digitChar _ (by omega)]
        congr 1
        omega

/-- A number is read as it was written. -/
theorem parseInt_decimal [CharData] {n : ℤ} (hlo : -2 ^ 31 ≤ n) (hhi : n < 2 ^ 31) :
    parseInt (decimal n) = .ok n := by
  have hdigits : ∀ m : ℕ, ∃ c rest, jstr m.repr = c :: rest ∧ 48 ≤ c := by
    intro m
    obtain ⟨hne, hall⟩ := jstr_repr m
    obtain ⟨c, rest, h⟩ := List.exists_cons_of_ne_nil hne
    exact ⟨c, rest, h, (hall c (h ▸ List.mem_cons_self)).1⟩
  rw [decimal_eq]
  split
  · rename_i hpos
    obtain ⟨c, rest, h, hc⟩ := hdigits n.toNat
    have hparse := parseDigits_repr n.toNat
    rw [h] at hparse ⊢
    simp only [parseInt, if_neg (show ¬ c = 45 by omega), if_neg (show ¬ c = 43 by omega), hparse]
    simp [Int.toNat_of_nonneg hpos]
    omega
  · rename_i hneg
    have hparse := parseDigits_repr (-n).toNat
    have hne := (jstr_repr (-n).toNat).1
    simp only [parseInt, if_true, hparse, hne]
    simp [Int.toNat_of_nonneg (show 0 ≤ -n by omega)]
    omega

/-- The value of a string of hexadecimal digits that starts with the value `acc`. -/
def parseHexDigits [CharData] (acc : ℕ) : JString → Option ℕ
  | [] => some acc
  | c :: s =>
      match CharData.hexDigit c with
      | some d => parseHexDigits (acc * 16 + d) s
      | none => none

/-- The number below `bound` that the digits of a text without a sign make up. -/
def parseHex [CharData] (bound : ℕ) (s : JString) : Except JavaException ℕ :=
  match parseHexDigits 0 s with
  | some n => if n < bound then .ok n else .error .numberFormat
  | none => .error .numberFormat

/-! ## Characters of regular expressions -/

/-- The two code units are a surrogate pair. -/
def IsPair (high low : ℕ) : Prop := 0xd800 ≤ high ∧ high < 0xdc00 ∧ 0xdc00 ≤ low ∧ low < 0xe000

instance (high low : ℕ) : Decidable (IsPair high low) := inferInstanceAs (Decidable (_ ∧ _))

/-- The first character of a text, its code units and what follows them. -/
def takeChar : JString → Option (ℕ × JString × JString)
  | [] => none
  | [c] => some (c, [c], [])
  | c :: d :: s =>
      if IsPair c d then some (0x10000 + (c - 0xd800) * 0x400 + (d - 0xdc00), [c, d], s)
      else some (c, [c], d :: s)

theorem takeChar_ascii {c : ℕ} (h : c < 128) (s : JString) :
    takeChar (c :: s) = some (c, [c], s) := by
  cases s with
  | nil => rfl
  | cons d s => exact if_neg fun hpair => absurd hpair.1 (by omega)

/-- The code units of the longest run of characters that `\d` stands for at the front. -/
def digitsLength [CharData] : JString → ℕ
  | [] => 0
  | [c] => if CharData.isDigit c then 1 else 0
  | c :: d :: s =>
      if IsPair c d then
        if CharData.isDigit (0x10000 + (c - 0xd800) * 0x400 + (d - 0xdc00)) then
          2 + digitsLength s
        else 0
      else if CharData.isDigit c then 1 + digitsLength (d :: s)
      else 0

/-- `n` characters at the front that `\p{XDigit}` stands for, and what follows them. -/
def takeXDigits [CharData] : ℕ → JString → Option (JString × JString)
  | 0, s => some ([], s)
  | n + 1, s =>
      match takeChar s with
      | none => none
      | some (c, units, rest) =>
          if CharData.isXDigit c then
            (takeXDigits n rest).map fun (digits, rest) => (units ++ digits, rest)
          else none

/-! ## Splitting -/

/-- `split` drops the empty strings at the end. -/
def dropTrailing (pieces : List JString) : List JString :=
  (pieces.reverse.dropWhile (· == [])).reverse

/-- `s.split(separator)` for one character. -/
def splitChar (separator : ℕ) (s : JString) : List JString :=
  if s.contains separator then dropTrailing (s.splitOn separator) else [s]

/-- What lies between the occurrences of a text, found from left to right. `skip` characters of
the last occurrence are still to come. -/
def between (separator : JString) : ℕ → JString → List JString
  | _, [] => [[]]
  | skip + 1, _ :: s => between separator skip s
  | 0, c :: s =>
      if separator.isPrefixOf (c :: s) then [] :: between separator (separator.length - 1) s
      else (between separator 0 s).modifyHead (c :: ·)

/-- `s.split(separator)` for a text that is no pattern. -/
def split (separator s : JString) : List JString :=
  if contains s separator then dropTrailing (between separator 0 s) else [s]

theorem between_skip (separator : JString) (xs rest : JString) :
    between separator xs.length (xs ++ rest) = between separator 0 rest := by
  induction xs with
  | nil => rfl
  | cons x xs ih => exact ih

/-- A text without the separator's first character ends at the separator. -/
theorem between_append {c : ℕ} {tail piece : JString} (hfree : c ∉ piece) (rest : JString) :
    between (c :: tail) 0 (piece ++ (c :: tail) ++ rest) = piece :: between (c :: tail) 0 rest := by
  induction piece with
  | nil =>
      rw [List.nil_append, List.cons_append, between, if_pos (by simp)]
      exact congrArg _ (between_skip (c :: tail) tail rest)
  | cons x piece ih =>
      have hx : ¬ (c :: tail).isPrefixOf (x :: (piece ++ (c :: tail) ++ rest)) := by
        rw [List.isPrefixOf_iff_prefix, List.cons_prefix_cons]
        exact fun h => hfree (h.1 ▸ List.mem_cons_self)
      rw [List.cons_append, List.cons_append, between, if_neg hx,
        ih fun h => hfree (List.mem_cons_of_mem x h)]
      rfl

theorem between_eq_singleton {c : ℕ} {tail piece : JString} (hfree : c ∉ piece) :
    between (c :: tail) 0 piece = [piece] := by
  induction piece with
  | nil => rfl
  | cons x piece ih =>
      have hx : ¬ (c :: tail).isPrefixOf (x :: piece) := by
        rw [List.isPrefixOf_iff_prefix, List.cons_prefix_cons]
        exact fun h => hfree (h.1 ▸ List.mem_cons_self)
      rw [between, if_neg hx, ih fun h => hfree (List.mem_cons_of_mem x h)]
      rfl

theorem between_intercalate {c : ℕ} {tail : JString} {pieces : List JString}
    (hne : pieces ≠ []) (hfree : ∀ piece ∈ pieces, c ∉ piece) :
    between (c :: tail) 0 ((c :: tail).intercalate pieces) = pieces := by
  induction pieces with
  | nil => exact absurd rfl hne
  | cons piece pieces ih =>
      have hpiece := hfree piece (by simp)
      cases pieces with
      | nil => rw [List.intercalate_singleton, between_eq_singleton hpiece]
      | cons piece' pieces =>
          rw [List.intercalate_cons_cons, between_append hpiece,
            ih (by simp) fun p hp => hfree p (List.mem_cons_of_mem piece hp)]

theorem dropTrailing_eq_self {pieces : List JString} (h : pieces.getLast? ≠ some []) :
    dropTrailing pieces = pieces := by
  rw [dropTrailing]
  cases hlast : pieces.reverse with
  | nil => simp_all
  | cons last front =>
      have hnotnil : (last == []) = false := by
        rw [List.getLast?_eq_head?_reverse, hlast] at h
        simpa using h
      rw [List.dropWhile_cons_of_neg (by rw [hnotnil]; exact Bool.false_ne_true), ← hlast,
        List.reverse_reverse]

/-- Splitting undoes joining. -/
theorem split_intercalate {c : ℕ} {tail : JString} {pieces : List JString} (hne : pieces ≠ [])
    (hfree : ∀ piece ∈ pieces, c ∉ piece) (hlast : pieces.getLast? ≠ some []) :
    split (c :: tail) ((c :: tail).intercalate pieces) = pieces := by
  have hbetween : between (c :: tail) 0 ((c :: tail).intercalate pieces) = pieces :=
    between_intercalate hne hfree
  rw [split]
  split
  · rw [hbetween, dropTrailing_eq_self hlast]
  · rename_i hcontains
    cases pieces with
    | nil => exact absurd rfl hne
    | cons piece pieces =>
        cases pieces with
        | nil => rw [List.intercalate_singleton]
        | cons piece' pieces =>
            refine absurd ?_ hcontains
            rw [contains, List.any_eq_true]
            refine ⟨(c :: tail) ++ (c :: tail).intercalate (piece' :: pieces), ?_, ?_⟩
            · rw [List.mem_tails, List.intercalate_cons_cons, List.append_assoc]
              exact List.suffix_append _ _
            · rw [List.isPrefixOf_iff_prefix]
              exact List.prefix_append _ _

/-- The parts of a text between runs of separators. -/
def splitRuns (separates : ℕ → Bool) (s : JString) : List JString :=
  if s.any separates then
    match s.splitOnP separates with
    | [] => []
    | first :: pieces => dropTrailing (first :: pieces.filter (· ≠ []))
  else [s]

/-- `s.split("\\s+")`. -/
def splitSpaces [CharData] (s : JString) : List JString := splitRuns CharData.isSpace s

theorem splitOnP_congr {p q : ℕ → Bool} {s : JString} (h : ∀ c ∈ s, p c = q c) :
    s.splitOnP p = s.splitOnP q := by
  induction s with
  | nil => rfl
  | cons c s ih =>
      obtain ⟨hc, hs⟩ := List.forall_mem_cons.mp h
      rw [List.splitOnP_cons_eq_if_modifyHead, List.splitOnP_cons_eq_if_modifyHead, hc, ih hs]

theorem splitRuns_congr {p q : ℕ → Bool} {s : JString} (h : ∀ c ∈ s, p c = q c) :
    splitRuns p s = splitRuns q s := by
  have hany : s.any p = s.any q := by
    rw [Bool.eq_iff_iff, List.any_eq_true, List.any_eq_true]
    exact exists_congr fun c => and_congr_right fun hc => by rw [h c hc]
  rw [splitRuns, splitRuns, hany, splitOnP_congr h]

/-- The blanks of ASCII. -/
def isAsciiSpace (c : ℕ) : Bool := decide (c = 0x20 ∨ 9 ≤ c ∧ c ≤ 13)

/-- A text of ASCII without a vertical tab is split alike everywhere. -/
theorem splitSpaces_ascii [CharData] {s : JString} (h : ∀ c ∈ s, c < 128 ∧ c ≠ 0x0b) :
    splitSpaces s = splitRuns isAsciiSpace s :=
  splitRuns_congr fun c hc => CharData.isSpace_ascii (h c hc).1 (h c hc).2

end Java
