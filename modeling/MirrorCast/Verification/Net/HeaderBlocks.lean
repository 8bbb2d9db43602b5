import MirrorCast.Library.Scanning
import MirrorCast.Program.ParsedMessage
import MirrorCast.Verification.Net.Decoding

/-! # Where the header block of a message ends, in bytes and in characters -/

namespace MirrorCast

open Java Scanning StringUtils ParsedMessage

namespace Net

/-! ## Decoding any bytes -/

/-- Whatever follows in the range makes a code point that is not ASCII. -/
def Sound (d : Decoder) : Prop :=
  d.utf8BytesNeeded ≠ 0 → 0x80 ≤ d.lowerBound ∧ d.upperBound ≤ 0xbf ∧
    d.utf8BytesSeen < d.utf8BytesNeeded ∧
    0x80 ≤ (d.codePoint * 64 + (d.lowerBound - 0x80)) *
      64 ^ (d.utf8BytesNeeded - d.utf8BytesSeen - 1)

/-- What is appended if the sequence breaks off. -/
def pending (d : Decoder) : JString := if d.utf8BytesNeeded ≠ 0 then [REPLACEMENT_CHAR] else []

theorem sound_start : Sound .start := fun h => absurd rfl h

theorem pending_start : pending .start = [] := rfl

theorem firstByte_sound : ∀ b < 256, 0x80 ≤ b →
    (∀ u ∈ (firstByte b).1, 0x80 ≤ u) ∧ Sound (firstByte b).2 ∧
      (firstByte b).1.length + (pending (firstByte b).2).length = 1 := by
  unfold Sound
  decide +kernel

theorem nextByte_ascii {d : Decoder} (hd : Sound d) {b : ℕ} (hb : b < 0x80) :
    nextByte d b = (pending d ++ [b], .start) := by
  have hfirst := firstByte_one b hb
  unfold nextByte pending
  by_cases hneeded : d.utf8BytesNeeded = 0
  · rw [if_pos hneeded, if_neg (not_not.mpr hneeded), hfirst]
    rfl
  · have hlower := (hd hneeded).1
    rw [if_neg hneeded, if_pos (Or.inl (by omega)), if_pos hneeded, hfirst]
    rfl

/-- A byte that is not ASCII. -/
theorem nextByte_sound {d : Decoder} (hd : Sound d) {b : ℕ} (hlo : 0x80 ≤ b) (hhi : b < 256) :
    (∀ u ∈ (nextByte d b).1, 0x80 ≤ u) ∧ Sound (nextByte d b).2 ∧
      (nextByte d b).1.length + (pending (nextByte d b).2).length ≤ 1 + (pending d).length ∧
      ((nextByte d b).1 = [] → (nextByte d b).2.utf8BytesNeeded ≠ 0) := by
  obtain ⟨hunits, hsound, hlength⟩ := firstByte_sound b hhi hlo
  have hopen : (firstByte b).1 = [] → (firstByte b).2.utf8BytesNeeded ≠ 0 := by
    intro hnil hzero
    rw [hnil, pending, if_neg (not_not.mpr hzero)] at hlength
    cases hlength
  by_cases hneeded : d.utf8BytesNeeded = 0
  · rw [nextByte, if_pos hneeded]
    exact ⟨hunits, hsound, by omega, hopen⟩
  obtain ⟨hlower, hupper, hseen, hpoint⟩ := hd hneeded
  have hpending : (pending d).length = 1 := by rw [pending, if_pos hneeded]; rfl
  by_cases hrange : b < d.lowerBound ∨ d.upperBound < b
  · rw [nextByte, if_neg hneeded, if_pos hrange]
    refine ⟨?_, hsound, ?_, by simp⟩
    · intro u hu
      rcases List.mem_cons.mp hu with rfl | hu
      · decide
      · exact hunits u hu
    · dsimp only
      rw [List.length_cons]
      omega
  · obtain ⟨x, rfl⟩ : ∃ x, b = 0x80 + x := ⟨b - 0x80, by omega⟩
    rw [nextByte_tail hneeded (by omega) (by omega) (by omega)]
    have hmul : d.codePoint * 64 + (d.lowerBound - 0x80) ≤ d.codePoint * 64 + x := by omega
    split
    · rename_i hmore
      refine ⟨by simp, fun _ => ⟨le_refl _, le_refl _, by dsimp only; omega, ?_⟩, ?_, fun _ => hneeded⟩
      · dsimp only
        have hexp : d.utf8BytesNeeded - d.utf8BytesSeen - 1 =
            d.utf8BytesNeeded - (d.utf8BytesSeen + 1) - 1 + 1 := by omega
        rw [hexp, pow_succ'] at hpoint
        calc 0x80 ≤ _ := hpoint
          _ ≤ (d.codePoint * 64 + x) * (64 * _) := Nat.mul_le_mul_right _ hmul
          _ = _ := by simp [Nat.mul_assoc]
      · rw [hpending, List.length_nil, pending, if_pos hneeded]
        decide
    · rename_i hlast
      have hexp : d.utf8BytesNeeded - d.utf8BytesSeen - 1 = 0 := by omega
      rw [hexp, pow_zero, Nat.mul_one] at hpoint
      split
      · refine ⟨?_, sound_start, ?_, by simp⟩
        · intro u hu
          rw [List.mem_singleton.mp hu]
          omega
        · rw [hpending]
          exact le_of_lt Nat.one_lt_two
      · refine ⟨?_, sound_start, ?_, by simp⟩
        · intro u hu
          rcases List.mem_cons.mp hu with rfl | hu
          · omega
          · rw [List.mem_singleton.mp hu]
            omega
        · rw [hpending]
          exact le_refl 2

theorem decode_cons (d : Decoder) (b : UInt8) (bs : List UInt8) :
    decode d (b :: bs) = (nextByte d b.toNat).1 ++ decode (nextByte d b.toNat).2 bs := rfl

theorem decode_cons_ascii {d : Decoder} (hd : Sound d) {b : UInt8} (hb : b.toNat < 0x80)
    (bs : List UInt8) : decode d (b :: bs) = pending d ++ b.toNat :: decode .start bs := by
  rw [decode_cons, nextByte_ascii hd hb, List.append_assoc]
  rfl

/-- There are never more characters than bytes. -/
theorem length_decode_le {d : Decoder} (hd : Sound d) (bs : List UInt8) :
    (decode d bs).length ≤ bs.length + (pending d).length := by
  induction bs generalizing d with
  | nil => exact Nat.le_add_left _ _
  | cons b bs ih =>
      rw [List.length_cons]
      by_cases hb : b.toNat < 0x80
      · have hrest := ih sound_start
        rw [pending_start, List.length_nil] at hrest
        rw [decode_cons_ascii hd hb, List.length_append, List.length_cons]
        omega
      · obtain ⟨-, hsound, hlength, -⟩ := nextByte_sound hd (not_lt.mp hb) b.toNat_lt
        have hrest := ih hsound
        rw [decode_cons, List.length_append]
        omega

/-- A sequence that has begun does not turn out to be ASCII. -/
theorem head?_decode {d : Decoder} (hd : Sound d) (hneeded : d.utf8BytesNeeded ≠ 0)
    (bs : List UInt8) : ∃ u, 0x80 ≤ u ∧ (decode d bs).head? = some u := by
  induction bs generalizing d with
  | nil => exact ⟨REPLACEMENT_CHAR, by decide, by rw [decode, if_pos hneeded]; rfl⟩
  | cons b bs ih =>
      by_cases hb : b.toNat < 0x80
      · rw [decode_cons_ascii hd hb, pending, if_pos hneeded]
        exact ⟨REPLACEMENT_CHAR, by decide, rfl⟩
      · obtain ⟨hunits, hsound, -, hopen⟩ := nextByte_sound hd (not_lt.mp hb) b.toNat_lt
        rw [decode_cons]
        cases hout : (nextByte d b.toNat).1 with
        | nil => exact ih hsound (hopen hout)
        | cons u units => exact ⟨u, hunits u (hout ▸ List.mem_cons_self), rfl⟩

/-- ASCII characters come from the bytes of the same value only. -/
theorem prefix_decode {p : List UInt8} (hp : ∀ b ∈ p, b.toNat < 0x80) (bs : List UInt8) :
    p.map UInt8.toNat <+: decode .start bs ↔ p <+: bs := by
  induction p generalizing bs with
  | nil => exact iff_of_true List.nil_prefix List.nil_prefix
  | cons b p ih =>
      obtain ⟨hb, hp⟩ := List.forall_mem_cons.mp hp
      cases bs with
      | nil => simp [decode, Decoder.start]
      | cons c bs =>
          rw [List.map_cons, List.cons_prefix_cons]
          by_cases hc : c.toNat < 0x80
          · rw [decode_cons_ascii sound_start hc, pending_start, List.nil_append,
              List.cons_prefix_cons, ih hp, UInt8.toNat_inj]
          · refine iff_of_false ?_ fun h => hc (h.1 ▸ hb)
            obtain ⟨hunits, hsound, -, hopen⟩ :=
              nextByte_sound sound_start (not_lt.mp hc) c.toNat_lt
            have hhead : ∃ u, 0x80 ≤ u ∧ (decode .start (c :: bs)).head? = some u := by
              rw [decode_cons]
              cases hout : (nextByte .start c.toNat).1 with
              | nil => exact head?_decode hsound (hopen hout) bs
              | cons u units => exact ⟨u, hunits u (hout ▸ List.mem_cons_self), rfl⟩
            rintro ⟨rest, hrest⟩
            obtain ⟨u, hu, heq⟩ := hhead
            rw [← hrest] at heq
            have : b.toNat = u := Option.some.inj heq
            omega

/-! ## The end of the header block -/

/-- The end of the last header line, and the empty line behind it. -/
def blankLine : List UInt8 := [0x0d, 0x0a, 0x0d, 0x0a]

theorem blankLine_toNat : blankLine.map UInt8.toNat = [0x0d, 0x0a, 0x0d, 0x0a] := rfl

theorem endOf_decode {d : Decoder} (hd : Sound d) (bs : List UInt8) :
    endOf (blankLine.map UInt8.toNat) (decode d bs) =
      (endOf blankLine bs).map fun k => (decode d (bs.take k)).length := by
  have hskip : ∀ {units : JString}, (∀ u ∈ units, 0x80 ≤ u) → 0x0d ∉ units := fun h hmem =>
    absurd (h _ hmem) (by decide)
  induction bs generalizing d with
  | nil =>
      rw [show decode d [] = pending d ++ [] from (List.append_nil _).symm, blankLine_toNat,
        endOf_append (hskip fun u hu => ?_)]
      · rfl
      · unfold pending at hu
        split at hu
        · rw [List.mem_singleton.mp hu]
          decide
        · cases hu
  | cons b bs ih =>
      have hpending : 0x0d ∉ pending d := by
        unfold pending
        split <;> decide
      by_cases hb : b.toNat < 0x80
      · have hascii : ∀ c ∈ blankLine.tail, c.toNat < 0x80 := by
          simp [blankLine]
        have htail := prefix_decode hascii bs
        rw [decode_cons_ascii hd hb, blankLine_toNat, endOf_append hpending, ← blankLine_toNat]
        by_cases hprefix : blankLine <+: b :: bs
        · have hunits : blankLine.map UInt8.toNat <+: b.toNat :: decode .start bs := by
            obtain ⟨hcr, hrest⟩ := List.cons_prefix_cons.mp hprefix
            exact List.cons_prefix_cons.mpr ⟨congrArg UInt8.toNat hcr, htail.mpr hrest⟩
          have htake : bs.take 3 = blankLine.tail :=
            (List.prefix_iff_eq_take.mp (List.cons_prefix_cons.mp hprefix).2).symm
          rw [endOf_here (by decide) hunits, endOf_here (by decide) hprefix,
            Option.map_some, Option.map_some, show blankLine.length = 3 + 1 from rfl,
            List.take_succ_cons, decode_cons_ascii hd hb, htake, List.length_append]
          rfl
        · have hunits : ¬ blankLine.map UInt8.toNat <+: b.toNat :: decode .start bs := by
            intro h
            obtain ⟨hcr, hrest⟩ := List.cons_prefix_cons.mp h
            exact hprefix (List.cons_prefix_cons.mpr ⟨UInt8.toNat_inj.mp hcr, htail.mp hrest⟩)
          rw [endOf_cons_of_not hunits, endOf_cons_of_not hprefix, ih sound_start]
          simp only [Option.map_map]
          congr 1
          funext k
          simp only [Function.comp_apply, List.take_succ_cons, decode_cons_ascii hd hb,
            List.length_append, List.length_cons]
      · obtain ⟨hunits, hsound, -, -⟩ := nextByte_sound hd (not_lt.mp hb) b.toNat_lt
        have hprefix : ¬ blankLine <+: b :: bs := fun h => by
          have hcr := (List.cons_prefix_cons.mp h).1
          exact hb (hcr ▸ by decide)
        rw [decode_cons, blankLine_toNat, endOf_append (hskip hunits), ← blankLine_toNat,
          ih hsound, endOf_cons_of_not hprefix, Option.map_map, Option.map_map]
        congr 1
        funext k
        simp only [Function.comp_apply, List.take_succ_cons, decode_cons, List.length_append]

/-! ## The lines of the parser -/

/-- The end of the first empty line. -/
def emptyLineEnd (data : JString) : Option ℕ :=
  if [0x0d, 0x0a] <+: data then some 2 else endOf [0x0d, 0x0a, 0x0d, 0x0a] data

theorem endOf_of_splitLine_none {data : JString} (h : splitLine data = none) :
    endOf [0x0d, 0x0a, 0x0d, 0x0a] data = none := by
  induction data with
  | nil => rfl
  | cons c data ih =>
      rw [splitLine] at h
      split at h
      · cases h
      · rename_i hcrlf
        have hprefix : ¬ [0x0d, 0x0a, 0x0d, 0x0a] <+: c :: data := by
          intro hprefix
          obtain ⟨hc, rest, hrest⟩ := List.cons_prefix_cons.mp hprefix
          exact hcrlf ⟨hc.symm, by rw [← hrest]; rfl⟩
        rw [endOf_cons_of_not hprefix, ih (Option.map_eq_none_iff.mp h)]
        rfl

theorem endOf_of_splitLine {data line rest : JString} (h : splitLine data = some (line, rest)) :
    endOf [0x0d, 0x0a, 0x0d, 0x0a] data = (emptyLineEnd rest).map (line.length + 2 + ·) := by
  induction data generalizing line with
  | nil => cases h
  | cons c data ih =>
      rw [splitLine] at h
      split at h
      · rename_i hcrlf
        cases h
        obtain ⟨rfl, hlf⟩ := hcrlf
        obtain ⟨rest, rfl⟩ := List.head?_eq_some_iff.mp hlf
        rw [List.tail_cons, emptyLineEnd]
        by_cases hprefix : [0x0d, 0x0a] <+: rest
        · rw [if_pos hprefix, endOf_here (List.cons_ne_nil _ _)
            (by simpa [List.cons_prefix_cons] using hprefix)]
          rfl
        · rw [if_neg hprefix, endOf_cons_of_not (by simpa [List.cons_prefix_cons] using hprefix),
            endOf_cons_of_not (by simp [List.cons_prefix_cons]), Option.map_map]
          congr 1
          funext n
          simp only [Function.comp_apply, List.length_nil]
          omega
      · rename_i hcrlf
        obtain ⟨⟨line', rest'⟩, hline, heq⟩ := Option.map_eq_some_iff.mp h
        cases heq
        have hprefix : ¬ [0x0d, 0x0a, 0x0d, 0x0a] <+: c :: data := by
          intro hprefix
          obtain ⟨hc, rest, hrest⟩ := List.cons_prefix_cons.mp hprefix
          exact hcrlf ⟨hc.symm, by rw [← hrest]; rfl⟩
        rw [endOf_cons_of_not hprefix, ih hline, Option.map_map]
        congr 1
        funext n
        simp only [Function.comp_apply, List.length_cons]
        omega

theorem emptyLineEnd_of_splitLine {data line rest : JString}
    (h : splitLine data = some (line, rest)) :
    emptyLineEnd data =
      if line = [] then some 2 else (emptyLineEnd rest).map (line.length + 2 + ·) := by
  rw [emptyLineEnd, endOf_of_splitLine h]
  cases data with
  | nil => cases h
  | cons c data =>
      rw [splitLine] at h
      split at h
      · rename_i hcrlf
        cases h
        obtain ⟨rfl, hlf⟩ := hcrlf
        obtain ⟨rest, rfl⟩ := List.head?_eq_some_iff.mp hlf
        rw [if_pos (by simp [List.cons_prefix_cons]), if_pos rfl]
      · rename_i hcrlf
        obtain ⟨⟨line', rest'⟩, -, heq⟩ := Option.map_eq_some_iff.mp h
        cases heq
        rw [if_neg, if_neg (List.cons_ne_nil _ _)]
        intro hprefix
        obtain ⟨hc, rest, hrest⟩ := List.cons_prefix_cons.mp hprefix
        exact hcrlf ⟨hc.symm, by rw [← hrest]; rfl⟩

/-- The header lines are complete as soon as there is an empty line, and end with it; without one
they are taken for complete up to the end of the data. -/
theorem parseLines_end [CharData] (h : Headers) (offset : ℕ) (data : JString) :
    match parseLines h offset data with
    | none => emptyLineEnd data = none
    | some (_, offset', true) => (emptyLineEnd data).map (offset + ·) = some offset'
    | some (_, offset', false) => emptyLineEnd data = none ∧ offset' = offset + data.length := by
  induction hn : data.length using Nat.strongRecOn generalizing h offset data with
  | ind n ih =>
      subst hn
      by_cases hdata : data = []
      · subst hdata
        rw [parseLines_nil]
        exact ⟨rfl, rfl⟩
      cases hline : splitLine data with
      | none =>
          rw [parseLines_of_none hdata hline, emptyLineEnd, endOf_of_splitLine_none hline]
          refine if_neg fun hprefix => ?_
          obtain ⟨rest, rfl⟩ := hprefix
          simp [splitLine] at hline
      | some split =>
          obtain ⟨line, rest⟩ := split
          have hlength := length_of_splitLine hline
          rw [parseLines_of_some hline, emptyLineEnd_of_splitLine hline]
          by_cases hempty : line = []
          · rw [if_pos hempty, if_pos hempty]
            rfl
          · rw [if_neg hempty, if_neg hempty]
            have hrest := ih rest.length (by omega) (h.add line) (offset + line.length + 2) rest rfl
            split
            · rename_i heq
              rw [heq] at hrest
              rw [hrest]
              rfl
            · rename_i heq
              rw [heq] at hrest
              rw [← hrest, Option.map_map]
              congr 1
              funext m
              simp only [Function.comp_apply]
              omega
            · rename_i heq
              rw [heq] at hrest
              rw [hrest.1]
              exact ⟨rfl, by omega⟩

/-- What the parser finds of the start line and the header lines. -/
def scanned [CharData] (data : JString) : Option (Headers × ℕ × Bool) :=
  (splitLine data).bind fun (line, rest) => parseLines (.start line) (line.length + 2) rest

theorem scanned_end [CharData] (data : JString) :
    match scanned data with
    | none => endOf [0x0d, 0x0a, 0x0d, 0x0a] data = none
    | some (_, offset, true) => endOf [0x0d, 0x0a, 0x0d, 0x0a] data = some offset
    | some (_, offset, false) =>
        endOf [0x0d, 0x0a, 0x0d, 0x0a] data = none ∧ offset = data.length := by
  unfold scanned
  cases hline : splitLine data with
  | none => exact endOf_of_splitLine_none hline
  | some split =>
      obtain ⟨line, rest⟩ := split
      have hlength := length_of_splitLine hline
      have hlines := parseLines_end (.start line) (line.length + 2) rest
      rw [endOf_of_splitLine hline, Option.bind_some]
      dsimp only
      split
      · rename_i heq
        rw [heq] at hlines
        rw [hlines]
        rfl
      · rename_i heq
        rwa [heq] at hlines
      · rename_i heq
        rw [heq] at hlines
        rw [hlines.1]
        exact ⟨rfl, by omega⟩

end Net

end MirrorCast
