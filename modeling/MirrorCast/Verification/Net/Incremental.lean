import MirrorCast.Program.ParsedMessage

/-! # Parsing a message that is still arriving

A message is parsed from exactly its own characters: what follows them changes nothing, and
without the last of them there is no message yet. -/

namespace MirrorCast.ParsedMessage

open Java

/-! ## Lines -/

theorem splitLine_extend {data line rest : JString} (h : splitLine data = some (line, rest))
    (more : JString) : splitLine (data ++ more) = some (line, rest ++ more) := by
  induction data generalizing line with
  | nil => cases h
  | cons c data ih =>
      rw [splitLine] at h
      rw [List.cons_append, splitLine]
      split at h
      · rename_i hc
        cases h
        cases data with
        | nil => simp at hc
        | cons d data =>
            rw [if_pos ⟨hc.1, by simpa using hc.2⟩]
            rfl
      · rename_i hc
        obtain ⟨⟨line', rest'⟩, hline, heq⟩ := Option.map_eq_some_iff.mp h
        cases heq
        have hc' : ¬ (c = 0x0d ∧ (data ++ more).head? = some 0x0a) := by
          cases data with
          | nil => cases hline
          | cons d data => exact hc
        rw [if_neg hc', ih hline]
        rfl

theorem head?_of_take {data : JString} {k c : ℕ} (h : (data.take k).head? = some c) :
    data.head? = some c := by
  rw [List.head?_take] at h
  split at h
  · cases h
  · exact h

/-- A line that lacks the end of its CRLF is no line. -/
theorem splitLine_take_of_lt {data line rest : JString} (h : splitLine data = some (line, rest))
    {k : ℕ} (hk : k < line.length + 2) : splitLine (data.take k) = none := by
  induction data generalizing line k with
  | nil => cases h
  | cons c data ih =>
      cases k with
      | zero => rfl
      | succ k =>
          rw [splitLine] at h
          rw [List.take_succ_cons, splitLine]
          split at h
          · cases h
            have hzero : k = 0 := by
              simp only [List.length_nil] at hk
              omega
            subst hzero
            simp [splitLine]
          · rename_i hc
            obtain ⟨⟨line', rest'⟩, hline, heq⟩ := Option.map_eq_some_iff.mp h
            cases heq
            rw [List.length_cons] at hk
            rw [if_neg fun h => hc ⟨h.1, head?_of_take h.2⟩, ih hline (by omega)]
            rfl

/-- A line is split off any part of the data that it is a part of. -/
theorem splitLine_take {data line rest : JString} (h : splitLine data = some (line, rest)) {k : ℕ}
    (hk : line.length + 2 ≤ k) :
    splitLine (data.take k) = some (line, rest.take (k - (line.length + 2))) := by
  induction data generalizing line k with
  | nil => cases h
  | cons c data ih =>
      obtain ⟨k, rfl⟩ : ∃ k', k = k' + 1 := ⟨k - 1, by omega⟩
      rw [splitLine] at h
      rw [List.take_succ_cons, splitLine]
      split at h
      · rename_i hc
        cases h
        obtain ⟨k, rfl⟩ : ∃ k', k = k' + 1 := ⟨k - 1, by simp only [List.length_nil] at hk; omega⟩
        cases data with
        | nil => simp at hc
        | cons d data =>
            rw [if_pos ⟨hc.1, by simpa using hc.2⟩]
            simp
      · rename_i hc
        obtain ⟨⟨line', rest'⟩, hline, heq⟩ := Option.map_eq_some_iff.mp h
        cases heq
        rw [List.length_cons] at hk
        have hrest : k + 1 - (line'.length + 1 + 2) = k - (line'.length + 2) := by omega
        rw [if_neg fun h => hc ⟨h.1, head?_of_take h.2⟩, ih hline (by omega), Option.map_some,
          List.length_cons, hrest]

/-! ## Header lines -/

/-- The lines end with the empty line, whatever follows it. -/
theorem parseLines_extend [CharData] {h h' : Headers} {offset offset' : ℕ} {data : JString}
    (hlines : parseLines h offset data = some (h', offset', true)) {k : ℕ}
    (hk : offset' - offset ≤ k) (more : JString) :
    offset' - offset ≤ data.length ∧
      parseLines h offset (data.take k ++ more) = some (h', offset', true) := by
  induction hn : data.length using Nat.strongRecOn generalizing h offset data k with
  | ind n ih =>
      subst hn
      cases hline : splitLine data with
      | none =>
          by_cases hdata : data = []
          · subst hdata
            rw [parseLines_nil] at hlines
            cases hlines
          · rw [parseLines_of_none hdata hline] at hlines
            cases hlines
      | some split =>
          obtain ⟨line, rest⟩ := split
          have hlength := length_of_splitLine hline
          rw [parseLines_of_some hline] at hlines
          by_cases hempty : line = []
          · subst hempty
            rw [if_pos rfl] at hlines
            cases hlines
            have htake := splitLine_extend (splitLine_take hline (k := k) (by
              simp only [List.length_nil]
              omega)) more
            rw [parseLines_of_some htake, if_pos rfl]
            simp only [List.length_nil] at hlength
            exact ⟨by omega, rfl⟩
          · rw [if_neg hempty] at hlines
            have hle := le_offset_of_parseLines hlines
            obtain ⟨hle', hrest⟩ := ih _ (by omega) hlines
              (k := k - (line.length + 2)) (by omega) rfl
            have htake := splitLine_extend (splitLine_take hline (k := k) (by omega)) more
            rw [parseLines_of_some htake, if_neg hempty, hrest]
            exact ⟨by omega, rfl⟩

/-- Before the empty line has arrived in full it is not found. -/
theorem parseLines_take_of_lt [CharData] {h h' : Headers} {offset offset' : ℕ} {data : JString}
    (hlines : parseLines h offset data = some (h', offset', true)) {k : ℕ}
    (hk : k < offset' - offset) :
    ∀ result, parseLines h offset (data.take k) = some result → result.2.2 = false := by
  induction hn : data.length using Nat.strongRecOn generalizing h offset data k with
  | ind n ih =>
      subst hn
      intro result hresult
      cases hline : splitLine data with
      | none =>
          by_cases hdata : data = []
          · subst hdata
            rw [parseLines_nil] at hlines
            cases hlines
          · rw [parseLines_of_none hdata hline] at hlines
            cases hlines
      | some split =>
          obtain ⟨line, rest⟩ := split
          have hlength := length_of_splitLine hline
          by_cases hshort : k < line.length + 2
          · have htake := splitLine_take_of_lt hline hshort
            by_cases hnil : data.take k = []
            · rw [hnil, parseLines_nil] at hresult
              cases hresult
              rfl
            · rw [parseLines_of_none hnil htake] at hresult
              cases hresult
          · rw [parseLines_of_some (splitLine_take hline (by omega))] at hresult
            rw [parseLines_of_some hline] at hlines
            by_cases hempty : line = []
            · rw [if_pos hempty] at hlines
              cases hlines
              simp only [hempty, List.length_nil] at hshort
              omega
            · rw [if_neg hempty] at hlines hresult
              exact ih _ (by omega) hlines (by omega) rfl result hresult

/-! ## Messages -/

/-- What `parse` has found once the header lines of a message are complete. -/
theorem parse_cases [CharData] {data : JString} {msg : ParsedMessage}
    (h : parse data false = .ok (some msg)) :
    ∃ line rest headers offset contentLength,
      splitLine data = some (line, rest) ∧
        parseLines (.start line) (line.length + 2) rest = some (headers, offset, true) ∧
        getInt headers.mDict (jstr "content-length") 0 = .ok contentLength ∧
        msg.mDict = headers.mDict ∧
        msg.mLength = int32 (offset + if contentLength < 0 then 0 else contentLength) ∧
        msg.mLength ≤ data.length ∧ (offset : ℤ) ≤ msg.mLength ∧
        msg.mContent = (data.take msg.mLength.toNat).drop offset := by
  unfold parse at h
  split at h
  · cases h
  rename_i line rest hline
  split at h
  · cases h
  rename_i headers offset complete hlines
  cases complete with
  | false => simp at h
  | true =>
      rw [if_neg (by simp)] at h
      obtain ⟨contentLength, hcontent, h⟩ := bind_eq_ok.mp h
      dsimp only at h
      generalize htotal : int32 _ = totalLength at h
      split at h
      · cases h
      rename_i hle
      obtain ⟨content, hsub, h⟩ := bind_eq_ok.mp h
      cases h
      unfold substring at hsub
      split at hsub
      · cases hsub
      rename_i hrange
      cases hsub
      refine ⟨line, rest, headers, offset, contentLength, hline, hlines, hcontent, rfl, htotal.symm,
        by dsimp only; omega, by dsimp only; omega, ?_⟩
      dsimp only
      rw [Int.toNat_natCast, List.drop_take, Int.toNat_sub']

/-- Data with complete header lines gives a message as soon as its content is there. -/
theorem parse_of_lines [CharData] {data line rest : JString} {headers : Headers} {offset : ℕ}
    {contentLength totalLength : ℤ} (hline : splitLine data = some (line, rest))
    (hlines : parseLines (.start line) (line.length + 2) rest = some (headers, offset, true))
    (hcontent : getInt headers.mDict (jstr "content-length") 0 = .ok contentLength)
    (htotal : totalLength = int32 (offset + if contentLength < 0 then 0 else contentLength))
    (hoffset : (offset : ℤ) ≤ totalLength) :
    parse data false = .ok (if (data.length : ℤ) < totalLength then none
      else some ⟨headers.mDict, (data.take totalLength.toNat).drop offset, totalLength⟩) := by
  unfold parse
  simp only [hline, hlines]
  rw [if_neg (by simp), hcontent, ok_bind]
  rw [← htotal]
  split
  · rfl
  · rename_i hle
    rw [substring, if_neg (by omega), ok_bind, Int.toNat_natCast, List.drop_take,
      Int.toNat_sub']
    rfl

/-- The parser is incremental: a message of length `L` is a matter of the first `L` characters
alone, and none of its strict prefixes is a message. -/
theorem parse_incremental [CharData] {s : JString} {msg : ParsedMessage}
    (h : parse s false = .ok (some msg)) :
    msg.mLength ≤ s.length ∧
      (∀ more, parse (s.take msg.mLength.toNat ++ more) false = .ok (some msg)) ∧
      ∀ k < msg.mLength.toNat, parse (s.take k) false = .ok none := by
  obtain ⟨line, rest, headers, offset, contentLength, hline, hlines, hcontent, hdict, htotal, hle,
    hoffset, hbody⟩ := parse_cases h
  have hstart := le_offset_of_parseLines hlines
  refine ⟨hle, ?_, ?_⟩
  · intro more
    have hline' := splitLine_extend (splitLine_take hline (k := msg.mLength.toNat) (by omega)) more
    obtain ⟨-, hlines'⟩ := parseLines_extend hlines
      (k := msg.mLength.toNat - (line.length + 2)) (by omega) more
    have hlength : (s.take msg.mLength.toNat).length = msg.mLength.toNat :=
      List.length_take_of_le (by omega)
    rw [parse_of_lines hline' hlines' hcontent htotal hoffset, if_neg (by
      rw [List.length_append, hlength]
      omega), List.take_append_of_le_length (by omega), List.take_take, Nat.min_self, ← hbody,
      ← hdict]
  · intro k hk
    by_cases hshort : k < line.length + 2
    · simp only [parse, splitLine_take_of_lt hline hshort]
    have hline' := splitLine_take hline (k := k) (by omega)
    by_cases hheaders : k < offset
    · have hopen := parseLines_take_of_lt hlines (k := k - (line.length + 2)) (by omega)
      unfold parse
      simp only [hline']
      split
      · rfl
      · rename_i hresult
        rw [if_pos ⟨hopen _ hresult, trivial⟩]
    · obtain ⟨-, hlines'⟩ := parseLines_extend hlines
        (k := k - (line.length + 2)) (by omega) []
      rw [List.append_nil] at hlines'
      rw [parse_of_lines hline' hlines' hcontent htotal hoffset, if_pos (by
        rw [List.length_take]
        omega)]

theorem parse_incremental_options :
    let _ := CharData.ascii
    let s := jstr "OPTIONS * RTSP/1.0\r\nContent-Length: 2\r\n\r\nabcd"
    ∃ msg, parse s false = .ok (some msg) ∧ msg.mContent = jstr "ab" ∧
      ∀ k < msg.mLength.toNat, parse (s.take k) false = .ok none := by
  intro _ s
  have h : parse s false = .ok (some
      ⟨[(jstr "_", jstr "OPTIONS * RTSP/1.0"), (jstr "content-length", jstr "2")],
        jstr "ab", 43⟩) := by decide +kernel
  exact ⟨_, h, rfl, (parse_incremental h).2.2⟩

end MirrorCast.ParsedMessage
