import MirrorCast.Library.FirstMax
import MirrorCast.Verification.Video.Negotiation

/-! # `pickBestFormat` chooses the best resolution that both sides have -/

namespace MirrorCast.Video

open Java VideoFormats

/-- A row of the table, with its type and its index. -/
abbrev Row := ResolutionType × ℕ × FormatConfig

namespace Row

def score (r : Row) : ℕ := r.2.2.score

/-- The order of the table. -/
def Before (r r' : Row) : Prop :=
  r.1.ordinal < r'.1.ordinal ∨ r.1 = r'.1 ∧ r.2.1 < r'.2.1

instance (r r' : Row) : Decidable (r.Before r') := inferInstanceAs (Decidable (_ ∨ _))

/-- Both sides have the resolution enabled. -/
def common (sink source : Formats) (r : Row) : Bool :=
  (sink.mResolutionEnabled r.1).getLsbD r.2.1 && (source.mResolutionEnabled r.1).getLsbD r.2.1

end Row

/-- The rows of a type from index `j` on. -/
def rowsFrom (type : ResolutionType) (fcs : List FormatConfig) (j : ℕ) : List Row :=
  (fcs.zipIdx j).map fun p => (type, p.2, p.1)

def table : List Row :=
  ResolutionType.values.flatMap fun type => rowsFrom type (RESOLUTION_TABLE type) 0

theorem mem_table {type : ResolutionType} {j : ℕ} {fc : FormatConfig} :
    (type, j, fc) ∈ table ↔ (RESOLUTION_TABLE type)[j]? = some fc := by
  have hall : type ∈ ResolutionType.values := by cases type <;> decide
  simp only [table, rowsFrom, List.mem_flatMap, List.mem_map, Prod.mk.injEq]
  constructor
  · rintro ⟨type', -, ⟨fc', j'⟩, hmem, rfl, rfl, rfl⟩
    exact List.mem_zipIdx_iff_getElem?.mp hmem
  · intro h
    exact ⟨type, hall, (fc, j), List.mem_zipIdx_iff_getElem?.mpr h, rfl, rfl, rfl⟩

theorem pairwise_table : table.Pairwise Row.Before := by decide +kernel

/-! ## The loops -/

/-- What the loops keep of a row. -/
def asBest (best : Option Row) : Best := best.map fun r => (r.score, r.1, r.2.1)

theorem pickFrom_eq (sink source : Formats) (type : ResolutionType) (fcs : List FormatConfig)
    (j : ℕ) (best : Option Row) :
    pickFrom sink source type fcs j (asBest best) =
      asBest (((rowsFrom type fcs j).filter (Row.common sink source)).foldl
        (FirstMax.improve Row.score) best) := by
  induction fcs generalizing j best with
  | nil => rfl
  | cons fc fcs ih =>
      have hrows : rowsFrom type (fc :: fcs) j = (type, j, fc) :: rowsFrom type fcs (j + 1) := rfl
      rw [hrows]
      conv_lhs => unfold pickFrom
      by_cases hcommon : Row.common sink source (type, j, fc) = true
      · have hbits := Bool.and_eq_true_iff.mp hcommon
        rw [List.filter_cons_of_pos hcommon, List.foldl_cons, ← ih]
        refine congrArg (pickFrom sink source type fcs (j + 1)) ?_
        rw [if_pos hbits]
        cases best with
        | none => rfl
        | some b =>
            change (if b.score < fc.score then _ else _) =
              asBest (if b.score < fc.score then _ else _)
            split <;> rfl
      · have hbits : ¬ ((sink.mResolutionEnabled type).getLsbD j = true ∧
            (source.mResolutionEnabled type).getLsbD j = true) :=
          fun h => hcommon (Bool.and_eq_true_iff.mpr h)
        rw [List.filter_cons_of_neg hcommon, ← ih]
        dsimp only
        rw [if_neg hbits]

/-- The loops look for the first row with the highest score, among those both sides have. -/
theorem bestResolution_eq (sink source : Formats) :
    bestResolution sink source =
      asBest (FirstMax.run Row.score (table.filter (Row.common sink source))) := by
  have hnone : (none : Best) = asBest none := rfl
  simp only [bestResolution, table, ResolutionType.values, List.foldl_cons, List.foldl_nil,
    List.flatMap_cons, List.flatMap_nil, List.append_nil, List.filter_append, FirstMax.run,
    List.foldl_append, hnone, pickFrom_eq]

/-! ## The score -/

/-- `fc.width * fc.height * fc.framesPerSecond`, times two if not interlaced, as an `int`. -/
def intScore (fc : FormatConfig) : ℤ :=
  let score := int32 (int32 (fc.width * fc.height) * fc.framesPerSecond)
  if fc.interlaced then score else int32 (score * 2)

theorem intScore_eq (type : ResolutionType) :
    ∀ fc ∈ RESOLUTION_TABLE type, intScore fc = fc.score := by
  cases type <;> decide +kernel

/-! ## The choice -/

/-- Both sides have the resolution of the row. -/
def Common (sink source : Formats) (type : ResolutionType) (j : ℕ) (fc : FormatConfig) : Prop :=
  (RESOLUTION_TABLE type)[j]? = some fc ∧ (sink.mResolutionEnabled type).getLsbD j ∧
    (source.mResolutionEnabled type).getLsbD j

theorem mem_common {sink source : Formats} {type : ResolutionType} {j : ℕ} {fc : FormatConfig} :
    (type, j, fc) ∈ table.filter (Row.common sink source) ↔ Common sink source type j fc := by
  rw [List.mem_filter, mem_table, Row.common, Bool.and_eq_true]
  rfl

/-- The result is true exactly if there is a resolution that both sides have. The one chosen has
the highest score, which no `int` overflows for, and is the first of these in the table. -/
theorem pickBestFormat_argmax (t : Table) (sink source : Formats) :
    (∀ type, ∀ fc ∈ RESOLUTION_TABLE type, intScore fc =
      fc.width * fc.height * fc.framesPerSecond * if fc.interlaced then 1 else 2) ∧
    ∃ result, pickBestFormat t sink source = .ok result ∧
      (result.isSome ↔ ∃ type j fc, Common sink source type j fc) ∧
      ∀ c, result = some c → ∃ fc, Common sink source c.type c.index fc ∧
        ∀ type j fc', Common sink source type j fc' →
          intScore fc' ≤ intScore fc ∧
            (intScore fc' = intScore fc → (type, j) = (c.type, c.index) ∨
              c.type.ordinal < type.ordinal ∨ c.type = type ∧ c.index < j) := by
  have hscore (type : ResolutionType) (j : ℕ) (fc : FormatConfig)
      (h : Common sink source type j fc) : intScore fc = fc.score :=
    intScore_eq type fc (List.mem_of_getElem? h.1)
  refine ⟨fun type fc hfc => ?_, _, pickBestFormat_ok t sink source, ?_, ?_⟩
  · rw [intScore_eq type fc hfc, FormatConfig.score]
    push_cast
    rfl
  · rw [bestResolution_eq]
    cases hrun : FirstMax.run Row.score (table.filter (Row.common sink source)) with
    | none =>
        refine ⟨nofun, ?_⟩
        rintro ⟨type, j, fc, hcommon⟩
        have hmem := mem_common.mpr hcommon
        rw [FirstMax.run_eq_none.mp hrun] at hmem
        cases hmem
    | some r =>
        obtain ⟨pre, post, hsplit, -⟩ := FirstMax.isFirst_run hrun
        refine ⟨fun _ => ⟨r.1, r.2.1, r.2.2, mem_common.mp ?_⟩, fun _ => rfl⟩
        rw [hsplit]
        exact List.mem_append_right pre List.mem_cons_self
  · intro c hc
    rw [bestResolution_eq] at hc
    cases hrun : FirstMax.run Row.score (table.filter (Row.common sink source)) with
    | none =>
        rw [hrun] at hc
        cases hc
    | some r =>
        rw [hrun] at hc
        cases hc
        have hfirst := FirstMax.isFirst_run hrun
        have hmem : r ∈ table.filter (Row.common sink source) := by
          obtain ⟨pre, post, hsplit, -⟩ := hfirst
          rw [hsplit]
          exact List.mem_append_right pre List.mem_cons_self
        have hchosen := mem_common.mp hmem
        refine ⟨r.2.2, hchosen, fun type j fc' hcommon => ?_⟩
        rw [hscore _ _ _ hcommon, hscore _ _ _ hchosen]
        have hother := mem_common.mpr hcommon
        refine ⟨Int.ofNat_le.mpr (hfirst.le hother), fun hequal => ?_⟩
        rcases hfirst.not_before (pairwise_table.filter _) hother (Int.ofNat_inj.mp hequal) with
          heq | hbefore
        · exact Or.inl (by rw [← heq])
        · exact Or.inr hbefore

end MirrorCast.Video
