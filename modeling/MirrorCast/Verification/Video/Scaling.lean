import MirrorCast.Program.VideoEncoder
import Mathlib.Tactic.Linarith

/-! # Scaling a video into the display -/

namespace MirrorCast.VideoEncoder

open Java

/-! ## Exact products -/

/-- The `int` arithmetic has lost nothing. -/
def Exact (products : List ℤ) : Prop := ∀ p ∈ products, int32 p = p

theorem exact_iff {p : ℤ} (h : 0 ≤ p) : int32 p = p ↔ p < 2 ^ 31 := by
  constructor
  · intro hexact
    rw [← hexact]
    exact (int32_bounds p).2
  · intro hlt
    exact int32_eq (by omega) hlt

/-! ## A side of the scaled video -/

/-- A side computed from the other one. -/
def scaled (product side : ℤ) : ℤ := roundToEven (int32 (product.tdiv side))

theorem roundToEven_eq {n : ℤ} (hlo : 0 ≤ n) (hhi : n < 2 ^ 31) : roundToEven n = n - n % 2 := by
  unfold roundToEven
  split
  · rw [int32_eq (by omega) (by omega)]
    omega
  · omega

theorem scaled_eq {product side : ℤ} (hlo : 0 ≤ product) (hhi : product < 2 ^ 31)
    (hside : 0 < side) : scaled product side = product / side - product / side % 2 := by
  have hle : product / side ≤ product := Int.ediv_le_self side hlo
  have hnonneg : 0 ≤ product / side := Int.ediv_nonneg hlo hside.le
  rw [scaled, Int.tdiv_eq_ediv_of_nonneg hlo, int32_eq (by omega) (by omega),
    roundToEven_eq hnonneg (by omega)]

/-- A quotient that is rounded down to an even number is positive from two on. -/
theorem one_le_scaled {product side : ℤ} (hlo : 0 ≤ product) (hhi : product < 2 ^ 31)
    (hside : 0 < side) : 1 ≤ scaled product side ↔ 2 * side ≤ product := by
  have hdouble : 2 ≤ product / side ↔ 2 * side ≤ product := Int.le_ediv_iff_mul_le hside
  rw [scaled_eq hlo hhi hside, ← hdouble]
  omega

theorem scaled_le {product side limit : ℤ} (hlo : 0 ≤ product) (hhi : product < 2 ^ 31)
    (hside : 0 < side) (hlimit : product < side * limit) : scaled product side ≤ limit := by
  have hlt : product / side < limit := Int.ediv_lt_of_lt_mul hside (by linarith)
  rw [scaled_eq hlo hhi hside]
  omega

/-! ## The new size -/

theorem bind_apply {α β : Type} (x : Calculation α) (f : α → Calculation β) (products : List ℤ) :
    (x >>= f) products = (x products >>= fun out => f out.1 out.2) := rfl

theorem mul_apply (a b : ℤ) (products : List ℤ) :
    mul a b products = .ok (int32 (a * b), products ++ [a * b]) := rfl

theorem div_apply {a b : ℤ} (hb : b ≠ 0) (products : List ℤ) :
    div a b products = .ok (int32 (a.tdiv b), products) := by
  rw [div, if_neg hb]
  rfl

theorem newSize_eq {w h dw dh : ℤ} (hleft : int32 (w * dh) = w * dh)
    (hright : int32 (dw * h) = dw * h) (hw : w ≠ 0) (hh : h ≠ 0) :
    ∃ products, newSize w h dw dh [] = .ok
      (if dw * h < w * dh then (dw, scaled (h * dw) w)
        else if w * dh < dw * h then (scaled (w * dh) h, dh) else (dw, dh), products) ∧
      Exact products := by
  have hright' : int32 (h * dw) = h * dw := by rwa [Int.mul_comm]
  by_cases hwide : dw * h < w * dh
  · refine ⟨[w * dh, dw * h, h * dw], ?_, by simp [Exact, *]⟩
    simp only [newSize, bind_apply, mul_apply, ok_bind, hleft, hright, if_pos hwide,
      div_apply hw, hright', scaled]
    rfl
  · by_cases htall : w * dh < dw * h
    · refine ⟨[w * dh, dw * h, w * dh, dw * h, w * dh], ?_, by simp [Exact, *]⟩
      simp only [newSize, bind_apply, mul_apply, ok_bind, hleft, hright, if_neg hwide, if_pos htall,
        div_apply hh, scaled]
      rfl
    · refine ⟨[w * dh, dw * h, w * dh, dw * h], ?_, by simp [Exact, *]⟩
      simp only [newSize, bind_apply, mul_apply, ok_bind, hleft, hright, if_neg hwide, if_neg htall]
      rfl

/-- The products that are already there stay. -/
def Keeps {α : Type} (x : Calculation α) : Prop :=
  ∀ ⦃products a products'⦄, x products = .ok (a, products') → ∀ p ∈ products, p ∈ products'

theorem Keeps.bind {α β : Type} {x : Calculation α} {f : α → Calculation β} (hx : Keeps x)
    (hf : ∀ a, Keeps (f a)) : Keeps (x >>= f) := by
  intro products b products' h p hp
  obtain ⟨⟨a, middle⟩, ha, hb⟩ := bind_eq_ok.mp h
  exact hf a hb p (hx ha p hp)

theorem keeps_pure {α : Type} (a : α) : Keeps (pure a : Calculation α) := by
  intro products b products' h p hp
  cases h
  exact hp

theorem keeps_mul (a b : ℤ) : Keeps (mul a b) := by
  intro products c products' h p hp
  rw [mul_apply] at h
  cases h
  exact List.mem_append_left _ hp

theorem keeps_div (a b : ℤ) : Keeps (div a b) := by
  unfold div
  split
  · intro products c products' h
    cases h
  · exact keeps_pure _

/-- The comparison multiplies each side of the video by the other side of the display. -/
theorem mem_of_newSize {w h dw dh : ℤ} {size : ℤ × ℤ} {products : List ℤ}
    (hsize : newSize w h dw dh [] = .ok (size, products)) :
    w * dh ∈ products ∧ dw * h ∈ products := by
  simp only [newSize, bind_apply, mul_apply, ok_bind] at hsize
  have hkeeps : ∀ p ∈ [w * dh, dw * h], p ∈ products := by
    split at hsize
    · exact ((keeps_mul _ _).bind fun _ => (keeps_div _ _).bind fun _ => keeps_pure _) hsize
    · refine ((keeps_mul _ _).bind fun _ => (keeps_mul _ _).bind fun _ => ?_) hsize
      split
      · exact (keeps_mul _ _).bind fun _ => (keeps_div _ _).bind fun _ => keeps_pure _
      · exact keeps_pure _
  exact ⟨hkeeps _ (by simp), hkeeps _ (by simp)⟩

/-- The two sides that are chosen lie within the display, and no product was cut. -/
def Fits (w h dw dh : ℤ) : Prop :=
  ∃ size products, newSize w h dw dh [] = .ok (size, products) ∧
    (1 ≤ size.1 ∧ size.1 ≤ dw) ∧ (1 ≤ size.2 ∧ size.2 ≤ dh) ∧ Exact products

theorem fits_iff_of_run {w h dw dh : ℤ} {size : ℤ × ℤ} {products : List ℤ}
    (hrun : newSize w h dw dh [] = .ok (size, products)) (hexact : Exact products) :
    Fits w h dw dh ↔ (1 ≤ size.1 ∧ size.1 ≤ dw) ∧ (1 ≤ size.2 ∧ size.2 ≤ dh) := by
  constructor
  · rintro ⟨size', products', hrun', hwidth, hheight, -⟩
    rw [hrun] at hrun'
    cases hrun'
    exact ⟨hwidth, hheight⟩
  · rintro ⟨hwidth, hheight⟩
    exact ⟨size, products, hrun, hwidth, hheight, hexact⟩

theorem fits_iff {w h dw dh : ℤ} (hw : 0 < w) (hh : 0 < h) (hdw : 0 < dw) (hdh : 0 < dh) :
    Fits w h dw dh ↔
      w * dh < 2 ^ 31 ∧ dw * h < 2 ^ 31 ∧ (dw * h < w * dh → 2 * w ≤ dw * h) ∧
        (w * dh < dw * h → 2 * h ≤ w * dh) := by
  have hleft : 0 ≤ w * dh := (mul_pos hw hdh).le
  have hright : 0 ≤ dw * h := (mul_pos hdw hh).le
  have hcomm : h * dw = dw * h := Int.mul_comm h dw
  by_cases hexact : w * dh < 2 ^ 31 ∧ dw * h < 2 ^ 31
  · obtain ⟨hltl, hltr⟩ := hexact
    obtain ⟨products, hsize, hproducts⟩ :=
      newSize_eq ((exact_iff hleft).mpr hltl) ((exact_iff hright).mpr hltr) hw.ne' hh.ne'
    rw [fits_iff_of_run hsize hproducts]
    rcases lt_trichotomy (w * dh) (dw * h) with htall | hequal | hwide
    · rw [if_neg (by omega), if_pos htall]
      have hlo := one_le_scaled hleft hltl hh
      have hhi := scaled_le hleft hltl hh (show w * dh < h * dw by omega)
      omega
    · rw [if_neg (by omega), if_neg (by omega)]
      omega
    · rw [if_pos hwide, hcomm]
      have hlo := one_le_scaled hright hltr hw
      have hhi := scaled_le hright hltr hw hwide
      omega
  · refine iff_of_false ?_ (by tauto)
    rintro ⟨size, products, hsize, -, -, hproducts⟩
    obtain ⟨hmeml, hmemr⟩ := mem_of_newSize hsize
    exact hexact ⟨(exact_iff hleft).mp (hproducts _ hmeml),
      (exact_iff hright).mp (hproducts _ hmemr)⟩

/-! ## The format -/

/-- The video gets a size within the display, its own if that is one, without an overflow. -/
def ScalesInto (mDisplayMetrics : DisplayMetrics) (format : MediaFormat) : Prop :=
  ∃ out products, checkFormat mDisplayMetrics format [] = .ok (out, products) ∧
    (1 ≤ out.1.mWidth ∧ out.1.mWidth ≤ mDisplayMetrics.widthPixels) ∧
    (1 ≤ out.1.mHeight ∧ out.1.mHeight ≤ mDisplayMetrics.heightPixels) ∧
    (format.KEY_WIDTH ≤ mDisplayMetrics.widthPixels ∧
      format.KEY_HEIGHT ≤ mDisplayMetrics.heightPixels →
      out.1.mWidth = format.KEY_WIDTH ∧ out.1.mHeight = format.KEY_HEIGHT) ∧
    Exact products

/-- A video that fits keeps its size. -/
theorem scalesInto_of_fits {m : DisplayMetrics} {format : MediaFormat}
    (hwidth : 0 < format.KEY_WIDTH) (hheight : 0 < format.KEY_HEIGHT)
    (hfits : format.KEY_WIDTH ≤ m.widthPixels ∧ format.KEY_HEIGHT ≤ m.heightPixels) :
    ScalesInto m format := by
  refine ⟨setFormat format format.KEY_WIDTH format.KEY_HEIGHT, [], ?_, ⟨hwidth, hfits.1⟩,
    ⟨hheight, hfits.2⟩, fun _ => ⟨rfl, rfl⟩, by simp [Exact]⟩
  rw [checkFormat, if_neg (by omega)]
  rfl

/-- Otherwise the size is computed. -/
theorem scalesInto_iff_fits {m : DisplayMetrics} {format : MediaFormat}
    (hlarge : m.widthPixels < format.KEY_WIDTH ∨ m.heightPixels < format.KEY_HEIGHT) :
    ScalesInto m format ↔
      Fits format.KEY_WIDTH format.KEY_HEIGHT m.widthPixels m.heightPixels := by
  rw [ScalesInto, checkFormat, if_pos hlarge]
  constructor
  · rintro ⟨out, products, hrun, hw, hh, -, hexact⟩
    obtain ⟨⟨size, products'⟩, hsize, hpure⟩ := bind_eq_ok.mp hrun
    cases hpure
    exact ⟨size, products, hsize, hw, hh, hexact⟩
  · rintro ⟨size, products, hsize, hw, hh, hexact⟩
    refine ⟨setFormat format size.1 size.2, products, ?_, hw, hh, by omega, hexact⟩
    rw [bind_apply, hsize]
    rfl

/-- A video that is too large is scaled if both products of the comparison are in range, and if
the side that follows from the other one comes out as two at least. -/
theorem checkFormat_scalesInto_iff (mDisplayMetrics : DisplayMetrics) (format : MediaFormat)
    (hwidth : 0 < format.KEY_WIDTH) (hheight : 0 < format.KEY_HEIGHT)
    (hdisplayWidth : 0 < mDisplayMetrics.widthPixels)
    (hdisplayHeight : 0 < mDisplayMetrics.heightPixels) :
    ScalesInto mDisplayMetrics format ↔
      (format.KEY_WIDTH ≤ mDisplayMetrics.widthPixels ∧
        format.KEY_HEIGHT ≤ mDisplayMetrics.heightPixels) ∨
      (format.KEY_WIDTH * mDisplayMetrics.heightPixels < 2 ^ 31 ∧
        mDisplayMetrics.widthPixels * format.KEY_HEIGHT < 2 ^ 31 ∧
        (mDisplayMetrics.widthPixels * format.KEY_HEIGHT <
            format.KEY_WIDTH * mDisplayMetrics.heightPixels →
          2 * format.KEY_WIDTH ≤ mDisplayMetrics.widthPixels * format.KEY_HEIGHT) ∧
        (format.KEY_WIDTH * mDisplayMetrics.heightPixels <
            mDisplayMetrics.widthPixels * format.KEY_HEIGHT →
          2 * format.KEY_HEIGHT ≤ format.KEY_WIDTH * mDisplayMetrics.heightPixels)) := by
  by_cases hfits : format.KEY_WIDTH ≤ mDisplayMetrics.widthPixels ∧
      format.KEY_HEIGHT ≤ mDisplayMetrics.heightPixels
  · exact ⟨fun _ => .inl hfits, fun _ => scalesInto_of_fits hwidth hheight hfits⟩
  · rw [scalesInto_iff_fits (by omega), or_iff_right hfits]
    exact fits_iff hwidth hheight hdisplayWidth hdisplayHeight

/-- A landscape video on a portrait display. -/
theorem checkFormat_scalesInto_landscape :
    ScalesInto ⟨1080, 1920⟩ ⟨1920, 1080, 5000000, 30, 10, none, none⟩ :=
  (checkFormat_scalesInto_iff ⟨1080, 1920⟩ ⟨1920, 1080, 5000000, 30, 10, none, none⟩
    (by decide) (by decide) (by decide) (by decide)).mpr (.inr (by decide))

/-- A line of 4000 pixels gets the height 0, and a square of two million pixels overflows. -/
theorem checkFormat_scalesInto_fails :
    ¬ ScalesInto ⟨1080, 1920⟩ ⟨4000, 1, 5000000, 30, 10, none, none⟩ ∧
    ¬ ScalesInto ⟨1080, 1920⟩ ⟨2000000, 2000000, 5000000, 30, 10, none, none⟩ := by
  constructor
  · rw [scalesInto_iff_fits (by decide), fits_iff (by decide) (by decide) (by decide) (by decide)]
    decide
  · rw [scalesInto_iff_fits (by decide), fits_iff (by decide) (by decide) (by decide) (by decide)]
    decide

end MirrorCast.VideoEncoder
