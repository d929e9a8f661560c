/-
Module: TrustRegion.Proofs.GradientCheck.Detection
Purpose: What a check of a gradient detects. Between derivatives in range the relative error lies between
  zero and two and vanishes only if they are equal. A row with a derivative out of range has no relative error
  or that of two equal derivatives, and the largest relative error passes it over, so that it shows a wrong
  Jacobian exactly if two derivatives in range differ.
Main exports: GradientRow.InRange, GradientRow.Undefined, GradientRow.Rated, GradientRow.rated_make,
  GradientReport.maxRelativeError_eq_zero_iff, Problem.gradientCheck_detects_unless_outOfRange
-/
import TrustRegion.Proofs.Scalar.ExtendedReal
import TrustRegion.Proofs.GradientCheck.Comparison

namespace TrustRegion

open Scalar

namespace GradientRow

variable {α : Type} [Scalar α]

/-- Both derivatives of a row are in range. -/
def InRange (row : GradientRow α) : Prop :=
  isFinite row.reported = true ∧ isFinite row.observed = true

/-- A derivative of a row is undefined. -/
def Undefined (row : GradientRow α) : Prop :=
  isNaN row.reported = true ∨ isNaN row.observed = true

/-- How a row rates its derivatives. Two in range are as far apart as the relative error says; an undefined
one is rated like two that agree, and beside an infinite one there is no rating. -/
structure Rated (row : GradientRow ExtendedReal) : Prop where
  inRange : row.InRange → ∃ gap : ℝ, row.relativeError = .finite gap ∧ 0 ≤ gap ∧ gap ≤ 2 ∧
    (gap = 0 ↔ row.reported = row.observed)
  undefined : row.Undefined → row.relativeError = 0
  infinite : ¬ row.InRange → ¬ row.Undefined → row.relativeError = .undefined

end GradientRow

/-! ### One row -/

/-- A difference relative to the mean magnitude is at most two, and zero only if there is none. -/
theorem relative_difference (x y : ℝ) :
    0 ≤ |x - y| / ((|x| + |y|) / 2) ∧ |x - y| / ((|x| + |y|) / 2) ≤ 2 ∧
      (|x - y| / ((|x| + |y|) / 2) = 0 ↔ x = y) := by
  have hx := abs_nonneg x
  have hy := abs_nonneg y
  refine ⟨by positivity, ?_, ?_⟩
  · refine div_le_of_le_mul₀ (by positivity) zero_le_two ?_
    calc |x - y| ≤ |x| + |y| := abs_sub x y
      _ = 2 * ((|x| + |y|) / 2) := by ring
  · rw [div_eq_zero_iff, abs_eq_zero, sub_eq_zero]
    refine or_iff_left_of_imp fun hscale => ?_
    have hx0 : |x| = 0 := by linarith
    have hy0 : |y| = 0 := by linarith
    rw [abs_eq_zero.mp hx0, abs_eq_zero.mp hy0]

namespace GradientRow

open ExtendedReal

variable (index measurement : ℕ)

theorem half_finite (x : ℝ) : (.finite x / 2.0 : ExtendedReal) = .finite (x / 2) := by
  have htwo : (2.0 : ℝ) = 2 := by norm_num
  have hdiv : (.finite x / 2.0 : ExtendedReal) = .finite (x / 2.0) := finite_div (by norm_num) x
  rw [hdiv, htwo]

theorem half_infinite (negative : Bool) :
    (.infinite negative / 2.0 : ExtendedReal) = .infinite negative := by
  have htwo : ¬ (2.0 : ℝ) < 0 := by norm_num
  show ExtendedReal.infinite (if (2.0 : ℝ) < 0 then !negative else negative) = _
  rw [if_neg htwo]

/-- Derivatives in range are rated by their difference relative to their mean magnitude. -/
theorem relativeError_make_finite (x y : ℝ) :
    (make index measurement (.finite x) (.finite y) : GradientRow ExtendedReal).relativeError =
      .finite (|x - y| / ((|x| + |y|) / 2)) := by
  simp only [make, abs_finite, finite_sub, finite_add, half_finite, zero_eq, finite_lt_finite]
  split
  · rename_i hscale
    exact finite_div hscale.ne' _
  · rename_i hscale
    -- the quotient by a scale of zero is zero as well
    have hzero : (|x| + |y|) / 2 = 0 := le_antisymm (not_lt.mp hscale) (by positivity)
    rw [hzero, div_zero]

/-- An undefined derivative makes the scale undefined, which is then not above zero. -/
theorem relativeError_make_undefined {reported observed : ExtendedReal}
    (h : reported = .undefined ∨ observed = .undefined) :
    (make index measurement reported observed).relativeError = 0 := by
  have hscale : (Scalar.abs reported + Scalar.abs observed) / 2.0 = .undefined := by
    rcases h with rfl | rfl <;> simp
  simp only [make, hscale]
  exact if_neg (not_lt_undefined 0)

/-- Beside an infinite scale the error is not in range, so that there is no quotient. -/
theorem relativeError_make_infinite {reported observed : ExtendedReal}
    (scale : (Scalar.abs reported + Scalar.abs observed) / 2.0 = .infinite false)
    (error : Scalar.isFinite (reported - observed) = false) :
    (make index measurement reported observed).relativeError = .undefined := by
  simp only [make, scale]
  rw [if_pos zero_lt_infinite_false]
  rcases h : reported - observed with _ | s | x
  · rfl
  · rfl
  · rw [h] at error
    cases error

/-- Every row that compares a reported with an observed derivative rates them. -/
theorem rated_make (reported observed : ExtendedReal) :
    (make index measurement reported observed).Rated where
  inRange := by
    rintro ⟨hreported, hobserved⟩
    rcases reported with _ | s | x
    · cases hreported
    · cases hreported
    · rcases observed with _ | t | y
      · cases hobserved
      · cases hobserved
      · obtain ⟨hnonneg, hle, hzero⟩ := relative_difference x y
        exact ⟨_, relativeError_make_finite index measurement x y, hnonneg, hle,
          hzero.trans (ExtendedReal.finite.injEq x y ▸ Iff.rfl)⟩
  undefined h := relativeError_make_undefined index measurement (h.imp isNaN_iff.mp isNaN_iff.mp)
  infinite hrange hdefined := by
    -- the scale is infinite as soon as one of the derivatives is, and their difference is not in range
    rcases reported with _ | s | x <;> rcases observed with _ | t | y
    case finite.finite => exact absurd ⟨rfl, rfl⟩ hrange
    case infinite.infinite =>
      refine relativeError_make_infinite index measurement (half_infinite false) ?_
      cases s <;> cases t <;> rfl
    case infinite.finite =>
      exact relativeError_make_infinite index measurement (half_infinite false) rfl
    case finite.infinite =>
      exact relativeError_make_infinite index measurement (half_infinite false) rfl
    all_goals exact absurd (by simp [Undefined, make]) hdefined

/-- A row without a rating is one with an infinite derivative and no undefined one. -/
theorem Rated.defined_iff {row : GradientRow ExtendedReal} (h : row.Rated) :
    (row.relativeError == row.relativeError) = true ↔ row.InRange ∨ row.Undefined := by
  rw [placedBy.beq_self_iff]
  constructor
  · rintro ⟨r, hr⟩
    by_contra hnone
    rw [h.infinite (fun hrange => hnone (.inl hrange)) fun hundefined => hnone (.inr hundefined)] at hr
    cases hr
  · rintro (hrange | hundefined)
    · obtain ⟨gap, hgap, -⟩ := h.inRange hrange
      exact ⟨_, congrArg place hgap⟩
    · exact ⟨_, congrArg place (h.undefined hundefined)⟩

end GradientRow

/-! ### The largest relative error -/

namespace GradientReport

variable {α : Type} [Scalar α]

theorem maxRelativeError_eq (r : GradientReport α) :
    r.maxRelativeError = (r.rows.map GradientRow.relativeError).foldl maxLenient 0 :=
  List.foldl_map.symm

variable [LawfulScalar α]

/-- The largest relative error is at least zero and at least every relative error that is defined. -/
theorem le_maxRelativeError (r : GradientReport α) :
    0 ≤ r.maxRelativeError ∧ ∀ row, row ∈ r.rows →
      (row.relativeError == row.relativeError) = true → row.relativeError ≤ r.maxRelativeError := by
  have hzero : ((0 : α) == 0) = true :=
    LawfulScalar.beq_self_of_isFinite LawfulScalar.isFinite_zero
  obtain ⟨hstart, hall⟩ := le_foldl_maxLenient hzero (r.rows.map GradientRow.relativeError)
  rw [maxRelativeError_eq]
  exact ⟨hstart, fun row hrow => hall _ (List.mem_map_of_mem hrow)⟩

/-- The largest relative error is zero or a relative error that is defined. -/
theorem maxRelativeError_eq_zero_or (r : GradientReport α) :
    r.maxRelativeError = 0 ∨ ∃ row, row ∈ r.rows ∧
      (row.relativeError == row.relativeError) = true ∧ r.maxRelativeError = row.relativeError := by
  have hzero : ((0 : α) == 0) = true :=
    LawfulScalar.beq_self_of_isFinite LawfulScalar.isFinite_zero
  rw [maxRelativeError_eq]
  rcases foldl_maxLenient_eq hzero (r.rows.map GradientRow.relativeError) with
    h | ⟨x, hx, hdefined, h⟩
  · exact .inl h
  · obtain ⟨row, hrow, rfl⟩ := List.mem_map.mp hx
    exact .inr ⟨row, hrow, hdefined, h⟩

end GradientReport

namespace GradientReport

variable {r : GradientReport ExtendedReal}

/-- The largest relative error is at least that of a row exactly if the row has a rating. -/
theorem relativeError_le_iff {row : GradientRow ExtendedReal} (rated : row.Rated)
    (hrow : row ∈ r.rows) :
    row.relativeError ≤ r.maxRelativeError ↔ row.InRange ∨ row.Undefined := by
  rw [← rated.defined_iff]
  exact ⟨fun hle => (LawfulScalar.beq_self_of_le hle).1, r.le_maxRelativeError.2 row hrow⟩

/-- The largest relative error is zero exactly if all derivatives in range are equal, whatever is out of
range. -/
theorem maxRelativeError_eq_zero_iff (rated : ∀ row, row ∈ r.rows → row.Rated) :
    r.maxRelativeError = 0 ↔
      ∀ row, row ∈ r.rows → row.InRange → row.reported = row.observed := by
  constructor
  · intro hmax row hrow hrange
    obtain ⟨gap, hgap, hnonneg, -, hequal⟩ := (rated row hrow).inRange hrange
    have hle := (relativeError_le_iff (rated row hrow) hrow).mpr (.inl hrange)
    rw [hmax, hgap] at hle
    exact hequal.mp (le_antisymm (ExtendedReal.finite_le_finite.mp hle) hnonneg)
  · intro hequal
    rcases r.maxRelativeError_eq_zero_or with hmax | ⟨row, hrow, hdefined, hmax⟩
    · exact hmax
    · rw [hmax]
      rcases (rated row hrow).defined_iff.mp hdefined with hrange | hundefined
      · obtain ⟨gap, hgap, -, -, hzero⟩ := (rated row hrow).inRange hrange
        rw [hgap, hzero.mpr (hequal row hrow hrange)]
        rfl
      · exact (rated row hrow).undefined hundefined

end GradientReport

namespace Problem

/-- Every row of a report rates its derivatives. -/
theorem rated_of_gradientCheck {p : Problem ExtendedReal} {index : ℕ} {state : Vec ExtendedReal}
    {report : GradientReport ExtendedReal} (checked : (p.gradientCheck index state).value = .ok report)
    {row : GradientRow ExtendedReal} (hrow : row ∈ report.rows) : row.Rated := by
  obtain ⟨before, after, reported, hrows⟩ := rows_of_gradientCheck checked
  rw [hrows] at hrow
  obtain ⟨i, hi⟩ := List.mem_iff_getElem?.mp hrow
  rw [eq_make_of_getElem? hi]
  exact GradientRow.rated_make _ _ _ _

/-- A check finds every difference between derivatives in range, and no derivative out of range. The largest
relative error is at least that of every row that has one, and it is zero exactly if the derivatives in
range are equal; so it tells that all rows are in range and equal exactly if no row is out of range or a row
in range gives the difference away. -/
theorem gradientCheck_detects_unless_outOfRange (p : Problem ExtendedReal) (index : ℕ)
    (state : Vec ExtendedReal) (report : GradientReport ExtendedReal)
    (checked : (p.gradientCheck index state).value = .ok report) :
    (∀ row, row ∈ report.rows →
      row.Rated ∧ (row.relativeError ≤ report.maxRelativeError ↔ row.InRange ∨ row.Undefined)) ∧
    (report.maxRelativeError = 0 ↔
      ∀ row, row ∈ report.rows → row.InRange → row.reported = row.observed) ∧
    ((report.maxRelativeError = 0 →
        ∀ row, row ∈ report.rows → row.InRange ∧ row.reported = row.observed) ↔
      (∀ row, row ∈ report.rows → row.InRange) ∨
        ∃ row, row ∈ report.rows ∧ row.InRange ∧ row.reported ≠ row.observed) := by
  have hrated (row : GradientRow ExtendedReal) (hrow : row ∈ report.rows) : row.Rated :=
    rated_of_gradientCheck checked hrow
  have hzero := GradientReport.maxRelativeError_eq_zero_iff hrated
  refine ⟨fun row hrow => ⟨hrated row hrow,
    GradientReport.relativeError_le_iff (hrated row hrow) hrow⟩, hzero, ?_⟩
  constructor
  · intro htells
    by_cases hequal : ∀ row, row ∈ report.rows → row.InRange → row.reported = row.observed
    · exact .inl fun row hrow => (htells (hzero.mpr hequal) row hrow).1
    · push Not at hequal
      exact .inr hequal
  · rintro (hranges | ⟨row, hrow, hrange, hdiffer⟩) hmax
    · exact fun row hrow => ⟨hranges row hrow, hzero.mp hmax row hrow (hranges row hrow)⟩
    · exact absurd (hzero.mp hmax row hrow hrange) hdiffer

/-- Two measurements of one variable, with the given values for derivatives. -/
def twoDerivatives {α : Type} [Scalar α] (first second : α) : Problem α :=
  .dense (fun _ state _ _ => (.ok ⟨#[state.entry 0, state.entry 0]⟩, ⟨#[first, second]⟩)) 2

/-- With an undefined and an infinite derivative the largest relative error is zero, and it is not at least
that of the second row. -/
theorem gradientCheck_misses_twoDerivatives :
    ∃ report first second,
      ((twoDerivatives .undefined (.infinite false) : Problem ExtendedReal).gradientCheck 0
        ⟨#[0]⟩).value = .ok report ∧
      report.rows = [first, second] ∧
      first.reported = .undefined ∧ second.reported = .infinite false ∧
      report.maxRelativeError = 0 ∧ ¬ second.relativeError ≤ report.maxRelativeError := by
  obtain ⟨first, second, change, hchecked, hfirst, hsecond, hobserved⟩ :
      ∃ first second change, ((twoDerivatives .undefined (.infinite false) :
          Problem ExtendedReal).gradientCheck 0 ⟨#[0]⟩).value = .ok ⟨[first, second]⟩ ∧
        first.reported = .undefined ∧ second.reported = .infinite false ∧
        second.observed = .finite change / .finite 1e-6 :=
    ⟨_, _, _, rfl, rfl, rfl, rfl⟩
  rw [ExtendedReal.finite_div (by norm_num)] at hobserved
  have hfirstOut : ¬ first.InRange := by
    rintro ⟨hreported, -⟩
    rw [hfirst] at hreported
    cases hreported
  have hsecondOut : ¬ second.InRange := by
    rintro ⟨hreported, -⟩
    rw [hsecond] at hreported
    cases hreported
  have hsecondDefined : ¬ second.Undefined := by
    simp [GradientRow.Undefined, hsecond, hobserved]
  obtain ⟨hrows, hzero, -⟩ := gradientCheck_detects_unless_outOfRange _ _ _ _ hchecked
  refine ⟨_, first, second, hchecked, rfl, hfirst, hsecond, hzero.mpr ?_, ?_⟩
  · simp [hfirstOut, hsecondOut]
  · rw [(hrows second (by simp)).2]
    exact not_or_intro hsecondOut hsecondDefined

/-- On doubles, too, the largest relative error is zero. -/
example :
    (((twoDerivatives (0.0 / 0.0) (1.0 / 0.0) : Problem Float).gradientCheck 0 ⟨#[0]⟩).value.toOption.map
      fun report => report.maxRelativeError == 0) = some true := by
  decide +kernel

end Problem

end TrustRegion
