/-
Module: TrustRegion.Proofs.GradientCheck.Agreement
Purpose: A check of a gradient makes no difference between the kinds of callback. Without rounding, a model
  whose values fit comes to the same report through a writer and in a buffer: a row for each measurement, in
  order, with the sum of the entries that are reported and the change of the residual that is observed. Where
  the residuals change at a constant rate the rows show how far each derivative is off.
Main exports: GradientReport.Compares, GradientReport.Compares.errors_vanish_iff, Problem.column_of_report,
  Model.AffineAlong, Model.ComparedIn, Model.gradient_checks_agree
-/
import TrustRegion.Proofs.Scalar.Exact
import TrustRegion.Proofs.GradientCheck.Comparison
import TrustRegion.Proofs.Model.Agreement

namespace TrustRegion

/-! ### What a report compares -/

/-- A report on a variable that holds one row for each measurement, in order, with the derivatives that are
reported and observed and their difference. -/
structure GradientReport.Compares (report : GradientReport ℝ) (index measurements : ℕ)
    (reported observed : ℕ → ℝ) : Prop where
  length_eq : report.rows.length = measurements
  row : ∀ i, i < measurements → ∃ row, report.rows[i]? = some row ∧ row.index = index ∧
    row.measurement = i ∧ row.reported = reported i ∧ row.observed = observed i ∧
    row.error = reported i - observed i

namespace GradientReport.Compares

/-- The rows of a comparison of residuals and of a column that all have the right length. -/
theorem of_gradientRows (index measurements : ℕ) (before after : Vec ℝ) (reported : ℕ → ℝ) :
    Compares ⟨gradientRows index (before.fit measurements) (after.fit measurements)
      (Vec.ofFn measurements reported)⟩ index measurements reported
      fun i => (after.entry i - before.entry i) / checkDistance where
  length_eq := by
    rw [length_gradientRows, Vec.size_fit, Vec.size_fit, Vec.size_ofFn, min_self, min_self]
  row i hi := by
    have hrow : i < min (before.fit measurements).size
        (min (after.fit measurements).size (Vec.ofFn measurements reported).size) := by
      rw [Vec.size_fit, Vec.size_fit, Vec.size_ofFn, min_self, min_self]
      exact hi
    have hmake := getElem?_gradientRows index hrow
    rw [Vec.fit, Vec.fit, Vec.entry_ofFn hi, Vec.entry_ofFn hi, Vec.entry_ofFn hi] at hmake
    exact ⟨_, hmake, rfl, rfl, rfl, rfl, rfl⟩

variable {report : GradientReport ℝ} {index measurements : ℕ} {reported observed : ℕ → ℝ}

/-- All errors vanish exactly if what is reported is what is observed. -/
theorem errors_vanish_iff (h : report.Compares index measurements reported observed) :
    (∀ row, row ∈ report.rows → row.error = 0) ↔
      ∀ i, i < measurements → reported i = observed i := by
  constructor
  · intro hvanish i hi
    obtain ⟨row, hrow, -, -, -, -, herror⟩ := h.row i hi
    rw [hvanish row (List.mem_of_getElem? hrow)] at herror
    exact sub_eq_zero.mp herror.symm
  · intro hequal row hrow
    obtain ⟨i, hi⟩ := List.mem_iff_getElem?.mp hrow
    have hlt : i < measurements := by
      rw [← h.length_eq]
      exact (List.getElem?_eq_some_iff.mp hi).1
    obtain ⟨row', hrow', -, -, -, -, herror⟩ := h.row i hlt
    rw [hi] at hrow'
    cases hrow'
    rw [herror, hequal i hlt, sub_self]

end GradientReport.Compares

/-! ### Moving a variable -/

theorem checkDistance_pos : (0 : ℝ) < checkDistance := by
  unfold checkDistance
  norm_num

/-- Moving a variable by nothing leaves the state as it is. -/
theorem Vec.modify_add_zero (state : Vec ℝ) (index : ℕ) :
    (state.modify index fun x => x + 0) = state := by
  simp only [add_zero]
  apply Vec.ext_entry (Vec.size_modify _ _ _)
  intro i hi
  rw [Vec.size_modify] at hi
  rw [Vec.entry_modify_of_lt _ _ hi]
  split <;> rfl

/-! ### The column of a reported Jacobian -/

/-- The column of a full matrix holds the derivatives of all measurements. -/
theorem Jacobian.column_dense {m : Matrix ℝ} {i : ℕ} (hi : i < m.cols) :
    partialDerivatives (.dense m) i = Vec.ofFn m.rows fun r => slope (.dense m) r i := by
  have hpresent : ¬ (Jacobian.dense m).states ≤ i := not_le.mpr hi
  rw [partialDerivatives, if_neg hpresent]
  refine Vec.ofFn_congr fun r _ => ?_
  show _ = Entry.value (StoredMatrix.stored (StoredMatrix.ofFull m) r i)
  rw [StoredMatrix.stored_ofFull]
  rfl

/-- The column that is reported for a state holds the derivatives of all measurements. -/
theorem Problem.column_of_report {p : Problem ℝ} {n calls : ℕ} {state : Vec ℝ}
    {evaluation : Evaluation ℝ} (h : p.report n calls state = some evaluation) {i : ℕ} (hi : i < n) :
    evaluation.jacobian.partialDerivatives i =
      Vec.ofFn p.measurements fun r => evaluation.jacobian.slope r i := by
  cases p with
  | sparse callback measurements capacity =>
      unfold report at h
      dsimp only at h
      split at h
      · cases h
      · cases h
        refine (SparseJacobian.partialDerivatives_assembled hi).trans (Vec.ofFn_congr fun r hr => ?_)
        exact (SparseJacobian.value_assemble _ hr hi).symm
  | dense callback measurements =>
      unfold report at h
      dsimp only at h
      split at h
      · cases h
      · cases h
        exact Jacobian.column_dense hi

namespace Model

variable {model : Model ℝ} {values base shifted : ModelValues ℝ}
  {index states measurements capacity calls : ℕ} {state : Vec ℝ} {p : Problem ℝ}

/-- The error of a model is the answer of either callback. -/
theorem answer_of_error (hp : p ∈ model.problems measurements capacity) {error : ProblemError ℝ}
    (failed : model.values calls state = .error error) :
    (p.answer states calls state).value = .error error :=
  Problem.failure?_eq_some_iff.mp (failure?_of_error hp failed)

/-- Values that fit are the answer of either callback: the residuals, and columns of the sums of the
entries. -/
theorem answer_of_fits (hp : p ∈ model.problems measurements capacity)
    (fits : values.Fits states measurements capacity) (size : state.size = states)
    (answered : model.values calls state = .ok values) :
    ∃ evaluation, (p.answer states calls state).value = .ok evaluation ∧
      evaluation.residuals = values.residuals.fit measurements ∧
      ∀ i, i < states → evaluation.jacobian.partialDerivatives i =
        Vec.ofFn measurements fun r => entrySum r i values.entries := by
  obtain ⟨hmeasurements, evaluation, hreport, hresiduals, hslope⟩ :=
    report_of_fits hp fits size answered
  refine ⟨evaluation, Problem.report_eq_some_iff.mp hreport, hresiduals, fun i hi => ?_⟩
  rw [Problem.column_of_report hreport hi, hmeasurements]
  exact Vec.ofFn_congr fun r hr => hslope r i hr hi

/-- Sizes that are accepted for a writer make either problem ready to be asked. -/
theorem exists_evaluator (hp : p ∈ model.problems measurements capacity)
    (sizes : sizeFault? states measurements = none)
    (room : capacityFault? states measurements capacity = none) :
    ∃ e, (p.evaluator states).value = .ok e := by
  rcases mem_problems.mp hp with rfl | rfl
  · simp only [Problem.evaluator, Evaluator.newSparse, sizes, room, Option.or_none]
    exact ⟨_, rfl⟩
  · simp only [Problem.evaluator, Evaluator.newDense, sizes]
    exact ⟨_, rfl⟩

/-! ### Residuals that change at a constant rate -/

/-- A residual of a model changes at a constant rate while one variable is moved as far as a check moves
it. -/
def AffineAlong (model : Model ℝ) (index : ℕ) (state : Vec ℝ) (i : ℕ) (slope : ℝ) : Prop :=
  ∃ start : ℝ, ∀ (calls : ℕ) (t : ℝ) (values : ModelValues ℝ), 0 ≤ t → t ≤ checkDistance →
    model.values calls (state.modify index fun x => x + t) = .ok values →
      values.residuals.entry i = start + slope * t

/-- The change that is observed of a residual that changes at a constant rate is this rate. -/
theorem AffineAlong.change_eq {i : ℕ} {slope : ℝ} (h : model.AffineAlong index state i slope)
    (answered : model.values 0 state = .ok base)
    (answeredMoved : model.values 1 (state.moved index) = .ok shifted) :
    (shifted.residuals.entry i - base.residuals.entry i) / checkDistance = slope := by
  obtain ⟨start, hvalues⟩ := h
  have hbase := hvalues 0 0 base le_rfl checkDistance_pos.le (by rw [Vec.modify_add_zero, answered])
  have hshifted := hvalues 1 checkDistance shifted checkDistance_pos.le le_rfl answeredMoved
  rw [hbase, hshifted, mul_zero, add_zero, add_sub_cancel_left,
    mul_div_cancel_right₀ _ checkDistance_pos.ne']

/-! ### Both checks -/

/-- What a report says of a model that answers at a state and at the moved state. The rows compare the sums of
the entries that are reported with the change of the residuals. Where a residual changes at a constant rate,
its row shows the rate and how far the sum is off; where all do, the errors vanish exactly if the column is
right. -/
structure ComparedIn (model : Model ℝ) (index : ℕ) (state : Vec ℝ) (measurements : ℕ)
    (base shifted : ModelValues ℝ) (report : GradientReport ℝ) : Prop where
  compares : report.Compares index measurements (fun i => entrySum i index base.entries)
    fun i => (shifted.residuals.entry i - base.residuals.entry i) / checkDistance
  affine : ∀ i slope, i < measurements → model.AffineAlong index state i slope →
    ∃ row, report.rows[i]? = some row ∧ row.observed = slope ∧
      row.error = entrySum i index base.entries - slope
  right : ∀ slopes : ℕ → ℝ,
    (∀ i, i < measurements → model.AffineAlong index state i (slopes i)) →
      ((∀ row, row ∈ report.rows → row.error = 0) ↔
        ∀ i, i < measurements → entrySum i index base.entries = slopes i)

/-- The report on a model that answers at a state and at the moved state. -/
noncomputable def comparison (index measurements : ℕ) (base shifted : ModelValues ℝ) :
    GradientReport ℝ :=
  ⟨gradientRows index (base.residuals.fit measurements) (shifted.residuals.fit measurements)
    (Vec.ofFn measurements fun i => entrySum i index base.entries)⟩

theorem comparedIn_comparison (answered : model.values 0 state = .ok base)
    (answeredMoved : model.values 1 (state.moved index) = .ok shifted) :
    model.ComparedIn index state measurements base shifted
      (comparison index measurements base shifted) := by
  have hcompares := GradientReport.Compares.of_gradientRows index measurements base.residuals
    shifted.residuals fun i => entrySum i index base.entries
  refine ⟨hcompares, fun i slope hi affine => ?_, fun slopes affine => ?_⟩
  · obtain ⟨row, hrow, -, -, -, hobserved, herror⟩ := hcompares.row i hi
    rw [affine.change_eq answered answeredMoved] at hobserved herror
    exact ⟨row, hrow, hobserved, herror⟩
  · refine hcompares.errors_vanish_iff.trans (forall₂_congr fun i hi => ?_)
    rw [(affine i hi).change_eq answered answeredMoved]

/-- Where a model fails when the variable is moved, a check of either problem hands the error on. -/
theorem checksTo_failedMoved (hp : p ∈ model.problems measurements capacity)
    (present : index < state.size) {error : ProblemError ℝ}
    (answered : model.values 0 state = .ok base)
    (failed : model.values 1 (state.moved index) = .error error)
    (fits : base.Fits state.size measurements capacity) :
    p.ChecksTo index state [state, state.moved index] (.error error) := by
  obtain ⟨e, hanswer, -⟩ := answer_of_fits hp fits rfl answered
  exact .failedMoved present hanswer (answer_of_error hp failed)

/-- Where a model answers at both states, with values that fit, a check of either problem comes to the
comparison. -/
theorem checksTo_comparison (hp : p ∈ model.problems measurements capacity)
    (present : index < state.size) (answered : model.values 0 state = .ok base)
    (answeredMoved : model.values 1 (state.moved index) = .ok shifted)
    (fits : base.Fits state.size measurements capacity)
    (fitsMoved : shifted.Fits state.size measurements capacity) :
    p.ChecksTo index state [state, state.moved index]
      (.ok (comparison index measurements base shifted)) := by
  obtain ⟨e, hanswer, hresiduals, hcolumn⟩ := answer_of_fits hp fits rfl answered
  obtain ⟨e', hanswer', hresiduals', -⟩ :=
    answer_of_fits hp fitsMoved (Vec.size_moved state index) answeredMoved
  have hgoes := Problem.ChecksTo.compared present hanswer hanswer'
  rw [hresiduals, hresiduals', hcolumn index present] at hgoes
  exact hgoes

/-- With values that fit, a check of either problem goes the same way. -/
theorem exists_checksTo
    (fits : ∀ values,
      model.values 0 state = .ok values ∨ model.values 1 (state.moved index) = .ok values →
        values.Fits state.size measurements capacity) :
    ∃ asked answer, ∀ p, p ∈ model.problems measurements capacity →
      p.ChecksTo index state asked answer := by
  rcases Nat.lt_or_ge index state.size with present | absent
  · cases answered : model.values 0 state with
    | error error => exact ⟨_, _, fun p hp => .failed present (answer_of_error hp answered)⟩
    | ok base =>
        have hfits := fits base (.inl answered)
        cases answeredMoved : model.values 1 (state.moved index) with
        | error error =>
            exact ⟨_, _, fun p hp => checksTo_failedMoved hp present answered answeredMoved hfits⟩
        | ok shifted =>
            exact ⟨_, _, fun p hp => checksTo_comparison hp present answered answeredMoved hfits
              (fits shifted (.inr answeredMoved))⟩
  · exact ⟨_, _, fun p _ => .refused absent⟩

/-- With sizes that are accepted and values that fit, both checks of a model come to the same. A variable that
does not exist is refused before the callback is asked. For any other one the callback is asked at the state
and, if the model answers, once more with this variable moved, and nowhere else; a failure is handed on, and
two answers are compared row by row. -/
theorem gradient_checks_agree (model : Model ℝ) (index : ℕ) (state : Vec ℝ) (measurements capacity : ℕ)
    (sizes : sizeFault? state.size measurements = none)
    (room : capacityFault? state.size measurements capacity = none)
    (fits : ∀ values,
      model.values 0 state = .ok values ∨ model.values 1 (state.moved index) = .ok values →
        values.Fits state.size measurements capacity) :
    (checkGradientSparse index model.sparseCallback state measurements capacity).value =
      (checkGradientDense index model.denseCallback state measurements).value ∧
    ∀ p, p ∈ model.problems measurements capacity →
      (state.size ≤ index →
        p.Checks index state [] (.error (.invalidInput (.noSuchVariable index state.size)))) ∧
      (index < state.size →
        ((state.moved index).size = state.size ∧ ∀ i, (state.moved index).entry i =
          if index = i then state.entry i + checkDistance else state.entry i) ∧
        (∀ error, model.values 0 state = .error error →
          p.Checks index state [state] (.error error)) ∧
        ∀ base, model.values 0 state = .ok base →
          (∀ error, model.values 1 (state.moved index) = .error error →
            p.Checks index state [state, state.moved index] (.error error)) ∧
          ∀ shifted, model.values 1 (state.moved index) = .ok shifted →
            ∃ report, p.Checks index state [state, state.moved index] (.ok report) ∧
              model.ComparedIn index state measurements base shifted report) := by
  have hchecks {p : Problem ℝ} (hp : p ∈ model.problems measurements capacity)
      {asked : List (Vec ℝ)} {answer : Except (ProblemError ℝ) (GradientReport ℝ)}
      (goes : p.ChecksTo index state asked answer) : p.Checks index state asked answer := by
    obtain ⟨e, built⟩ := exists_evaluator hp sizes room
    exact goes.checks built
  constructor
  · obtain ⟨asked, answer, hgoes⟩ := exists_checksTo fits
    have hsparse := sparse_mem_problems model measurements capacity
    have hdense := dense_mem_problems model measurements capacity
    exact (hchecks hsparse (hgoes _ hsparse)).comes.trans (hchecks hdense (hgoes _ hdense)).comes.symm
  · intro p hp
    refine ⟨fun absent => hchecks hp (.refused absent), fun present =>
      ⟨⟨Vec.size_moved state index, Vec.entry_moved present⟩,
        fun error failed => hchecks hp (.failed present (answer_of_error hp failed)),
        fun base answered => ?_⟩⟩
    have hfits := fits base (.inl answered)
    refine ⟨fun error failed => ?_, fun shifted answeredMoved => ?_⟩
    · exact hchecks hp (checksTo_failedMoved hp present answered failed hfits)
    · exact ⟨comparison index measurements base shifted,
        hchecks hp (checksTo_comparison hp present answered answeredMoved hfits
          (fits shifted (.inr answeredMoved))),
        comparedIn_comparison answered answeredMoved⟩

/-- The residual of `twoParts` changes at the rate of two, and the one that is missing not at all. -/
theorem affineAlong_twoParts (i : ℕ) :
    twoParts.AffineAlong 0 ⟨#[0]⟩ i (if i = 0 then 2 else 0) := by
  refine ⟨if i = 0 then -1 else 0, fun calls t values _ _ answered => ?_⟩
  cases answered
  have hentry : (Vec.modify ⟨#[0]⟩ 0 (fun x => x + t) : Vec ℝ).entry 0 = t := by
    rw [Vec.entry_modify _ Nat.one_pos, if_pos rfl]
    exact zero_add t
  rw [hentry]
  cases i with
  | zero =>
      rw [if_pos rfl, if_pos rfl]
      show t + t - 1 = _
      ring
  | succ i =>
      rw [if_neg i.succ_ne_zero, if_neg i.succ_ne_zero, zero_mul, add_zero]
      rfl

/-- Both checks of `twoParts` come to one report with two rows and no error. -/
theorem gradient_checks_agree_twoParts :
    ∃ report, (checkGradientSparse 0 twoParts.sparseCallback ⟨#[0]⟩ 2 2).value = .ok report ∧
      (checkGradientDense 0 twoParts.denseCallback ⟨#[0]⟩ 2).value = .ok report ∧
      report.rows.length = 2 ∧ ∀ row, row ∈ report.rows → row.error = 0 := by
  have hfits : ∀ values,
      twoParts.values 0 ⟨#[0]⟩ = .ok values ∨ twoParts.values 1 (Vec.moved ⟨#[0]⟩ 0) = .ok values →
        values.Fits 1 2 2 := by
    rintro values (answered | answered)
    · exact fits_twoParts _ _ _ rfl answered
    · exact fits_twoParts _ _ _ (Vec.size_moved _ _) answered
  obtain ⟨hsame, hchecks⟩ := gradient_checks_agree twoParts 0 ⟨#[0]⟩ 2 2 rfl rfl hfits
  obtain ⟨-, hpresent⟩ := hchecks _ (dense_mem_problems _ _ _)
  obtain ⟨-, -, hanswered⟩ := hpresent Nat.one_pos
  obtain ⟨-, hcompared⟩ := hanswered _ rfl
  obtain ⟨report, hdense, hreport⟩ := hcompared _ rfl
  refine ⟨report, hsame.trans hdense.comes, hdense.comes, hreport.compares.length_eq, ?_⟩
  refine (hreport.right _ fun i _ => affineAlong_twoParts i).mpr fun i _ => ?_
  -- both parts of the derivative stand at the first measurement
  cases i with
  | zero => norm_num [entrySum]
  | succ i => simp [entrySum]

end Model

end TrustRegion
