/-
Module: TrustRegion.Proofs.Search.Convergence
Purpose: Searches on problems whose residuals are affine in the state, without rounding. Every step from
  a point with a gradient is accepted, and if the columns of the Jacobian are independent the search
  comes to a small gradient in a bounded number of attempts. Its result is delivered unless a summary is
  wanted and has no mean time of an attempt, and there are searches where that happens.
Main exports: Problem.affine_converges_unless_meanTimeUndefined, Problem.affine_converges_shiftBy
-/
import TrustRegion.Proofs.Search.Straight

namespace TrustRegion

namespace Problem

/-- On a problem whose residuals are affine in the state:

An attempt can be made from every point with a gradient that a run comes to, if the damping may grow
once and the threshold for a rejection is at most one. It is accepted with perfect quality, and the
region does not shrink.

If the columns of the Jacobian are independent, perfect steps are very good, and only a small gradient
ends the search, then there is a number of attempts, for the Jacobian, the constants, the first state,
the first radius and the factor of growth, with which every search comes to a small gradient without
damping. It is delivered unless a summary is wanted and the number of attempts is a positive multiple
of `2 ^ 32`, which leaves no mean time to report. -/
theorem affine_converges_unless_meanTimeUndefined (A : ℕ → ℕ → ℝ) (b : ℕ → ℝ) (state : Vec ℝ) :
    (∀ (p : Problem ℝ) (settings : Settings ℝ) (clock : Clock) (points : List (Linearization ℝ))
      (s : Search ℝ (CholeskySolver ℝ)),
      p.Affine state.size A b → p.Run settings clock state points none s →
      settings.rejectBelow ≤ 1 → 1 ≤ settings.damping.maxAttempts →
      (∃ i, i < state.size ∧ s.session.point.gradient.entry i ≠ 0) →
        ∃ r reason s', s.Attempts clock r reason s' ∧ r.accepted settings = true ∧ r.quality = 1 ∧
          s.session.radius ≤ s'.session.radius) ∧
    ∀ (m : ℕ) (radius growFactor : ℝ), 0 < radius → 1 < growFactor →
      (LinearIndependent ℝ fun (i : Fin state.size) (r : Fin m) => A r i) →
        ∃ most, ∀ (p : Problem ℝ) (settings : Settings ℝ) (clock : Clock) (debugHeard : Bool)
          (e : Evaluator ℝ), p.measurements = m → p.Affine state.size A b →
          (p.evaluator state.size).value = .ok e → settings.fault? = none →
          settings.radius = radius → settings.growFactor = growFactor → settings.GradientOnly →
          most ≤ settings.maxIterations →
            ∃ points s, p.Run settings clock state points (some .gradientTolerance) s ∧
              s.session.lambda = 0 ∧ s.iterations ≤ most ∧
              (p.solve settings clock debugHeard state).value.answer =
                deliver (settings.verbose || debugHeard) (s.outcome clock .gradientTolerance)
                  s.session := by
  constructor
  · intro p settings clock points s affine h tolerant room gradient
    refine h.exists_affine_attempt affine tolerant room fun hzero => ?_
    obtain ⟨i, hi, hne⟩ := gradient
    exact hne (Vec.toEuclidean_eq_zero_iff.mp hzero i hi)
  · intro m radius growFactor hradius hgrow independent
    obtain ⟨k, hk, hbounded⟩ := exists_bound_of_linearIndependent independent
    obtain ⟨most, hmost⟩ := pow_unbounded_of_one_lt
      (k * ‖affineResiduals m state.size A b state‖ / radius) hgrow
    refine ⟨most + 1, ?_⟩
    rintro p settings clock debugHeard e rfl affine built valid rfl rfl only enough
    have hsteep : p.Steep state.size A b k := ⟨affine, hk, hbounded⟩
    rw [div_lt_iff₀' hradius] at hmost
    have hserves := serves_evaluator built
    obtain ⟨evaluation, hreported, -⟩ := affine 0 state rfl
    obtain ⟨e', hasked⟩ := hserves.evaluate_of_report rfl hreported
    obtain ⟨point, hfirst⟩ := exists_firstPoint hreported
    have hopening : p.Run settings clock state [point] _ _ := .opening valid built hasked hfirst
    obtain ⟨points, s, hrun, hfew, hloop⟩ :=
      hopening.steep_loop hsteep only hmost enough (Nat.zero_le _) (settings.verbose || debugHeard)
        (Nat.zero_add settings.maxIterations)
    have hvalue := value_solve_of_loop valid built hasked hfirst hloop
    exact ⟨points, s, hrun, (hrun.steep hsteep only).1, hfew,
      by rw [hvalue, Search.value_finish]⟩

/-! ### One shifted state -/

/-- The residual `x - d` with its derivative. -/
noncomputable def shiftBy (d : ℝ) : Problem ℝ :=
  .dense (fun _ state _ _ => (.ok ⟨#[state.entry 0 - d]⟩, ⟨#[1]⟩)) 1

theorem affine_shiftBy (d : ℝ) : (shiftBy d).Affine 1 (fun _ _ => 1) (fun _ => d) := by
  intro calls state _
  refine ⟨⟨Vec.fit 1 ⟨#[state.entry 0 - d]⟩, unitEvaluation.jacobian⟩, rfl, ?_, ?_⟩
  · intro r hr
    obtain rfl : r = 0 := Nat.lt_one_iff.mp hr
    rw [Finset.sum_range_one, one_mul]
    rfl
  · intro r i hr hi
    obtain rfl : r = 0 := Nat.lt_one_iff.mp hr
    obtain rfl : i = 0 := Nat.lt_one_iff.mp hi
    exact slope_unitEvaluation

theorem independent_shiftBy : LinearIndependent ℝ fun (_ : Fin 1) (_ : Fin 1) => (1 : ℝ) :=
  linearIndependent_unique_iff.mpr fun hzero => one_ne_zero (congrFun hzero 0)

theorem linearOf_shiftBy (u : EuclideanSpace ℝ (Fin 1)) : linearOf 1 1 (fun _ _ => 1) u = u := by
  refine PiLp.ext fun r => ?_
  rw [linearOf_apply, Fin.sum_univ_one, one_mul, Subsingleton.elim r 0]

theorem straight_shiftBy (d : ℝ) : (shiftBy d).Straight 1 (fun _ _ => 1) (fun _ => d) where
  affine := affine_shiftBy d
  isometric u := congrArg norm (linearOf_shiftBy u)
  onto x := ⟨x, linearOf_shiftBy x⟩

/-- The first residual from zero is as long as the shift. -/
theorem norm_first_shiftBy {d : ℝ} (nonneg : 0 ≤ d) :
    ‖affineResiduals 1 1 (fun _ _ => 1) (fun _ => d) ⟨#[0]⟩‖ = d := by
  rw [affineResiduals, linearOf_shiftBy, EuclideanSpace.norm_eq, Fin.sum_univ_one]
  show Real.sqrt (‖(0 : ℝ) - d‖ ^ 2) = d
  rw [zero_sub, norm_neg, Real.norm_of_nonneg nonneg, Real.sqrt_sq nonneg]

/-- The first gradient from zero is opposite to the shift. -/
theorem gradient_first_shiftBy {d : ℝ} {q : Linearization ℝ}
    (first : (firstPoint (shiftBy d).backend ⟨#[0]⟩
      ⟨Vec.fit 1 ⟨#[0 - d]⟩, unitEvaluation.jacobian⟩).value = .ok q) : q.gradient.entry 0 = -d := by
  obtain ⟨gradient, hgradient, rfl⟩ := Linearization.of_make (of_firstPoint first).1
  obtain ⟨-, -, rfl⟩ := CholeskySolver.gradient_eq hgradient
  show (StoredMatrix.transposeMulVec unitEvaluation.jacobian.stored
    (Vec.fit 1 ⟨#[0 - d]⟩)).entry 0 = -d
  rw [Jacobian.entry_transposeMulVec _ _ Nat.one_pos]
  show ∑ r ∈ Finset.range 1, unitEvaluation.jacobian.slope r 0 *
    (Vec.fit 1 ⟨#[0 - d]⟩).entry r = -d
  rw [Finset.sum_range_one, slope_unitEvaluation, one_mul]
  exact zero_sub d

/-- The settings of a search from a radius of one that only a small gradient ends. -/
noncomputable def gradientSettings (growFactor : ℝ) (attempts : ℕ) (verbose : Bool) : Settings ℝ :=
  { Settings.standard with
    maxIterations := attempts, radius := 1, growFactor, updateTolerance := 0, radiusTolerance := 0,
    verbose }

theorem fault?_gradientSettings {growFactor : ℝ} (grows : 1 < growFactor) (attempts : ℕ)
    (verbose : Bool) : (gradientSettings growFactor attempts verbose).fault? = none := by
  norm_num [gradientSettings, Settings.fault?, Settings.standard, DampingSchedule.standard,
    Scalar.isFinite, Scalar.isNaN, grows]

theorem gradientOnly_gradientSettings (growFactor : ℝ) (attempts : ℕ) (verbose : Bool) :
    (gradientSettings growFactor attempts verbose).GradientOnly where
  tolerant := by norm_num [gradientSettings, Settings.standard]
  eager := by norm_num [gradientSettings, Settings.standard]
  gradient := by norm_num [gradientSettings, Settings.standard]
  update := le_rfl
  radius := le_rfl
  room := by simp [gradientSettings, Settings.standard, DampingSchedule.standard]

/-- A search whose radii start with one and hardly grow needs exactly `2 ^ 32` attempts for a shift a
little below the sum of as many radii. -/
theorem Run.iterations_shiftBy {settings : Settings ℝ} {clock : Clock}
    {points : List (Linearization ℝ)} {s : Search ℝ (CholeskySolver ℝ)} {reason : Option StopReason}
    (h : (shiftBy (2 ^ 32 + 2 ^ 11 - 1 / 2)).Run settings clock ⟨#[0]⟩ points reason s)
    (only : settings.GradientOnly) (radius : settings.radius = 1)
    (growFactor : settings.growFactor = 1 + 1 / 2 ^ 52) (tolerance : settings.gradientTolerance ≤ 1 / 4)
    (ended : reason ≠ none) : s.iterations = 2 ^ 32 := by
  obtain ⟨last, hlast⟩ : ∃ last, last + 1 = 2 ^ 32 := ⟨2 ^ 32 - 1, rfl⟩
  have hcast : (last : ℝ) + 1 = 2 ^ 32 := by exact_mod_cast hlast
  have hlastCast : (last : ℝ) = 2 ^ 32 - 1 := eq_sub_of_add_eq hcast
  have hsmall : last * (1 / 2 ^ 52 : ℝ) ≤ 1 := by
    rw [hlastCast]
    norm_num
  have habove := sum_one_add_pow_le (by positivity) hsmall
  have hbelow := le_sum_one_add_pow (show (0 : ℝ) ≤ 1 / 2 ^ 52 by positivity) (last + 1)
  rw [hlastCast] at habove
  rw [Nat.cast_succ, hcast] at hbelow
  have hradii (k : ℕ) : settings.radiiSum k = ∑ i ∈ Finset.range k, (1 + 1 / 2 ^ 52 : ℝ) ^ i := by
    simp only [Settings.radiiSum, radius, growFactor, one_mul]
  have hfirst := norm_first_shiftBy (show (0 : ℝ) ≤ 2 ^ 32 + 2 ^ 11 - 1 / 2 by norm_num)
  rw [← hlast]
  refine h.straight_iterations_eq (straight_shiftBy _) only (hfirst.symm ▸ ?_) (hfirst.symm ▸ ?_)
    ended
  · rw [hradii]
    refine (add_le_add habove (mul_le_mul_of_nonneg_left tolerance (Nat.cast_nonneg _))).trans_lt ?_
    show _ + ((1 : ℕ) : ℝ) * (1 / 4) < _
    norm_num
  · rw [hradii]
    refine lt_of_lt_of_le ?_ hbelow
    norm_num

/-- From zero and with a radius of one, the first step towards one is accepted. The search for a shift
that takes `2 ^ 32` attempts comes to a small gradient without damping, which is its result without a
report; with one it is left without a result. -/
theorem affine_converges_shiftBy :
    (∃ points s r reason s', (shiftBy 1).Run unitRadius Clock.stopped ⟨#[0]⟩ points none s ∧
      s.Attempts Clock.stopped r reason s' ∧ r.accepted unitRadius = true ∧ r.quality = 1) ∧
    ∃ most,
      (∃ outcome session,
        ((shiftBy (2 ^ 32 + 2 ^ 11 - 1 / 2)).solve
          (gradientSettings (1 + 1 / 2 ^ 52) most false) Clock.stopped false
          ⟨#[0]⟩).value.answer = .ok (outcome, session) ∧
        outcome.reason = .gradientTolerance ∧ outcome.lambda = 0 ∧ outcome.iterations = 2 ^ 32) ∧
      ((shiftBy (2 ^ 32 + 2 ^ 11 - 1 / 2)).solve
        (gradientSettings (1 + 1 / 2 ^ 52) most true) Clock.stopped false
        ⟨#[0]⟩).value.answer = .error (.meanTimeUndefined (2 ^ 32)) := by
  constructor
  · have htolerant : unitRadius.rejectBelow ≤ 1 := by
      norm_num [unitRadius, Settings.standard]
    have hroom : 1 ≤ unitRadius.damping.maxAttempts := by
      simp [unitRadius, Settings.standard, DampingSchedule.standard]
    obtain ⟨q, hq⟩ : ∃ q, (firstPoint (shiftBy 1).backend ⟨#[0]⟩
        ⟨Vec.fit 1 ⟨#[(0 : ℝ) - 1]⟩, unitEvaluation.jacobian⟩).value = .ok q :=
      ⟨_, rfl⟩
    have hrun : (shiftBy 1).Run unitRadius Clock.stopped ⟨#[0]⟩ [q] _ _ :=
      .opening fault?_unitRadius rfl rfl hq
    rw [converged?_unitRadius] at hrun
    have hgradient : ∃ i, i < 1 ∧ q.gradient.entry i ≠ 0 := by
      refine ⟨0, Nat.one_pos, ?_⟩
      rw [gradient_first_shiftBy hq]
      exact neg_ne_zero.mpr one_ne_zero
    obtain ⟨r, reason, s', hattempt, haccepted, hquality, -⟩ :=
      (affine_converges_unless_meanTimeUndefined _ _ _).1 _ _ _ _ _ (affine_shiftBy 1) hrun
        htolerant hroom hgradient
    exact ⟨_, _, r, reason, s', hrun, hattempt, haccepted, hquality⟩
  · have hgrows : (1 : ℝ) < 1 + 1 / 2 ^ 52 := by norm_num
    obtain ⟨most, hmost⟩ := (affine_converges_unless_meanTimeUndefined (fun _ _ => 1)
      (fun _ => 2 ^ 32 + 2 ^ 11 - 1 / 2) ⟨#[0]⟩).2 1 1 (1 + 1 / 2 ^ 52) one_pos hgrows
      independent_shiftBy
    have hsolved (verbose : Bool) : ∃ outcome session, outcome.reason = .gradientTolerance ∧
        outcome.lambda = 0 ∧ outcome.iterations = 2 ^ 32 ∧
        ((shiftBy (2 ^ 32 + 2 ^ 11 - 1 / 2)).solve
          (gradientSettings (1 + 1 / 2 ^ 52) most verbose) Clock.stopped false
          ⟨#[0]⟩).value.answer = deliver (verbose || false) outcome session := by
      have honly := gradientOnly_gradientSettings (1 + 1 / 2 ^ 52) most verbose
      have htolerance :
          (gradientSettings (1 + 1 / 2 ^ 52) most verbose).gradientTolerance ≤ 1 / 4 := by
        norm_num [gradientSettings, Settings.standard]
      obtain ⟨points, s, hrun, hlambda, -, hanswer⟩ :=
        hmost (shiftBy (2 ^ 32 + 2 ^ 11 - 1 / 2)) (gradientSettings (1 + 1 / 2 ^ 52) most verbose)
          Clock.stopped false _ rfl (affine_shiftBy _) rfl
          (fault?_gradientSettings hgrows most verbose) rfl rfl honly le_rfl
      exact ⟨_, _, rfl, hlambda, hrun.iterations_shiftBy honly rfl rfl htolerance
        (Option.some_ne_none _), hanswer⟩
    refine ⟨most, ?_, ?_⟩
    · obtain ⟨outcome, session, hreason, hlambda, hiterations, hanswer⟩ := hsolved false
      exact ⟨outcome, session, hanswer, hreason, hlambda, hiterations⟩
    · obtain ⟨outcome, session, -, -, hiterations, hanswer⟩ := hsolved true
      rw [hanswer, deliver, hiterations]
      exact if_pos ⟨rfl, by decide, dvd_rfl⟩

end Problem

end TrustRegion
