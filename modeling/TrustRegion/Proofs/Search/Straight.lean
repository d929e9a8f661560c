/-
Module: TrustRegion.Proofs.Search.Straight
Purpose: Searches, without rounding, where the Jacobian is the same everywhere, keeps lengths and
  reaches all residuals. The two legs of a path are the same there, so each attempt shortens the
  residuals by the radius, or to nothing, and the region grows after each: how many attempts the search
  makes is the number of radii whose sum first exceeds the length of the first residuals.
Main exports: LinearModel.Straight, Workspace.Sound.straight_step, Problem.Straight,
  Problem.Run.straight, Problem.Run.straight_iterations_eq, sum_one_add_pow_le, le_sum_one_add_pow
-/
import TrustRegion.Proofs.Search.Steep

namespace TrustRegion

open scoped RealInnerProductSpace

/-! ### Straight paths -/

/-- A linear model that keeps lengths, and vanishes at the point opposite to `x`. -/
structure LinearModel.Straight {E F : Type*} [NormedAddCommGroup E] [InnerProductSpace ℝ E]
    [NormedAddCommGroup F] [InnerProductSpace ℝ F] (M : LinearModel E F) (x : E) : Prop where
  isometric : ∀ u, ‖M.map u‖ = ‖u‖
  reached : M.map x = M.residuals

namespace LinearModel.Straight

variable {E F : Type*} [NormedAddCommGroup E] [InnerProductSpace ℝ E] [NormedAddCommGroup F]
  [InnerProductSpace ℝ F] {M : LinearModel E F} {x : E}

theorem inner_map (h : M.Straight x) (u v : E) : ⟪M.map u, M.map v⟫ = ⟪u, v⟫ :=
  (⟨M.map, h.isometric⟩ : E →ₗᵢ[ℝ] F).inner_map_map u v

theorem gradient (h : M.Straight x) : M.gradient = x := by
  refine ext_inner_right ℝ fun u => ?_
  rw [M.adjoint, ← h.reached, h.inner_map]

theorem norm_residuals (h : M.Straight x) : ‖M.residuals‖ = ‖x‖ := by
  rw [← h.reached, h.isometric]

/-- What an update leaves of the residuals. -/
theorem norm_left (h : M.Straight x) (u : E) : ‖M.residuals + M.map u‖ = ‖x + u‖ := by
  rw [← h.reached, ← map_add, h.isometric]

/-- The first leg leads to where the model vanishes. -/
theorem cauchy (h : M.Straight x) : M.cauchy = -x := by
  rw [LinearModel.cauchy, h.isometric, h.gradient]
  rcases eq_or_ne x 0 with rfl | hx
  · rw [smul_zero, neg_zero]
  · rw [div_self (pow_ne_zero 2 (norm_ne_zero_iff.mpr hx)), neg_one_smul]

/-- So does the whole path, if nothing is damped. -/
theorem newton (h : M.Straight x) {s : E} (newton : M.Newton 0 s) : s = -x := by
  refine ext_inner_right ℝ fun u => ?_
  have hsolves := newton u
  rw [zero_mul, add_zero, h.inner_map, h.gradient] at hsolves
  rw [hsolves, inner_neg_left]

end LinearModel.Straight

/-- Of two equal legs a blend takes the whole, or the part up to the radius. -/
theorem blend_self (leg : Leg ℝ) (radius : ℝ) :
    (leg.normSq ≤ radius * radius ∧ (blend leg leg radius).update = leg.vector) ∨
      (radius * radius ≤ leg.normSq ∧ blend leg leg radius = Step.clipped leg radius) := by
  unfold blend
  dsimp only
  split
  · exact .inl ⟨‹_›, rfl⟩
  · rename_i houtside
    rw [if_pos (le_of_not_ge houtside)]
    exact .inr ⟨le_of_not_ge houtside, rfl⟩

/-- A part of the way to the opposite shortens a vector by the length of that part. -/
theorem norm_add_smul_neg {E : Type*} [NormedAddCommGroup E] [NormedSpace ℝ E] {x : E} {radius : ℝ}
    (positive : 0 < radius) (reaches : radius ≤ ‖x‖) :
    ‖x + (radius / ‖-x‖) • -x‖ = ‖x‖ - radius := by
  have hx : 0 < ‖x‖ := positive.trans_le reaches
  have hpart : 0 ≤ 1 - radius / ‖x‖ := sub_nonneg.mpr ((div_le_one hx).mpr reaches)
  calc ‖x + (radius / ‖-x‖) • -x‖ = ‖(1 - radius / ‖x‖) • x‖ := by
        rw [norm_neg, smul_neg, sub_smul, one_smul, sub_eq_add_neg]
    _ = (1 - radius / ‖x‖) * ‖x‖ := by rw [norm_smul, Real.norm_of_nonneg hpart]
    _ = ‖x‖ - radius := by rw [sub_mul, one_mul, div_mul_cancel₀ _ hx.ne']

/-- An undamped step on a straight path shortens the residuals by the radius, or to nothing. -/
theorem Workspace.Sound.straight_step {m n : ℕ} {schedule : DampingSchedule ℝ} {radius : ℝ}
    {w w' : Workspace ℝ (CholeskySolver ℝ)} {step : Step ℝ} (h : w.Sound m n)
    (usable : schedule.Usable) (hstep : w.StepsTo schedule radius step w')
    (undamped : w.damping.lambda = 0) (definite : w.point.jacobian.Definite 0)
    (positive : 0 < radius) {x : EuclideanSpace ℝ (Fin n)} (straight : h.fits.model.Straight x) :
    ‖h.fits.model.residuals + h.fits.model.map (step.update.toEuclidean n)‖ =
      max (‖h.fits.model.residuals‖ - radius) 0 := by
  obtain ⟨v, hend, -, -, -, -, hcases⟩ := h.steps usable hstep
  have hlength : (Leg.ofVec v).normSq = ‖x‖ ^ 2 := by
    rw [normSq_ofVec hend.size, hend.point, straight.cauchy, norm_neg]
  have hpath : ((Leg.ofVec v).normSq ≤ radius * radius ∧ step.update = v) ∨
      (radius * radius ≤ (Leg.ofVec v).normSq ∧ step = Step.clipped (Leg.ofVec v) radius) := by
    rcases hcases with ⟨-, hreaches, rfl, -⟩ | ⟨g, hnewton, rfl, -, -, hdefinite⟩
    · exact .inr ⟨hreaches, rfl⟩
    · have hlambda := hdefinite (undamped.symm ▸ definite)
      rw [hlambda, undamped] at hnewton
      obtain rfl : g = v := by
        refine Vec.eq_of_toEuclidean_eq (hnewton.size.trans h.fits.cols) hend.size ?_
        rw [hend.point, straight.cauchy]
        exact straight.newton (hnewton.newton_model h.fits)
      exact blend_self (Leg.ofVec g) radius
  rw [straight.norm_left, straight.norm_residuals]
  rcases hpath with ⟨hinside, hupdate⟩ | ⟨hreaches, rfl⟩
  · rw [hlength, ← sq] at hinside
    have hle : ‖x‖ ≤ radius := le_of_sq_le_sq hinside positive.le
    rw [hupdate, hend.point, straight.cauchy, add_neg_cancel, norm_zero,
      max_eq_right (sub_nonpos.mpr hle)]
  · rw [hlength, ← sq] at hreaches
    have hle : radius ≤ ‖x‖ := le_of_sq_le_sq hreaches (norm_nonneg _)
    rw [(toEuclidean_clipped hend radius).2, straight.cauchy, norm_add_smul_neg positive hle,
      max_eq_left (sub_nonneg.mpr hle)]

/-! ### The number of attempts -/

/-- An affine problem whose Jacobian keeps lengths and reaches all residuals. -/
structure Problem.Straight (p : Problem ℝ) (n : ℕ) (A : ℕ → ℕ → ℝ) (b : ℕ → ℝ) : Prop where
  affine : p.Affine n A b
  isometric : ∀ u, ‖linearOf p.measurements n A u‖ = ‖u‖
  onto : Function.Surjective (linearOf p.measurements n A)

/-- What is shorter than a bound in every entry is no longer than as many bounds. -/
theorem Vec.norm_toEuclidean_le {n : ℕ} {v : Vec ℝ} {bound : ℝ} (nonneg : 0 ≤ bound)
    (below : ∀ i, i < n → |v.entry i| ≤ bound) : ‖v.toEuclidean n‖ ≤ n * bound := by
  have hentry (i : Fin n) : ‖v.toEuclidean n i‖ ^ 2 ≤ bound ^ 2 := by
    rw [Vec.toEuclidean_apply, Real.norm_eq_abs]
    exact pow_le_pow_left₀ (abs_nonneg _) (below i i.isLt) 2
  have hsum : ‖v.toEuclidean n‖ ^ 2 ≤ n * bound ^ 2 := by
    rw [EuclideanSpace.norm_sq_eq]
    calc ∑ i, ‖v.toEuclidean n i‖ ^ 2 ≤ ∑ _i : Fin n, bound ^ 2 :=
          Finset.sum_le_sum fun i _ => hentry i
      _ = n * bound ^ 2 := by rw [Finset.sum_const, Finset.card_fin, nsmul_eq_mul]
  have hsquare : (n : ℝ) ≤ (n : ℝ) ^ 2 := by exact_mod_cast Nat.le_self_pow two_ne_zero n
  refine le_of_sq_le_sq (hsum.trans ?_) (by positivity)
  rw [mul_pow]
  exact mul_le_mul_of_nonneg_right hsquare (sq_nonneg bound)

/-- The sum of the first `k` radii of a search whose region grows after each attempt. -/
noncomputable def Settings.radiiSum (settings : Settings ℝ) (k : ℕ) : ℝ :=
  ∑ i ∈ Finset.range k, settings.radius * settings.growFactor ^ i

theorem Settings.radiiSum_succ (settings : Settings ℝ) (k : ℕ) :
    settings.radiiSum (k + 1) = settings.radiiSum k + settings.radius * settings.growFactor ^ k :=
  Finset.sum_range_succ _ _

namespace Problem

variable {p : Problem ℝ} {A : ℕ → ℕ → ℝ} {b : ℕ → ℝ} {settings : Settings ℝ} {clock : Clock}
  {state : Vec ℝ} {points : List (Linearization ℝ)} {s : Search ℝ (CholeskySolver ℝ)}
  {reason : Option StopReason}

theorem Straight.steep (h : p.Straight state.size A b) : p.Steep state.size A b 1 where
  affine := h.affine
  nonneg := zero_le_one
  bounded u := by rw [one_mul, h.isometric]

theorem Straight.model_run (h : p.Straight state.size A b)
    (run : p.Run settings clock state points reason s) :
    ∃ x, run.fits.1.model.Straight x := by
  obtain ⟨hmap, -⟩ := h.affine.model_run run
  obtain ⟨x, hx⟩ := h.onto run.fits.1.model.residuals
  exact ⟨x, fun u => by rw [hmap, h.isometric], by rw [hmap, hx]⟩

section Count

variable {last : ℕ}

/-- Throughout a run the residuals are as long as the first ones are beyond the sum of the radii. -/
theorem Run.straight (h : p.Run settings clock state points reason s)
    (straight : p.Straight state.size A b) (only : settings.GradientOnly) :
    ‖s.session.point.residuals.toEuclidean p.measurements‖ =
      max (‖affineResiduals p.measurements state.size A b state‖ -
        settings.radiiSum s.iterations) 0 := by
  induction h with
  | @opening e e' evaluation point valid built asked opened =>
      obtain ⟨hreported, -⟩ := (serves_evaluator built).evaluate asked
      have hresiduals := straight.affine.residuals_first hreported opened
      have hempty : settings.radiiSum 0 = 0 := Finset.sum_range_zero _
      show ‖point.residuals.toEuclidean p.measurements‖ =
        max (‖affineResiduals p.measurements state.size A b state‖ - settings.radiiSum 0) 0
      rw [hempty, sub_zero, hresiduals, max_eq_left (norm_nonneg _)]
  | @round points s s' r reason before room attempted ih =>
      obtain ⟨hlambda, -, -, hgrown⟩ := before.steep straight.steep only
      obtain ⟨hradius, -⟩ := hgrown rfl
      obtain ⟨hstep, -, -, -, -, hresiduals⟩ :=
        before.affine_round straight.affine only.tolerant
          (before.steep_gradient straight.steep only) attempted
      obtain ⟨x, hx⟩ := straight.model_run before
      have hshorter : ‖before.fits.1.model.residuals + before.fits.1.model.map
          (r.step.update.toEuclidean state.size)‖ =
            max (‖before.fits.1.model.residuals‖ - s.session.radius) 0 :=
        before.sound.straight_step before.usable.damping hstep hlambda
          (straight.steep.definite_run before) before.radius_pos hx
      rw [hresiduals, hshorter, attempted.after.iterations, settings.radiiSum_succ, ← hradius]
      show max (‖s.session.point.residuals.toEuclidean p.measurements‖ - s.session.radius) 0 = _
      rw [ih, ← max_sub_sub_right, zero_sub, max_assoc,
        max_eq_right (neg_nonpos.mpr before.radius_pos.le), sub_sub]

/-- The radii of a search add up to more and more. -/
theorem Run.monotone_radii (h : p.Run settings clock state points reason s) :
    Monotone settings.radiiSum := by
  refine monotone_nat_of_le_succ fun k => ?_
  rw [settings.radiiSum_succ]
  exact le_add_of_nonneg_right
    (mul_nonneg h.usable.radius.le (pow_nonneg (zero_lt_one.trans h.usable.growFactor).le k))

/-- A run that goes on has radii whose sum does not exceed the first residuals. -/
theorem Run.straight_iterations_le (h : p.Run settings clock state points none s)
    (straight : p.Straight state.size A b) (only : settings.GradientOnly)
    (after : ‖affineResiduals p.measurements state.size A b state‖ < settings.radiiSum (last + 1)) :
    s.iterations ≤ last := by
  have hlength := h.straight straight only
  obtain ⟨x, hx⟩ := straight.model_run h
  by_contra hmany
  have hsum : ‖affineResiduals p.measurements state.size A b state‖ -
      settings.radiiSum s.iterations ≤ 0 :=
    sub_nonpos.mpr (after.le.trans (h.monotone_radii (not_le.mp hmany)))
  rw [max_eq_right hsum] at hlength
  apply h.steep_gradient straight.steep only
  rw [hx.gradient, ← norm_eq_zero, ← hx.norm_residuals]
  exact hlength

/-- A run that has ended has radii whose sum is not much below the first residuals. -/
theorem Run.lt_straight_iterations (h : p.Run settings clock state points reason s)
    (straight : p.Straight state.size A b) (only : settings.GradientOnly)
    (before : settings.radiiSum last + state.size * settings.gradientTolerance <
      ‖affineResiduals p.measurements state.size A b state‖) (ended : reason ≠ none) :
    last < s.iterations := by
  obtain ⟨-, hreason, -, -⟩ := h.steep straight.steep only
  have hsmall : s.session.point.gradientMaxAbs < settings.gradientTolerance := by
    by_contra hlarge
    exact ended (hreason.trans (if_neg hlarge))
  have hgradient : ‖h.fits.1.model.gradient‖ ≤ state.size * settings.gradientTolerance :=
    Vec.norm_toEuclidean_le only.gradient.le fun i hi =>
      ((Vec.maxAbs_lt_iff _ only.gradient).mp hsmall i (h.fits.1.size_gradient.symm ▸ hi)).le
  have hlength := h.straight straight only
  obtain ⟨x, hx⟩ := straight.model_run h
  have hshort : ‖s.session.point.residuals.toEuclidean p.measurements‖ ≤
      state.size * settings.gradientTolerance := by
    rw [hx.gradient, ← hx.norm_residuals] at hgradient
    exact hgradient
  by_contra hfew
  have hsum := h.monotone_radii (not_lt.mp hfew)
  have hleft := le_max_left (‖affineResiduals p.measurements state.size A b state‖ -
    settings.radiiSum s.iterations) 0
  rw [← hlength] at hleft
  linarith

/-- A run ends with the attempt whose radius takes the sum beyond the first residuals. -/
theorem Run.straight_iterations_eq (h : p.Run settings clock state points reason s)
    (straight : p.Straight state.size A b) (only : settings.GradientOnly)
    (before : settings.radiiSum last + state.size * settings.gradientTolerance <
      ‖affineResiduals p.measurements state.size A b state‖)
    (after : ‖affineResiduals p.measurements state.size A b state‖ < settings.radiiSum (last + 1))
    (ended : reason ≠ none) : s.iterations = last + 1 := by
  refine le_antisymm ?_ (h.lt_straight_iterations straight only before ended)
  cases h with
  | opening valid built asked first => exact Nat.zero_le _
  | round earlier room attempted =>
      rw [attempted.after.iterations]
      exact Nat.succ_le_succ (earlier.straight_iterations_le straight only after)

end Count

end Problem

/-! ### Radii that hardly grow -/

/-- A power of a number that is hardly more than one, to the second order. -/
theorem one_add_pow_le {x : ℝ} (nonneg : 0 ≤ x) {k : ℕ} (small : k * x ≤ 1) :
    (1 + x) ^ k ≤ 1 + k * x + (k * x) ^ 2 := by
  have hexp : 1 + x ≤ Real.exp x := by
    rw [add_comm]
    exact Real.add_one_le_exp x
  have hkx : |k * x| ≤ 1 := by rwa [abs_of_nonneg (by positivity)]
  calc (1 + x) ^ k ≤ Real.exp x ^ k := pow_le_pow_left₀ (by linarith) hexp k
    _ = Real.exp (k * x) := (Real.exp_nat_mul x k).symm
    _ ≤ 1 + k * x + (k * x) ^ 2 := by
        linarith [le_abs_self (Real.exp (k * x) - 1 - k * x), Real.abs_exp_sub_one_sub_id_le hkx]

/-- A sum of such powers, from above. -/
theorem sum_one_add_pow_le {x : ℝ} (nonneg : 0 ≤ x) {k : ℕ} (small : k * x ≤ 1) :
    ∑ i ∈ Finset.range k, (1 + x) ^ i ≤ k + k * (k - 1) / 2 * x + k ^ 3 / 3 * x ^ 2 := by
  induction k with
  | zero => simp
  | succ k ih =>
      push_cast at small ⊢
      have hsmall : k * x ≤ 1 := by linarith
      have hsum := ih hsmall
      have hpow := one_add_pow_le nonneg hsmall
      have hcubic : 0 ≤ (k + 1 / 3) * x ^ 2 := by positivity
      rw [Finset.sum_range_succ]
      linarith

/-- The same from below. -/
theorem le_sum_one_add_pow {x : ℝ} (nonneg : 0 ≤ x) (k : ℕ) :
    k + k * (k - 1) / 2 * x ≤ ∑ i ∈ Finset.range k, (1 + x) ^ i := by
  induction k with
  | zero => simp
  | succ k ih =>
      rw [Finset.sum_range_succ]
      have hpow := one_add_mul_le_pow (show -2 ≤ x by linarith) k
      push_cast
      linarith

end TrustRegion
