/-
Module: TrustRegion.Proofs.Search.Rejection
Purpose: Why a search does not reject steps forever, without rounding. Near a point the residuals
  follow the linear model up to a multiple of the squared length of the step, while the model promises
  at least a multiple of the length. So in a small region every step is accepted, and as the region
  shrinks with every rejection, only finitely many follow each other.
Main exports: Problem.FollowsModel, LinearModel.abs_sub_promise_le, Settings.accepts_of_close,
  Search.StandsAt, Search.RejectedTo, Search.StandsAt.rejectedTo, Problem.rejections_are_bounded
-/
import TrustRegion.Proofs.Search.Region
import TrustRegion.Proofs.Search.Sound

namespace TrustRegion

/-! ### The error of the model -/

/-- The improvement that an update brings differs from what is promised by a multiple of its squared
length, if the residuals follow the linear model that well. -/
theorem LinearModel.abs_sub_promise_le {E F : Type*} [NormedAddCommGroup E] [InnerProductSpace ℝ E]
    [NormedAddCommGroup F] [InnerProductSpace ℝ F] (M : LinearModel E F) {u : E} {y : F} {bound : ℝ}
    (nonneg : 0 ≤ bound) (small : ‖u‖ ≤ 1)
    (close : ‖y - (M.residuals + M.map u)‖ ≤ bound * ‖u‖ ^ 2) :
    |‖M.residuals‖ ^ 2 - ‖y‖ ^ 2 - M.promise u| ≤
      bound * (2 * (‖M.residuals‖ + ‖M.map‖) + bound) * ‖u‖ ^ 2 := by
  set z := M.residuals + M.map u with hz
  set e := y - z with he
  have hdifference : ‖M.residuals‖ ^ 2 - ‖y‖ ^ 2 - M.promise u =
      -(2 * inner ℝ z e + ‖e‖ ^ 2) := by
    have hy : y = z + e := (add_sub_cancel z y).symm
    rw [LinearModel.promise, ← hz, hy, norm_add_sq_real]
    ring
  have hmodel : ‖z‖ ≤ ‖M.residuals‖ + ‖M.map‖ := by
    have himage : ‖M.map u‖ ≤ ‖M.map‖ * 1 :=
      (M.map.le_opNorm u).trans (mul_le_mul_of_nonneg_left small (norm_nonneg _))
    rw [mul_one] at himage
    exact (norm_add_le _ _).trans (add_le_add_right himage _)
  have hsquare : ‖u‖ ^ 2 ≤ 1 := pow_le_one₀ (norm_nonneg u) small
  have herror : ‖e‖ ≤ bound := close.trans (mul_le_of_le_one_right nonneg hsquare)
  have hinner : |inner ℝ z e| ≤ (‖M.residuals‖ + ‖M.map‖) * ‖e‖ :=
    (abs_real_inner_le_norm z e).trans (mul_le_mul_of_nonneg_right hmodel (norm_nonneg e))
  have herrorSq : ‖e‖ ^ 2 ≤ bound * ‖e‖ := by
    rw [sq]
    exact mul_le_mul_of_nonneg_right herror (norm_nonneg e)
  have hbase : 0 ≤ 2 * (‖M.residuals‖ + ‖M.map‖) + bound := by positivity
  calc |‖M.residuals‖ ^ 2 - ‖y‖ ^ 2 - M.promise u|
      = |2 * inner ℝ z e + ‖e‖ ^ 2| := by rw [hdifference, abs_neg]
    _ ≤ 2 * |inner ℝ z e| + ‖e‖ ^ 2 := by
        refine (abs_add_le _ _).trans ?_
        rw [abs_mul, abs_two, abs_of_nonneg (sq_nonneg ‖e‖)]
    _ ≤ (2 * (‖M.residuals‖ + ‖M.map‖) + bound) * ‖e‖ := by linarith
    _ ≤ (2 * (‖M.residuals‖ + ‖M.map‖) + bound) * (bound * ‖u‖ ^ 2) :=
        mul_le_mul_of_nonneg_left close hbase
    _ = bound * (2 * (‖M.residuals‖ + ‖M.map‖) + bound) * ‖u‖ ^ 2 := by ring

/-- A step is accepted if what it brings is close to what is promised and the threshold is below a
perfect quality. -/
theorem Settings.accepts_of_close {settings : Settings ℝ} (below : settings.rejectBelow < 1)
    {actual predicted : ℝ} (promised : 0 < predicted)
    (close : |actual - predicted| ≤ min (1 / 2) (1 - settings.rejectBelow) * predicted) :
    settings.accepts (stepQuality actual predicted true) actual = true := by
  obtain ⟨hlow, -⟩ := abs_le.mp close
  have hhalf : min (1 / 2) (1 - settings.rejectBelow) * predicted ≤ 1 / 2 * predicted :=
    mul_le_mul_of_nonneg_right (min_le_left _ _) promised.le
  have hrest : min (1 / 2) (1 - settings.rejectBelow) * predicted ≤
      (1 - settings.rejectBelow) * predicted :=
    mul_le_mul_of_nonneg_right (min_le_right _ _) promised.le
  have hactual : 0 < actual := by linarith
  have hquality : settings.rejectBelow ≤ stepQuality actual predicted true := by
    unfold stepQuality
    simp only [if_true, hactual]
    split
    · exact below.le
    · rw [le_div_iff₀ promised]
      linarith
  unfold Settings.accepts
  rw [decide_eq_true hquality, decide_eq_true hactual]
  rfl

/-! ### Small regions -/

/-- Near a point the callback, whenever it is asked, answers with residuals that differ from those of
the linear model by at most `bound` times the squared length of the update. -/
def Problem.FollowsModel (p : Problem ℝ) (q : Linearization ℝ) (bound reach : ℝ) : Prop :=
  ∀ (calls : ℕ) (u : Vec ℝ), u.size = q.state.size → u.norm < reach →
    ∃ evaluation, p.report q.state.size calls (q.state.add u) = some evaluation ∧
      (evaluation.residuals.sub
        (q.residuals.add (StoredMatrix.mulVec q.jacobian.stored u))).norm ≤ bound * u.normSq

section SmallRegion

variable {p : Problem ℝ} {settings : Settings ℝ} {n : ℕ} {q : Linearization ℝ} {bound reach : ℝ}

/-- The same in Euclidean space. -/
theorem Problem.FollowsModel.close (h : p.FollowsModel q bound reach)
    (fits : q.Fits p.measurements n) (calls : ℕ) {u : Vec ℝ} (size : u.size = n)
    (short : ‖u.toEuclidean n‖ < reach) :
    ∃ evaluation, p.report n calls (q.state.add u) = some evaluation ∧
      ‖evaluation.residuals.toEuclidean p.measurements -
        (fits.model.residuals + fits.model.map (u.toEuclidean n))‖ ≤
          bound * ‖u.toEuclidean n‖ ^ 2 := by
  have hstate : u.size = q.state.size := size.trans fits.state.symm
  rw [← Vec.norm_eq_norm size] at short
  obtain ⟨evaluation, hreported, hclose⟩ := h calls u hstate short
  rw [fits.state] at hreported
  have hresiduals : evaluation.residuals.size = p.measurements :=
    (Problem.shape_of_report hreported).2.2.2
  refine ⟨evaluation, hreported, ?_⟩
  rw [Vec.norm_eq_norm ((Vec.size_sub _ _).trans hresiduals), Vec.toEuclidean_sub hresiduals,
    Vec.toEuclidean_add fits.residuals, Jacobian.toEuclidean_mulVec fits.rows fits.cols,
    Vec.normSq_eq_norm_sq size] at hclose
  exact hclose

/-- In a small region the first leg, cut off at the radius, leads to residuals that the search
accepts. -/
theorem exists_radius_accepts (below : settings.rejectBelow < 1) (fits : q.Fits p.measurements n)
    (gradient : fits.model.gradient ≠ 0) (hreach : 0 < reach)
    (follows : p.FollowsModel q bound reach) :
    ∃ small, 0 < small ∧ ∀ v radius, fits.CauchyEnd v → 0 < radius → radius ≤ small →
      radius ≤ ‖fits.model.cauchy‖ → ∀ calls, ∃ evaluation,
        p.report n calls (q.state.add (Step.clipped (Leg.ofVec v) radius).update) =
          some evaluation ∧
        settings.accepts
          (stepQuality
            (‖fits.model.residuals‖ ^ 2 -
              ‖evaluation.residuals.toEuclidean p.measurements‖ ^ 2)
            (fits.model.promise ((Step.clipped (Leg.ofVec v) radius).update.toEuclidean n)) true)
          (‖fits.model.residuals‖ ^ 2 -
            ‖evaluation.residuals.toEuclidean p.measurements‖ ^ 2) = true := by
  set M := fits.model with hM
  set tolerance := min (1 / 2) (1 - settings.rejectBelow) with htolerance
  set curvature := |bound| * (2 * (‖M.residuals‖ + ‖M.map‖) + |bound|) with hcurvature
  have hgradient : 0 < ‖M.gradient‖ := norm_pos_iff.mpr gradient
  have htolerance_pos : 0 < tolerance := lt_min (by norm_num) (sub_pos.mpr below)
  have hcurvature_nonneg : 0 ≤ curvature := by positivity
  have hratio : 0 < tolerance * ‖M.gradient‖ / (curvature + 1) := by positivity
  refine ⟨min (min 1 (reach / 2)) (tolerance * ‖M.gradient‖ / (curvature + 1)),
    lt_min (lt_min one_pos (half_pos hreach)) hratio, ?_⟩
  intro v radius hend hradius hsmall hinside calls
  have hone : radius ≤ 1 := hsmall.trans ((min_le_left _ _).trans (min_le_left _ _))
  have hhalf : radius ≤ reach / 2 := hsmall.trans ((min_le_left _ _).trans (min_le_right _ _))
  have hbend : curvature * radius ≤ tolerance * ‖M.gradient‖ := by
    have hle := (le_div_iff₀ (by linarith)).mp (hsmall.trans (min_le_right _ _))
    linarith
  obtain ⟨hsize, hpoint⟩ := toEuclidean_clipped hend radius
  set u := (Step.clipped (Leg.ofVec v) radius).update with hu
  have hcauchy : 0 < ‖M.cauchy‖ := norm_pos_iff.mpr (LinearModel.cauchy_ne_zero gradient)
  have hlength : ‖u.toEuclidean n‖ = radius := by
    rw [hpoint, norm_smul, Real.norm_of_nonneg (by positivity), ← hM, div_mul_cancel₀ _ hcauchy.ne']
  have hreaches : radius * radius ≤ (Leg.ofVec v).normSq := by
    rw [normSq_ofVec hend.size, hend.point, ← sq]
    exact pow_le_pow_left₀ hradius.le hinside 2
  have hpromise : radius * ‖M.gradient‖ ≤ M.promise (u.toEuclidean n) :=
    promise_clipped_ge hend gradient hradius hreaches
  obtain ⟨evaluation, hreported, hclose⟩ := follows.close fits calls hsize (by linarith)
  refine ⟨evaluation, hreported, ?_⟩
  have hbound : bound * ‖u.toEuclidean n‖ ^ 2 ≤ |bound| * ‖u.toEuclidean n‖ ^ 2 :=
    mul_le_mul_of_nonneg_right (le_abs_self _) (sq_nonneg _)
  have herror := M.abs_sub_promise_le (abs_nonneg bound) (hlength.le.trans hone)
    (hclose.trans hbound)
  rw [← hcurvature, hlength] at herror
  refine Settings.accepts_of_close below ((mul_pos hradius hgradient).trans_le hpromise) ?_
  calc |‖M.residuals‖ ^ 2 - ‖evaluation.residuals.toEuclidean p.measurements‖ ^ 2 -
        M.promise (u.toEuclidean n)|
      ≤ curvature * radius ^ 2 := herror
    _ = curvature * radius * radius := by ring
    _ ≤ tolerance * ‖M.gradient‖ * radius := mul_le_mul_of_nonneg_right hbend hradius.le
    _ = tolerance * (radius * ‖M.gradient‖) := by ring
    _ ≤ tolerance * M.promise (u.toEuclidean n) :=
        mul_le_mul_of_nonneg_left hpromise htolerance_pos.le

/-- The end of the path from a point with a gradient, if there is one, is not close. -/
theorem exists_radius_lt_newton (fits : q.Fits p.measurements n) (gradient : fits.model.gradient ≠ 0)
    (lambda : ℝ) :
    ∃ small, 0 < small ∧ ∀ v, q.Newton lambda v → small < ‖v.toEuclidean n‖ := by
  by_cases hsolvable : ∃ v, q.Newton lambda v
  · obtain ⟨v, hv⟩ := hsolvable
    have hlength : 0 < ‖v.toEuclidean n‖ :=
      norm_pos_iff.mpr ((hv.newton_model fits).ne_zero gradient)
    refine ⟨‖v.toEuclidean n‖ / 2, half_pos hlength, fun v' hv' => ?_⟩
    rw [hv'.eq hv]
    exact half_lt_self hlength
  · exact ⟨1, one_pos, fun v hv => absurd ⟨v, hv⟩ hsolvable⟩

end SmallRegion

/-- Where neither leg ends inside the region, the step is the first leg cut off, whatever is known of
the legs, and nothing is factored for it. -/
theorem Workspace.Sound.clips {m n : ℕ} {w : Workspace ℝ (CholeskySolver ℝ)} (h : w.Sound m n)
    (schedule : DampingSchedule ℝ) {radius : ℝ} (hradius : 0 < radius)
    (first : radius ≤ ‖h.fits.model.cauchy‖)
    (last : ∀ v, w.point.Newton w.damping.lambda v → radius < ‖v.toEuclidean n‖) :
    ∃ v w', h.fits.CauchyEnd v ∧ w.StepsTo schedule radius (Step.clipped (Leg.ofVec v) radius) w' := by
  obtain ⟨v, hend, hleg⟩ := h.exists_cauchyLeg
  have hfirst : w.CauchyLeg (Leg.ofVec v) := (hleg _).mpr rfl
  have hreaches : radius * radius ≤ (Leg.ofVec v).normSq := by
    rw [normSq_ofVec hend.size, hend.point, ← sq]
    exact pow_le_pow_left₀ hradius.le first 2
  cases hg : w.point.gaussNewton with
  | none => exact ⟨v, _, hend, .clipped hfirst hg hreaches⟩
  | some g =>
      obtain ⟨g, rfl, hnewton⟩ := h.gaussNewton g hg
      have hpast : ¬ (Leg.ofVec g).normSq ≤ radius * radius := by
        rw [normSq_ofVec (hnewton.size.trans h.fits.cols), ← sq, not_le]
        exact pow_lt_pow_left₀ (last g hnewton) hradius.le two_ne_zero
      have hblend : blend (Leg.ofVec v) (Leg.ofVec g) radius = Step.clipped (Leg.ofVec v) radius := by
        unfold blend
        exact (if_neg hpast).trans (if_pos hreaches)
      have hreused :
          w.StepsTo schedule radius (blend (Leg.ofVec v) (Leg.ofVec g) radius) _ :=
        .reused hfirst hg
      rw [hblend] at hreused
      exact ⟨v, _, hend, hreused⟩

/-! ### Attempts in a small region -/

/-- A search that stands at a point, under the given settings and at the given damping, and can ask
the callback of a problem. What is known of the legs is true, and nothing need be known. -/
structure Search.StandsAt (p : Problem ℝ) (settings : Settings ℝ) (q : Linearization ℝ)
    (lambda : ℝ) (s : Search ℝ (CholeskySolver ℝ)) : Prop where
  settings : s.session.settings = settings
  point : s.session.point.bare = q.bare
  lambda : s.session.lambda = lambda
  sound : s.session.workspace.Sound p.measurements q.state.size
  serves : ∃ calls, p.Serves q.state.size calls s.evaluator

namespace Problem

variable {p : Problem ℝ} {settings : Settings ℝ} {n : ℕ} {q : Linearization ℝ} {bound reach : ℝ}

/-- At every damping there is a radius such that every attempt from the point in a smaller region
comes to its end and is accepted. -/
theorem exists_safeRadius (valid : settings.fault? = none) (below : settings.rejectBelow < 1)
    (fits : q.Fits p.measurements n) (kind : q.jacobian.storage = p.storage)
    (gradient : ∃ i, i < n ∧ q.gradient.entry i ≠ 0) (hreach : 0 < reach)
    (follows : p.FollowsModel q bound reach) (lambda : ℝ) :
    ∃ safe, 0 < safe ∧ ∀ (clock : Clock) (s : Search ℝ (CholeskySolver ℝ)),
      s.StandsAt p settings q lambda → 0 < s.session.radius → s.session.radius ≤ safe →
        ∃ r reason s', s.Attempts clock r reason s' ∧ r.accepted settings = true := by
  have hgradient : fits.model.gradient ≠ 0 := by
    obtain ⟨i, hi, hne⟩ := gradient
    exact fun hzero => hne (Vec.toEuclidean_eq_zero_iff.mp hzero i hi)
  obtain ⟨small, hsmall, haccepts⟩ := exists_radius_accepts below fits hgradient hreach follows
  obtain ⟨short, hshort, hnewton⟩ := exists_radius_lt_newton fits hgradient lambda
  have hcauchy : 0 < ‖fits.model.cauchy‖ :=
    norm_pos_iff.mpr (LinearModel.cauchy_ne_zero hgradient)
  refine ⟨min small (min short ‖fits.model.cauchy‖), lt_min hsmall (lt_min hshort hcauchy), ?_⟩
  intro clock s h hradius hsafe
  obtain ⟨calls, hserves⟩ := h.serves
  have hsound := h.sound
  rw [fits.state] at hserves hsound
  obtain ⟨-, hstate, hresiduals, -, hjacobian, -⟩ := Linearization.parts_of_bare_eq h.point
  have hmodel : hsound.fits.model = fits.model := fits.model_eq hsound.fits h.point
  have husable : s.session.settings.damping.Usable := by
    rw [h.settings]
    exact (Settings.usable_of_fault? valid).damping
  have hfirst : s.session.radius ≤ ‖fits.model.cauchy‖ :=
    hsafe.trans ((min_le_right _ _).trans (min_le_right _ _))
  have hlast (v : Vec ℝ) (hv : s.session.point.Newton s.session.workspace.damping.lambda v) :
      s.session.radius < ‖v.toEuclidean n‖ := by
    have hlambda : s.session.workspace.damping.lambda = lambda := h.lambda
    rw [hlambda] at hv
    exact (hsafe.trans ((min_le_right _ _).trans (min_le_left _ _))).trans_lt
      (hnewton v (hv.of_bare_eq h.point.symm))
  obtain ⟨v, w, hend, hstep⟩ :=
    hsound.clips s.session.settings.damping hradius (hmodel ▸ hfirst) hlast
  have hend' : fits.CauchyEnd v := ⟨hend.size, hend.point.trans (congrArg LinearModel.cauchy hmodel)⟩
  obtain ⟨evaluation, hreported, haccept⟩ :=
    haccepts v s.session.radius hend' hradius (hsafe.trans (min_le_left _ _)) hfirst calls
  have hkind : s.session.point.jacobian.storage = p.storage := by
    rw [hjacobian, kind]
  rw [← hstate] at hreported
  obtain ⟨r, reason, s', hattempt, hstepEq, -, hevaluation⟩ :=
    Search.exists_attempts hsound hkind hserves husable clock hstep hreported
  obtain ⟨hpredicted, -, -, -, -, -, hactual⟩ := hattempt.exact hsound hserves husable
  refine ⟨r, reason, s', hattempt, ?_⟩
  rw [hevaluation, hresiduals] at hactual
  rw [hstepEq, hmodel] at hpredicted
  have hfinite : r.candidate.isFinite = true := rfl
  rw [Search.Round.accepted, Search.Round.quality, hfinite, hpredicted, hactual]
  exact haccept

end Problem

/-! ### Rejections in a row -/

/-- A search in a run stands at its point, with a region that is not empty. -/
theorem Problem.Run.standsAt {p : Problem ℝ} {settings : Settings ℝ} {clock : Clock} {state : Vec ℝ}
    {points : List (Linearization ℝ)} {reason : Option StopReason}
    {s : Search ℝ (CholeskySolver ℝ)} (h : p.Run settings clock state points reason s)
    {q : Linearization ℝ} (bare : s.session.point.bare = q.bare) :
    s.StandsAt p settings q s.session.lambda ∧ 0 < s.session.radius := by
  have hstate : q.state.size = state.size := by
    rw [← (Linearization.parts_of_bare_eq bare).2.1]
    exact h.fits.1.state
  exact ⟨⟨h.settings_eq, bare, rfl, hstate ▸ h.sound, points.length, hstate ▸ h.serves⟩, h.radius_pos⟩

namespace Search

/-- A search goes on from another through attempts whose steps are all rejected, however many attempts
it may make. -/
inductive RejectedTo (clock : Clock) (s : Search ℝ (CholeskySolver ℝ)) :
    ℕ → Option StopReason → Search ℝ (CholeskySolver ℝ) → Prop where
  | start : RejectedTo clock s 0 none s
  | again {k : ℕ} {s₁ s₂ : Search ℝ (CholeskySolver ℝ)} {r : Round ℝ (CholeskySolver ℝ)}
      {reason : Option StopReason} (before : RejectedTo clock s k none s₁)
      (attempted : s₁.Attempts clock r reason s₂)
      (rejected : r.accepted s₁.session.settings = false) :
      RejectedTo clock s (k + 1) reason s₂

namespace StandsAt

variable {p : Problem ℝ} {settings : Settings ℝ} {q : Linearization ℝ} {lambda : ℝ} {clock : Clock}
  {s s' : Search ℝ (CholeskySolver ℝ)} {n k : ℕ} {reason : Option StopReason}

/-- After a rejection a search still stands at its point, and its region is smaller. -/
theorem rejected (h : s.StandsAt p settings q lambda) (usable : settings.Usable)
    {r : Round ℝ (CholeskySolver ℝ)} (attempted : s.Attempts clock r reason s')
    (refused : r.accepted s.session.settings = false) :
    s'.StandsAt p settings q s'.session.lambda ∧
      s'.session.radius = s.session.radius * settings.shrinkFactor := by
  have hafter := attempted.after
  have hstep := Workspace.stepsTo_of_computeStep attempted.computed
  rw [h.settings] at hstep
  have hworkspace : s'.session.workspace = r.workspace := by
    rw [hafter.workspace, Round.endpoint_of_rejected refused]
  obtain ⟨calls, hserves⟩ := h.serves
  constructor
  · refine ⟨hafter.settings.trans h.settings, ?_, rfl, ?_, calls + 1, ?_⟩
    · rw [Session.point, hworkspace]
      exact hstep.bare_eq.trans h.point
    · rw [hworkspace]
      exact h.sound.stepsTo usable.damping hstep
    · rw [hafter.evaluator]
      exact (hserves.evaluate attempted.asked).2
  · rw [hafter.radius, Round.radiusAfter, refused, h.settings]
    exact if_neg Bool.false_ne_true

/-- Unless the first leg reached the boundary, the end of the path is known after a rejection; and if
it was known before, or the first leg reached the boundary, the damping is the same. -/
theorem rejected_lambda (h : s.StandsAt p settings q lambda) (usable : settings.Usable)
    (positive : 0 < s.session.radius) (fits : q.Fits p.measurements n)
    {r : Round ℝ (CholeskySolver ℝ)} (attempted : s.Attempts clock r reason s')
    (refused : r.accepted s.session.settings = false) :
    (s'.session.point.gaussNewton = none → s.session.radius ≤ ‖fits.model.cauchy‖) ∧
      ((s.session.point.gaussNewton = none → s.session.radius ≤ ‖fits.model.cauchy‖) →
        s'.session.lambda = s.session.lambda) := by
  have hstep := Workspace.stepsTo_of_computeStep attempted.computed
  have hsound := h.sound
  rw [h.settings] at hstep
  rw [fits.state] at hsound
  have hworkspace : s'.session.workspace = r.workspace := by
    rw [attempted.after.workspace, Round.endpoint_of_rejected refused]
  obtain ⟨v, hend, -, -, -, -, hcases⟩ := hsound.steps usable.damping hstep
  have hlength : (Leg.ofVec v).normSq = ‖fits.model.cauchy‖ ^ 2 := by
    rw [normSq_ofVec hend.size, hend.point, fits.model_eq hsound.fits h.point]
  rw [Session.point, Session.lambda, hworkspace]
  rcases hcases with ⟨-, hreaches, -, hdamping, -⟩ | ⟨g, -, -, hknown, hlong, hdefinite⟩
  · rw [hlength, ← sq] at hreaches
    exact ⟨fun _ => le_of_sq_le_sq hreaches (norm_nonneg _), fun _ => congrArg _ hdamping⟩
  · refine ⟨fun unknown => ?_, fun hbefore => ?_⟩
    · rw [hknown] at unknown
      cases unknown
    · cases hg : s.session.point.gaussNewton with
      | none =>
          refine absurd ?_ (hlong hg)
          rw [hlength, ← sq]
          exact pow_le_pow_left₀ positive.le (hbefore hg) 2
      | some g =>
          obtain ⟨g, -, hnewton⟩ := hsound.gaussNewton g hg
          exact hdefinite hnewton.definite

/-- After any number of rejections the search stands at the same point, the region has shrunk with each
of them, and the damping is what the first of them left. -/
theorem rejectedTo (h : s.StandsAt p settings q lambda) (usable : settings.Usable)
    (positive : 0 < s.session.radius) (fits : q.Fits p.measurements n)
    (refused : s.RejectedTo clock k reason s') :
    s'.StandsAt p settings q s'.session.lambda ∧
      s'.session.radius = s.session.radius * settings.shrinkFactor ^ k ∧
      (0 < k → s'.session.lambda = (s.attempt clock false).value.2.session.lambda ∧
        (s'.session.point.gaussNewton = none → s'.session.radius ≤ ‖fits.model.cauchy‖)) := by
  induction refused with
  | start =>
      exact ⟨h.lambda.symm ▸ h, by rw [pow_zero, mul_one], fun hk => absurd hk (lt_irrefl 0)⟩
  | @again k s₁ s₂ r reason before attempted refused ih =>
      obtain ⟨hstands, hradius, hlater⟩ := ih
      have hpositive : 0 < s₁.session.radius := by
        rw [hradius]
        exact mul_pos positive (pow_pos usable.shrinkFactor.1 k)
      obtain ⟨hstands₂, hradius₂⟩ := hstands.rejected usable attempted refused
      obtain ⟨hknown, hlambda⟩ :=
        hstands.rejected_lambda usable hpositive fits attempted refused
      have hless : s₂.session.radius ≤ s₁.session.radius := by
        rw [hradius₂]
        exact mul_le_of_le_one_right hpositive.le usable.shrinkFactor.2.le
      refine ⟨hstands₂, ?_, fun _ => ⟨?_, fun unknown => hless.trans (hknown unknown)⟩⟩
      · rw [hradius₂, hradius, pow_succ, mul_assoc]
      · cases k with
        | zero =>
            cases before with
            | start =>
                have hvalue : (s.attempt clock false).value = (.ok reason, s₂) :=
                  attempt_iff.mpr ⟨r, attempted⟩
                rw [hvalue]
        | succ k =>
            obtain ⟨hsame, hsettled⟩ := hlater (Nat.succ_pos k)
            exact (hlambda hsettled).trans hsame

end StandsAt

end Search

namespace Problem

variable {p : Problem ℝ} {settings : Settings ℝ}

/-- With settings whose threshold for a rejection is below one, at a point with a gradient, and with a
callback that follows the linear model of the point up to a multiple of the squared length of the
update: for every damping there is a radius such that every attempt from the point in a smaller region
comes to its end and is accepted, whatever is known of the legs; and from any search at the point,
whatever its region, only so many rejections can follow each other, also if the number of attempts is
not limited. -/
theorem rejections_are_bounded (valid : settings.fault? = none) (below : settings.rejectBelow < 1)
    {n : ℕ} {q : Linearization ℝ} (fits : q.Fits p.measurements n)
    (kind : q.jacobian.storage = p.storage) (gradient : ∃ i, i < n ∧ q.gradient.entry i ≠ 0)
    {bound reach : ℝ} (hreach : 0 < reach) (follows : p.FollowsModel q bound reach) :
    (∀ lambda, ∃ safe, 0 < safe ∧ ∀ (clock : Clock) (s : Search ℝ (CholeskySolver ℝ)),
      s.StandsAt p settings q lambda → 0 < s.session.radius → s.session.radius ≤ safe →
        ∃ r reason s', s.Attempts clock r reason s' ∧ r.accepted settings = true) ∧
    ∀ (clock : Clock) (lambda : ℝ) (s : Search ℝ (CholeskySolver ℝ)),
      s.StandsAt p settings q lambda → 0 < s.session.radius →
        ∃ most, ∀ k reason s', s.RejectedTo clock k reason s' → k ≤ most := by
  have hsafe := exists_safeRadius valid below fits kind gradient hreach follows
  have husable := Settings.usable_of_fault? valid
  refine ⟨hsafe, fun clock lambda s h positive => ?_⟩
  obtain ⟨safe, hpos, haccepted⟩ := hsafe (s.attempt clock false).value.2.session.lambda
  obtain ⟨most, hmost⟩ :=
    exists_pow_lt_of_lt_one (div_pos hpos positive) husable.shrinkFactor.2
  refine ⟨most + 1, fun k reason s' hrejected => ?_⟩
  induction hrejected with
  | start => exact Nat.zero_le _
  | @again k s₁ s₂ r reason before attempted refused ih =>
      rcases ih.lt_or_eq with hlt | rfl
      · exact hlt
      · -- by now the region is so small that the attempt would have been accepted
        obtain ⟨hstands, hradius, hlater⟩ := h.rejectedTo husable positive fits before
        have hsettings := hstands.settings
        rw [(hlater (Nat.succ_pos most)).1] at hstands
        have hpositive : 0 < s₁.session.radius := by
          rw [hradius]
          exact mul_pos positive (pow_pos husable.shrinkFactor.1 _)
        have hsmall : s₁.session.radius ≤ safe := by
          have hpow : settings.shrinkFactor ^ (most + 1) ≤ settings.shrinkFactor ^ most :=
            pow_le_pow_of_le_one husable.shrinkFactor.1.le husable.shrinkFactor.2.le
              (Nat.le_succ most)
          have hlt := (lt_div_iff₀ positive).mp (hpow.trans_lt hmost)
          rw [hradius, mul_comm]
          exact hlt.le
        obtain ⟨r', reason', s'', hattempt, haccept⟩ :=
          haccepted clock s₁ hstands hpositive hsmall
        obtain ⟨rfl, -, -⟩ := hattempt.eq attempted
        rw [hsettings, haccept] at refused
        cases refused

/-- What `squareIsTwo` reports at a state. -/
noncomputable def squareEvaluation (x : ℝ) : Evaluation ℝ :=
  { residuals := Vec.fit 1 ⟨#[x * x - 2.0]⟩
    jacobian := .dense (matrixOfBuffer 1 1 (Vec.fit 1 ⟨#[2.0 * x]⟩)) }

theorem report_squareIsTwo (calls : ℕ) (state : Vec ℝ) :
    squareIsTwo.report 1 calls state = some (squareEvaluation (state.entry 0)) :=
  rfl

theorem slope_squareEvaluation (x : ℝ) : (squareEvaluation x).jacobian.slope 0 0 = 2 * x := by
  show Entry.value (StoredMatrix.stored (StoredMatrix.ofFull
    (Matrix.ofFn 1 1 fun i j => (Vec.fit 1 ⟨#[2.0 * x]⟩).entry (i * 1 + j))) 0 0) = 2 * x
  rw [StoredMatrix.stored_ofFull, Matrix.cell?_ofFn Nat.one_pos Nat.one_pos]
  show (2.0 : ℝ) * x = 2 * x
  norm_num

theorem residual_squareEvaluation (x : ℝ) :
    (squareEvaluation x).residuals.entry 0 = x * x - 2 := by
  show x * x - 2.0 = x * x - 2
  norm_num

/-- The residuals of `squareIsTwo` differ from those of its linear model by the square of the
update. -/
theorem followsModel_squareIsTwo {q : Linearization ℝ} {x : ℝ} (state : q.state = ⟨#[x]⟩)
    (residuals : q.residuals = (squareEvaluation x).residuals)
    (jacobian : q.jacobian = (squareEvaluation x).jacobian) :
    squareIsTwo.FollowsModel q 1 1 := by
  intro calls u size _
  have hone : q.state.size = 1 := by rw [state]; rfl
  rw [hone] at size ⊢
  refine ⟨_, report_squareIsTwo calls _, ?_⟩
  set e := (squareEvaluation ((q.state.add u).entry 0)).residuals.sub
    (q.residuals.add (StoredMatrix.mulVec q.jacobian.stored u)) with he
  have hsize : e.size = 1 := rfl
  have hmoved : (q.state.add u).entry 0 = x + u.entry 0 := by
    rw [Vec.add, Vec.entry_ofFn (hone ▸ Nat.one_pos), state]
    rfl
  have himage : (StoredMatrix.mulVec q.jacobian.stored u).entry 0 = 2 * x * u.entry 0 := by
    have hrows : 0 < q.jacobian.stored.rows := by rw [jacobian]; exact Nat.one_pos
    have hcols : q.jacobian.stored.cols = 1 := by rw [jacobian]; rfl
    rw [Jacobian.entry_mulVec _ _ hrows, hcols, Finset.sum_range_one, jacobian,
      slope_squareEvaluation]
  have hentry : e.entry 0 = u.entry 0 ^ 2 := by
    have hbefore : q.residuals.entry 0 = x * x - 2 := by
      rw [residuals, residual_squareEvaluation]
    have hpositive : 0 < q.residuals.size := by rw [residuals]; exact Nat.one_pos
    have hfirst : 0 < (squareEvaluation ((q.state.add u).entry 0)).residuals.size := Nat.one_pos
    rw [he, Vec.sub, Vec.entry_ofFn hfirst, residual_squareEvaluation, hmoved, Vec.add,
      Vec.entry_ofFn hpositive, himage, hbefore]
    ring
  have hnorm : e.norm = u.entry 0 ^ 2 := by
    rw [Vec.norm_eq, Vec.normSq_eq, hsize, Finset.sum_range_one, hentry,
      Real.sqrt_sq (sq_nonneg _)]
  have hsquare : u.normSq = u.entry 0 ^ 2 := by
    rw [Vec.normSq_eq, size, Finset.sum_range_one]
  rw [hnorm, hsquare, one_mul]

/-- The search for a root of two from one: at the first point there is a radius below which every
attempt without damping is accepted, and rejections come to an end. -/
theorem rejections_are_bounded_squareIsTwo :
    ∃ points s, squareIsTwo.Run unitRadius Clock.stopped ⟨#[1]⟩ points none s ∧
      (∃ safe, 0 < safe ∧ ∀ (clock : Clock) (s' : Search ℝ (CholeskySolver ℝ)),
        s'.StandsAt squareIsTwo unitRadius s.session.point 0 → 0 < s'.session.radius →
          s'.session.radius ≤ safe →
            ∃ r reason s'', s'.Attempts clock r reason s'' ∧ r.accepted unitRadius = true) ∧
      ∃ most, ∀ k reason s', s.RejectedTo Clock.stopped k reason s' → k ≤ most := by
  have hbelow : unitRadius.rejectBelow < 1 := by
    norm_num [unitRadius, Settings.standard]
  obtain ⟨q, hq⟩ : ∃ q,
      (firstPoint (squareIsTwo : Problem ℝ).backend ⟨#[1]⟩ (squareEvaluation 1)).value = .ok q :=
    ⟨_, rfl⟩
  have hrun : squareIsTwo.Run unitRadius Clock.stopped ⟨#[1]⟩ [q] _ _ :=
    .opening fault?_unitRadius rfl rfl hq
  rw [converged?_unitRadius] at hrun
  obtain ⟨gradient, hgradient, rfl⟩ := Linearization.of_make (of_firstPoint hq).1
  obtain ⟨-, -, rfl⟩ := CholeskySolver.gradient_eq hgradient
  obtain ⟨hfits, hkind⟩ := hrun.fits
  have hslope : ∃ i, i < 1 ∧ (StoredMatrix.transposeMulVec (squareEvaluation 1).jacobian.stored
      (squareEvaluation 1).residuals).entry i ≠ 0 := by
    refine ⟨0, Nat.one_pos, ?_⟩
    rw [Jacobian.entry_transposeMulVec _ _ Nat.one_pos]
    show ∑ r ∈ Finset.range 1, (squareEvaluation 1).jacobian.slope r 0 *
      (squareEvaluation 1).residuals.entry r ≠ 0
    rw [Finset.sum_range_one, slope_squareEvaluation, residual_squareEvaluation]
    norm_num
  obtain ⟨hsafe, hmost⟩ := rejections_are_bounded fault?_unitRadius hbelow hfits hkind hslope one_pos
    (followsModel_squareIsTwo rfl rfl rfl)
  obtain ⟨hstands, hpositive⟩ := hrun.standsAt rfl
  exact ⟨_, _, hrun, hsafe 0, hmost _ _ _ hstands hpositive⟩

end Problem

end TrustRegion
