/-
Module: TrustRegion.Proofs.Search.Region
Purpose: Every step of every search stays in the trust region, without rounding, as long as the
  second leg of the path is not too short to tell; and where it is, and the boundary lies on it, the
  step leaves the region.
Main exports: Workspace.StepsTo.legs, Problem.Run.radius_pos, Problem.Run.cauchyFrom,
  Problem.Run.step_inside_unless_tooShort
-/
import TrustRegion.Proofs.Search.Freshness
import TrustRegion.Proofs.Step.Region

namespace TrustRegion

/-- A leg of the path from a point, with its own squared length. -/
structure Leg.From {α : Type} [Scalar α] (q : Linearization α) (leg : Leg α) : Prop where
  normSq : leg.normSq = leg.vector.normSq
  size : leg.vector.size = q.gradient.size

/-- The end of the first leg, where it is known, is that of a leg from the point. -/
def Linearization.CauchyFrom {α : Type} [Scalar α] (q : Linearization α) : Prop :=
  ∀ c, q.cauchy = some c → c.From q

theorem Linearization.cauchyFrom_of_bare_eq {α : Type} [Scalar α] {q : Linearization α}
    (h : q.bare = q) : q.CauchyFrom := by
  intro c hc
  rw [cauchy_of_bare_eq h] at hc
  cases hc

namespace Workspace

variable {α β : Type} [Scalar α] [LinearSolver α β] {w w' : Workspace α β}

/-- The end of the first leg is that of a leg from the point, if it is known to be. -/
theorem CauchyLeg.from_point {c : Leg α} (h : w.CauchyLeg c) (known : w.point.CauchyFrom) :
    c.From w.point := by
  cases h with
  | known hc => exact known c hc
  | computed _ hv => exact ⟨rfl, size_of_cauchyVector hv⟩

/-- Computing a step leaves the end of the first leg known, and the step is that leg cut off, or a
blend with the end of the path, which is then known as well. -/
theorem StepsTo.legs {schedule : DampingSchedule α} {radius : α} {step : Step α}
    (h : w.StepsTo schedule radius step w')
    (known : w.point.CauchyFrom) :
    ∃ c, w'.point.cauchy = some c ∧ c.From w'.point ∧
      ((w'.point.gaussNewton = none ∧ radius * radius ≤ c.normSq ∧
          step = Step.clipped c radius) ∨
        ∃ g, w'.point.gaussNewton = some g ∧ step = blend c g radius) := by
  cases h with
  | @clipped c first unknown reaches =>
      have hfrom := first.from_point known
      exact ⟨c, rfl, ⟨hfrom.normSq, hfrom.size⟩, .inl ⟨rfl, reaches, rfl⟩⟩
  | @reused c g first hknown =>
      have hfrom := first.from_point known
      exact ⟨c, rfl, ⟨hfrom.normSq, hfrom.size⟩, .inr ⟨g, rfl, rfl⟩⟩
  | @factored c v damping backend first unknown short computed =>
      have hfrom := first.from_point known
      exact ⟨c, rfl, ⟨hfrom.normSq, hfrom.size⟩, .inr ⟨Leg.ofVec v, rfl, rfl⟩⟩

end Workspace

/-- The end of the path that is known from a workspace in step is that of a leg from its point. -/
theorem Workspace.Fresh.from_of_gaussNewton {points : List (Linearization ℝ)}
    {w : Workspace ℝ (CholeskySolver ℝ)} (h : w.Fresh points)
    (gradient : w.point.gradient =
      StoredMatrix.transposeMulVec w.point.jacobian.stored w.point.residuals)
    {g : Leg ℝ} (known : w.point.gaussNewton = some g) : g.From w.point := by
  obtain ⟨hkey, columns, hfactor, rfl⟩ := h.cached g known
  obtain ⟨-, hholds⟩ := h.holds_current hkey
  refine ⟨rfl, ?_⟩
  rw [Leg.ofVec, Cholesky.size_solve, (hholds.product_eq hfactor).2.1, gradient,
    StoredMatrix.size_transposeMulVec]

/-- A round leaves a radius that is positive. -/
theorem Search.Round.radiusAfter_pos {β : Type} {settings : Settings ℝ} (usable : settings.Usable)
    {radius : ℝ} (h : 0 < radius) (r : Search.Round ℝ β) : 0 < r.radiusAfter settings radius := by
  have hgrow : 0 < settings.growFactor := zero_lt_one.trans usable.growFactor
  unfold radiusAfter
  split
  · split
    · exact mul_pos h hgrow
    · exact h
  · exact mul_pos h usable.shrinkFactor.1

namespace Problem.Run

variable {p : Problem ℝ} {settings : Settings ℝ} {clock : Clock} {state : Vec ℝ}
  {points : List (Linearization ℝ)} {reason : Option StopReason} {s : Search ℝ (CholeskySolver ℝ)}

theorem radius_pos (h : p.Run settings clock state points reason s) : 0 < s.session.radius := by
  induction h with
  | opening valid _ _ _ => exact (Settings.usable_of_fault? valid).radius
  | round before _ attempted ih =>
      rw [attempted.after.radius, before.settings_eq]
      exact Search.Round.radiusAfter_pos before.usable ih _

theorem cauchyFrom (h : p.Run settings clock state points reason s) :
    s.session.point.CauchyFrom := by
  induction h with
  | @opening e e' evaluation point valid built asked first =>
      have hrun : p.Run settings clock state [point] _ _ := .opening valid built asked first
      have hmade : p.Made state.size 0 point := hrun.made rfl
      exact Linearization.cauchyFrom_of_bare_eq hmade.bare
  | @round points s s' r reason before room attempted ih =>
      have hmade := before.made_candidate room attempted
      rw [attempted.after.point]
      cases hacc : r.accepted s.session.settings with
      | true =>
          rw [Search.Round.endpoint_of_accepted hacc]
          exact Linearization.cauchyFrom_of_bare_eq hmade.bare
      | false =>
          rw [Search.Round.endpoint_of_rejected hacc]
          obtain ⟨c, hc, hfrom, -⟩ := (Workspace.stepsTo_of_computeStep attempted.computed).legs ih
          intro c' hc'
          rw [hc] at hc'
          cases hc'
          exact hfrom

/-- In every attempt of every run, the step is no longer than the radius, and as long as the radius
if it says that it ends on the boundary, which is if it is not the end of the path; this is so exactly
unless the first leg ends inside the region, the path ends outside of it, and the second leg is too
short to tell how much of it is inside, and then the step leads to the end of the path. -/
theorem step_inside_unless_tooShort (h : p.Run settings clock state points none s) {step : Step ℝ}
    {w : Workspace ℝ (CholeskySolver ℝ)}
    (computed : (s.session.workspace.computeStep s.session.settings.damping
      s.session.radius).value = (.ok step, w)) :
    (step.toEdge = true ↔ step.kind ≠ .gaussNewton) ∧
    ((step.norm ≤ s.session.radius ∧ (step.toEdge = true → step.norm = s.session.radius)) ↔
      ¬ ∃ c g, w.point.cauchy = some c ∧ w.point.gaussNewton = some g ∧
        TooShort c g s.session.radius) ∧
    ∀ c g, w.point.cauchy = some c → w.point.gaussNewton = some g →
      TooShort c g s.session.radius → step.update = g.vector := by
  have hradius := h.radius_pos
  have hstep := Workspace.stepsTo_of_computeStep computed
  obtain ⟨c, hc, hfrom, ⟨hnone, hreaches, rfl⟩ | ⟨g, hg, rfl⟩⟩ := hstep.legs h.cauchyFrom
  · rw [Step.norm_clipped hfrom.normSq hradius hreaches]
    refine ⟨?_, iff_of_true ⟨le_rfl, fun _ => rfl⟩ ?_, ?_⟩
    · simp [Step.clipped]
    · rintro ⟨-, g, -, hg, -⟩
      rw [hnone] at hg
      cases hg
    · intro _ g _ hg _
      rw [hnone] at hg
      cases hg
  · rw [h.settings_eq] at hstep
    have hfresh := h.fresh.stepsTo h.usable.damping hstep
    have hgFrom := hfresh.from_of_gaussNewton (h.made hfresh.current).gradient hg
    have hsize : g.vector.size = c.vector.size := hgFrom.size.trans hfrom.size.symm
    refine ⟨toEdge_blend_iff, ?_, ?_⟩
    · simp only [hc, hg, Option.some.injEq, exists_and_left, exists_eq_left']
      exact blend_inside_iff hfrom.normSq hgFrom.normSq hsize hradius
    · rintro c' g' hc' hg' hshort
      rw [hc] at hc'
      rw [hg] at hg'
      cases hc'
      cases hg'
      exact blend_of_tooShort hsize hshort

end Problem.Run

namespace Problem

/-- A residual that is one with a derivative of one, whatever the state. -/
noncomputable def constantOne : Problem ℝ :=
  .dense (fun _ _ _ _ => (.ok ⟨#[1]⟩, ⟨#[1]⟩)) 1

/-- The vector with one entry, a one. -/
noncomputable def unitVector : Vec ℝ :=
  Vec.fit 1 ⟨#[1]⟩

theorem normSq_unitVector : unitVector.normSq = 1 := by
  rw [Vec.normSq_eq]
  show ∑ i ∈ Finset.range 1, unitVector.entry i ^ 2 = 1
  rw [Finset.sum_range_one, show unitVector.entry 0 = 1 from rfl, one_pow]

/-- What `constantOne` reports. -/
noncomputable def unitEvaluation : Evaluation ℝ :=
  { residuals := unitVector, jacobian := .dense (matrixOfBuffer 1 1 unitVector) }

theorem slope_unitEvaluation : unitEvaluation.jacobian.slope 0 0 = 1 := by
  show Entry.value (StoredMatrix.stored (StoredMatrix.ofFull
    (Matrix.ofFn 1 1 fun i j => unitVector.entry (i * 1 + j))) 0 0) = 1
  rw [StoredMatrix.stored_ofFull, Matrix.cell?_ofFn Nat.one_pos Nat.one_pos]
  rfl

/-- The first leg from the point of `constantOne` leads one back. -/
theorem cauchyVector_constantOne {q : Linearization ℝ}
    (h : (firstPoint constantOne.backend ⟨#[0]⟩ unitEvaluation).value = .ok q) :
    ∃ v, (cauchyVector constantOne.backend q).value = .ok v ∧ v.normSq = 1 := by
  have hgradient : StoredMatrix.transposeMulVec unitEvaluation.jacobian.stored unitVector =
      unitVector := by
    refine Vec.ext_entry rfl fun i hi => ?_
    obtain rfl : i = 0 := Nat.lt_one_iff.mp hi
    rw [Jacobian.entry_transposeMulVec _ _ hi]
    show ∑ r ∈ Finset.range 1, unitEvaluation.jacobian.slope r 0 * unitVector.entry r = _
    rw [Finset.sum_range_one, slope_unitEvaluation, one_mul]
  have himage : StoredMatrix.mulVec unitEvaluation.jacobian.stored unitVector = unitVector := by
    refine Vec.ext_entry rfl fun i hi => ?_
    obtain rfl : i = 0 := Nat.lt_one_iff.mp hi
    rw [Jacobian.entry_mulVec _ _ hi]
    show ∑ r ∈ Finset.range 1, unitEvaluation.jacobian.slope 0 r * unitVector.entry r = _
    rw [Finset.sum_range_one, slope_unitEvaluation, one_mul]
  have hproduct : (LinearSolver.jacobianMul constantOne.backend unitEvaluation.jacobian
      unitVector).value = .ok unitVector := by
    conv_rhs => rw [← himage]
    rfl
  obtain ⟨gradient, hg, rfl⟩ := Linearization.of_make (of_firstPoint h).1
  obtain ⟨-, -, hgradient'⟩ := CholeskySolver.gradient_eq hg
  obtain rfl : gradient = unitVector := hgradient'.trans hgradient
  have hnonzero : ((1 : ℝ) == 0) = false := beq_eq_false_iff_ne.mpr one_ne_zero
  refine ⟨Vec.ofFn 1 fun i => -(1 / 1) * unitVector.entry i, ?_, ?_⟩
  · unfold cauchyVector
    simp only [normSq_unitVector, hnonzero, Bool.false_eq_true, if_false, Logged.value_bind, hproduct]
    rfl
  · rw [Vec.normSq_eq, Vec.size_ofFn, Finset.sum_range_one, Vec.entry_ofFn Nat.one_pos,
      show unitVector.entry 0 = 1 from rfl]
    norm_num

/-- The settings of a search from a radius of one that does not stop at its first point. -/
noncomputable def unitRadius : Settings ℝ :=
  { Settings.standard with radius := 1, gradientTolerance := 0, radiusTolerance := 0 }

theorem fault?_unitRadius : unitRadius.fault? = none := by
  norm_num [unitRadius, Settings.fault?, Settings.standard, DampingSchedule.standard,
    Scalar.isFinite, Scalar.isNaN]

theorem converged?_unitRadius (q : Linearization ℝ) (radius : ℝ) :
    unitRadius.converged? q none radius = none := by
  simp [Settings.converged?, Settings.radiusConverged, unitRadius]

/-- With a radius of one, the first step is the whole first leg, and it ends on the boundary. -/
theorem step_inside_constantOne :
    ∃ points s step w,
      constantOne.Run unitRadius Clock.stopped ⟨#[0]⟩ points none s ∧
      (s.session.workspace.computeStep s.session.settings.damping s.session.radius).value =
        (.ok step, w) ∧
      step.norm ≤ s.session.radius ∧ (step.toEdge = true → step.norm = s.session.radius) := by
  obtain ⟨q, hq⟩ : ∃ q, (firstPoint constantOne.backend ⟨#[0]⟩ unitEvaluation).value = .ok q :=
    ⟨_, rfl⟩
  have hrun : constantOne.Run unitRadius Clock.stopped ⟨#[0]⟩ [q] _ _ :=
    .opening fault?_unitRadius rfl rfl hq
  rw [converged?_unitRadius] at hrun
  obtain ⟨v, hv, hnormSq⟩ := cauchyVector_constantOne hq
  have hmade : constantOne.Made 1 0 q := hrun.made rfl
  have hcauchy : q.cauchy = none := Linearization.cauchy_of_bare_eq hmade.bare
  have hgaussNewton : q.gaussNewton = none := Linearization.gaussNewton_of_bare_eq hmade.bare
  have hreaches : unitRadius.radius * unitRadius.radius ≤ (Leg.ofVec v).normSq := by
    show (1 : ℝ) * 1 ≤ v.normSq
    rw [hnormSq, one_mul]
  have hstep : (Workspace.mk constantOne.backend Damping.none q).StepsTo unitRadius.damping
      unitRadius.radius _ _ :=
    .clipped (.computed hcauchy hv) hgaussNewton hreaches
  have hcomputed := Workspace.computeStep_of_stepsTo hstep
  refine ⟨_, _, _, _, hrun, hcomputed, (Run.step_inside_unless_tooShort hrun hcomputed).2.1.mpr ?_⟩
  rintro ⟨-, g, -, hg, -⟩
  cases hg

end Problem

end TrustRegion
