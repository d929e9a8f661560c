/-
Module: TrustRegion.Proofs.Step.Outcome
Purpose: What computing a step can do to a workspace, said once. A step is the first leg cut off at
  the radius, a blend of two legs that were known, or a blend whose second leg was computed for it.
Main exports: Workspace.CauchyLeg, Workspace.StepsTo, Workspace.stepsTo_of_computeStep,
  Workspace.StepsTo.reachedEdge_iff
-/
import TrustRegion.Step

namespace TrustRegion

/-- A blend says that it ends on the boundary unless it is the end of the path. -/
theorem toEdge_blend_iff {α : Type} [Scalar α] {c g : Leg α} {radius : α} :
    (blend c g radius).toEdge = true ↔ (blend c g radius).kind ≠ .gaussNewton := by
  unfold blend Step.clipped
  dsimp only
  split
  · simp
  · split <;> simp

/-- A blend of two legs of one length has that length. -/
theorem size_blend {α : Type} [Scalar α] {c g : Leg α} {n : Nat} (hc : c.vector.size = n)
    (hg : g.vector.size = n) (radius : α) : (blend c g radius).update.size = n := by
  unfold blend
  dsimp only
  split
  · exact hg
  · split
    · exact (Vec.size_ofFn _ _).trans hc
    · exact (Vec.size_ofFn _ _).trans hc

/-- The end of the first leg has one entry for each component of the gradient. -/
theorem size_of_cauchyVector {α β : Type} [Scalar α] [LinearSolver α β] {backend : β}
    {q : Linearization α} {v : Vec α} (h : (cauchyVector backend q).value = .ok v) :
    v.size = q.gradient.size := by
  unfold cauchyVector at h
  dsimp only at h
  split at h
  · cases h
    exact Vec.size_zeros _
  · cases himage : (LinearSolver.jacobianMul backend q.jacobian q.gradient).value with
    | error e =>
        simp only [Logged.value_bind, himage] at h
        cases h
    | ok image =>
        simp only [Logged.value_bind, himage] at h
        split at h
        · cases h
          exact Vec.size_zeros _
        · cases h
          exact Vec.size_ofFn _ _

namespace Workspace

variable {α β : Type} [Scalar α] [LinearSolver α β]

/-- The end of the first leg from a workspace: the one that is known, or else the one computed. -/
inductive CauchyLeg (w : Workspace α β) : Leg α → Prop where
  | known {c : Leg α} (h : w.point.cauchy = some c) : CauchyLeg w c
  | computed {v : Vec α} (unknown : w.point.cauchy = none)
      (h : (cauchyVector w.backend w.point).value = .ok v) : CauchyLeg w (Leg.ofVec v)

/-- The point of a workspace once a step from it with the given legs is recorded. -/
def stepped (w : Workspace α β) (cauchy : Leg α) (gaussNewton : Option (Leg α)) (step : Step α) :
    Linearization α :=
  { w.point with cauchy := some cauchy, gaussNewton, reachedEdge := step.toEdge }

/-- The step that is computed at a radius, and what that leaves of the workspace. -/
inductive StepsTo (schedule : DampingSchedule α) (radius : α) (w : Workspace α β) :
    Step α → Workspace α β → Prop where
  /-- The first leg reaches the boundary and the end of the path is not known. -/
  | clipped {c : Leg α} (first : w.CauchyLeg c) (unknown : w.point.gaussNewton = none)
      (reaches : radius * radius ≤ c.normSq) :
      StepsTo schedule radius w (Step.clipped c radius)
        { w with point := w.stepped c none (Step.clipped c radius) }
  /-- The end of the path is known from an earlier step. -/
  | reused {c g : Leg α} (first : w.CauchyLeg c) (known : w.point.gaussNewton = some g) :
      StepsTo schedule radius w (blend c g radius)
        { w with point := w.stepped c (some g) (blend c g radius) }
  /-- The end of the path is needed and is computed. -/
  | factored {c : Leg α} {v : Vec α} {damping : Damping α} {backend : β} (first : w.CauchyLeg c)
      (unknown : w.point.gaussNewton = none) (short : ¬ radius * radius ≤ c.normSq)
      (computed :
        (gaussNewtonVector schedule w.point w.damping w.backend).value = (.ok v, damping, backend)) :
      StepsTo schedule radius w (blend c (Leg.ofVec v) radius)
        { backend, damping
          point := w.stepped c (some (Leg.ofVec v)) (blend c (Leg.ofVec v) radius) }

/-- Making sure of the first leg changes nothing but what is known of it. -/
theorem cauchyLeg_of_ensureCauchy {w w' : Workspace α β} {c : Leg α}
    (h : w.ensureCauchy.value = (.ok c, w')) :
    w.CauchyLeg c ∧ w' = { w with point := { w.point with cauchy := some c } } := by
  unfold ensureCauchy at h
  cases hc : w.point.cauchy with
  | some leg =>
      rw [hc] at h
      cases h
      exact ⟨.known hc, by rw [← hc]⟩
  | none =>
      rw [hc] at h
      cases hv : (cauchyVector w.backend w.point).value with
      | error e =>
          simp only [Logged.value_bind, hv] at h
          cases h
      | ok v =>
          simp only [Logged.value_bind, hv] at h
          cases h
          exact ⟨.computed hc hv, rfl⟩

/-- Making sure of the end of the path either finds it or computes it. -/
theorem gaussNewton_of_ensureGaussNewton {schedule : DampingSchedule α} {w w' : Workspace α β}
    {g : Leg α} (h : (w.ensureGaussNewton schedule).value = (.ok g, w')) :
    (w.point.gaussNewton = some g ∧ w' = w) ∨
      (w.point.gaussNewton = none ∧ ∃ v damping backend,
        (gaussNewtonVector schedule w.point w.damping w.backend).value = (.ok v, damping, backend) ∧
        g = Leg.ofVec v ∧
        w' = { backend, damping, point := { w.point with gaussNewton := some (Leg.ofVec v) } }) := by
  unfold ensureGaussNewton at h
  cases hg : w.point.gaussNewton with
  | some leg =>
      rw [hg] at h
      cases h
      exact .inl ⟨rfl, rfl⟩
  | none =>
      rcases hv : (gaussNewtonVector schedule w.point w.damping w.backend).value with
        ⟨answer, damping, backend⟩
      simp only [hg, Logged.value_bind, hv] at h
      cases answer with
      | error e => cases h
      | ok v =>
          cases h
          exact .inr ⟨rfl, v, damping, backend, rfl, rfl, rfl⟩

/-- The end of the first leg is found or computed by making sure of it. -/
theorem ensureCauchy_of_cauchyLeg {w : Workspace α β} {c : Leg α} (h : w.CauchyLeg c) :
    w.ensureCauchy.value = (.ok c, { w with point := { w.point with cauchy := some c } }) := by
  unfold ensureCauchy
  cases h with
  | known hc =>
      simp only [hc]
      rw [← hc]
      rfl
  | computed unknown hv => simp only [unknown, Logged.value_bind, hv, Logged.value_pure]

/-- The end of the path is computed by making sure of it, if it is not known. -/
theorem ensureGaussNewton_of_computed {schedule : DampingSchedule α} {w : Workspace α β}
    {v : Vec α} {damping : Damping α} {backend : β} (unknown : w.point.gaussNewton = none)
    (computed : (gaussNewtonVector schedule w.point w.damping w.backend).value =
      (.ok v, damping, backend)) :
    (w.ensureGaussNewton schedule).value =
      (.ok (Leg.ofVec v),
        { backend, damping, point := { w.point with gaussNewton := some (Leg.ofVec v) } }) := by
  unfold ensureGaussNewton
  simp only [unknown, Logged.value_bind, computed]
  rfl

/-- Each of the three outcomes is reached by computing a step. -/
theorem computeStep_of_stepsTo {schedule : DampingSchedule α} {radius : α} {w w' : Workspace α β}
    {step : Step α} (h : w.StepsTo schedule radius step w') :
    (w.computeStep schedule radius).value = (.ok step, w') := by
  unfold computeStep
  cases h with
  | clipped first unknown reaches =>
      simp only [Logged.value_bind, ensureCauchy_of_cauchyLeg first, unknown, Option.isNone_none,
        reaches, and_self, if_true]
      rfl
  | reused first known =>
      simp only [Logged.value_bind, ensureCauchy_of_cauchyLeg first, known, Option.isNone_some,
        Bool.false_eq_true, false_and, if_false, ensureGaussNewton, Logged.value_pure]
      rfl
  | @factored c v damping backend first unknown short computed =>
      have hlast := ensureGaussNewton_of_computed
        (w := { w with point := { w.point with cauchy := some c } }) unknown computed
      simp only [Logged.value_bind, ensureCauchy_of_cauchyLeg first, short, and_false, if_false,
        hlast]
      rfl

/-- A step fails with the error that the end of the path fails with, where that is needed. -/
theorem computeStep_of_error {schedule : DampingSchedule α} {radius : α} {w : Workspace α β} {c : Leg α}
    {error : LinearError α} {damping : Damping α} {backend : β} (first : w.CauchyLeg c)
    (unknown : w.point.gaussNewton = none) (short : ¬ radius * radius ≤ c.normSq)
    (failed : (gaussNewtonVector schedule w.point w.damping w.backend).value =
      (.error error, damping, backend)) :
    (w.computeStep schedule radius).value =
      (.error error, { backend, damping, point := { w.point with cauchy := some c } }) := by
  have hlast : (ensureGaussNewton schedule
      { w with point := { w.point with cauchy := some c } }).value =
        (.error error, ⟨backend, damping, { w.point with cauchy := some c }⟩) := by
    have hfailed : (gaussNewtonVector schedule { w.point with cauchy := some c } w.damping
        w.backend).value = (.error error, damping, backend) := failed
    unfold ensureGaussNewton
    simp only [unknown] at hfailed ⊢
    simp only [Logged.value_bind, hfailed, Logged.value_pure]
  unfold computeStep
  simp only [Logged.value_bind, ensureCauchy_of_cauchyLeg first, short, and_false, if_false, hlast]
  rfl

/-- Computing a step has one of the three outcomes. -/
theorem stepsTo_of_computeStep {schedule : DampingSchedule α} {radius : α} {w w' : Workspace α β}
    {step : Step α} (h : (w.computeStep schedule radius).value = (.ok step, w')) :
    w.StepsTo schedule radius step w' := by
  unfold computeStep at h
  rcases hfirst : w.ensureCauchy.value with ⟨answer, w₁⟩
  simp only [Logged.value_bind, hfirst] at h
  cases answer with
  | error e => cases h
  | ok c =>
      obtain ⟨first, rfl⟩ := cauchyLeg_of_ensureCauchy hfirst
      dsimp only at h
      split at h
      · rename_i hclip
        obtain ⟨hnone, hreach⟩ := hclip
        have hg : w.point.gaussNewton = none := Option.isNone_iff_eq_none.mp hnone
        cases h
        have hclipped : w.StepsTo schedule radius _ _ := .clipped first hg hreach
        simpa [stepped, hg] using hclipped
      · rename_i hlong
        rcases hlast : (ensureGaussNewton schedule
          { w with point := { w.point with cauchy := some c } }).value with ⟨answer, w₂⟩
        simp only [Logged.value_bind, hlast] at h
        cases answer with
        | error e => cases h
        | ok g =>
            cases h
            rcases gaussNewton_of_ensureGaussNewton hlast with
              ⟨hg, rfl⟩ | ⟨hg, v, damping, backend, hv, rfl, rfl⟩
            · have hreused : w.StepsTo schedule radius _ _ := .reused first hg
              simpa [stepped, ← hg] using hreused
            · have hshort : ¬ radius * radius ≤ c.normSq :=
                fun hreach => hlong ⟨Option.isNone_iff_eq_none.mpr hg, hreach⟩
              exact .factored first hg hshort hv

namespace StepsTo

variable {schedule : DampingSchedule α} {radius : α} {w w' : Workspace α β} {step : Step α}

/-- The point remembers whether the step just computed ends on the boundary, not an earlier one. -/
theorem reachedEdge (h : w.StepsTo schedule radius step w') :
    w'.point.reachedEdge = step.toEdge := by
  cases h <;> rfl

/-- A step ends on the boundary unless it leads to the end of the path. -/
theorem reachedEdge_iff (h : w.StepsTo schedule radius step w') :
    w'.point.reachedEdge = true ↔ step.kind ≠ .gaussNewton := by
  rw [h.reachedEdge]
  cases h with
  | clipped first unknown reaches => exact iff_of_true rfl nofun
  | reused first known => exact toEdge_blend_iff
  | factored first unknown short computed => exact toEdge_blend_iff

end StepsTo

end Workspace

end TrustRegion
