/-
Module: TrustRegion.Proofs.Search.Stages
Purpose: What is known of a point after any number of steps were computed from it, whatever the scalars
  and whatever does the linear algebra. There are three stages: nothing is known, the first leg is, or
  the whole path is. In the last the step is the blend of the two legs, and before that it is the first
  leg cut off where that reaches the boundary.
Main exports: lazyStep, Workspace.Ends, Workspace.Stage, Workspace.Stage.exists_stepsTo,
  Workspace.Stage.reaches
-/
import TrustRegion.Proofs.Search.Improvement

namespace TrustRegion

variable {α β : Type} [Scalar α] [LinearSolver α β]

/-- The step at a radius while the end of the path is not known: where the first leg reaches the
boundary, the end is not looked at. -/
def lazyStep (c g : Vec α) (radius : α) : Step α :=
  if radius * radius ≤ (Leg.ofVec c).normSq then Step.clipped (Leg.ofVec c) radius
  else blend (Leg.ofVec c) (Leg.ofVec g) radius

namespace Workspace

/-- The two ends of the path from a workspace that knows neither, with the damping and the solver that
computing the second one leaves. -/
structure Ends (schedule : DampingSchedule α) (start : Workspace α β) (c g : Vec α) (d : Damping α)
    (s' : β) : Prop where
  cauchy_unknown : start.point.cauchy = none
  gaussNewton_unknown : start.point.gaussNewton = none
  cauchy : (cauchyVector start.backend start.point).value = .ok c
  gaussNewton :
    (gaussNewtonVector schedule start.point start.damping start.backend).value = (.ok g, d, s')

/-- What steps computed from a workspace can leave. -/
inductive Stage (start : Workspace α β) (c g : Vec α) (d : Damping α) (s' : β) :
    Workspace α β → Prop where
  | fresh : Stage start c g d s' start
  /-- Only the first leg was needed so far. -/
  | firstLeg (step : Step α) : Stage start c g d s'
      { start with point := start.stepped (Leg.ofVec c) none step }
  /-- The whole path was needed. -/
  | path (step : Step α) : Stage start c g d s'
      { backend := s', damping := d
        point := start.stepped (Leg.ofVec c) (some (Leg.ofVec g)) step }

variable {schedule : DampingSchedule α} {start w w' : Workspace α β} {c g : Vec α} {d : Damping α}
  {s' : β}

/-- While the end of the path is not known, the step is computed without it or with it. -/
theorem stepsTo_lazyStep (first : w.CauchyLeg (Leg.ofVec c)) (unknown : w.point.gaussNewton = none)
    (path : (gaussNewtonVector schedule w.point w.damping w.backend).value = (.ok g, d, s'))
    (radius : α) :
    w.StepsTo schedule radius (lazyStep c g radius)
        { w with point := w.stepped (Leg.ofVec c) none (lazyStep c g radius) } ∨
      w.StepsTo schedule radius (lazyStep c g radius)
        { backend := s', damping := d
          point := w.stepped (Leg.ofVec c) (some (Leg.ofVec g)) (lazyStep c g radius) } := by
  by_cases hreaches : radius * radius ≤ (Leg.ofVec c).normSq
  · rw [lazyStep, if_pos hreaches]
    exact .inl (.clipped first unknown hreaches)
  · rw [lazyStep, if_neg hreaches]
    exact .inr (.factored first unknown hreaches path)

namespace Stage

/-- At every stage a step is computed at every radius, and leaves one of the stages. What it is depends
on nothing but whether the end of the path is known. -/
theorem exists_stepsTo (stage : Stage start c g d s' w) (ends : Ends schedule start c g d s')
    (radius : α) :
    ∃ step w', w.StepsTo schedule radius step w' ∧ Stage start c g d s' w' ∧
      (w.point.gaussNewton = none → step = lazyStep c g radius) ∧
      (w.point.gaussNewton ≠ none → step = blend (Leg.ofVec c) (Leg.ofVec g) radius) := by
  cases stage with
  | fresh =>
      have hunknown := ends.gaussNewton_unknown
      obtain hstep | hstep := stepsTo_lazyStep (.computed ends.cauchy_unknown ends.cauchy) hunknown
        ends.gaussNewton radius
      · exact ⟨_, _, hstep, .firstLeg _, fun _ => rfl, fun known => absurd hunknown known⟩
      · exact ⟨_, _, hstep, .path _, fun _ => rfl, fun known => absurd hunknown known⟩
  | firstLeg last =>
      have hunknown : (start.stepped (Leg.ofVec c) none last).gaussNewton = none := rfl
      obtain hstep | hstep := stepsTo_lazyStep
        (w := { start with point := start.stepped (Leg.ofVec c) none last }) (.known rfl) hunknown
        ends.gaussNewton radius
      · exact ⟨_, _, hstep, .firstLeg _, fun _ => rfl, fun known => absurd hunknown known⟩
      · exact ⟨_, _, hstep, .path _, fun _ => rfl, fun known => absurd hunknown known⟩
  | path last =>
      have hknown : (start.stepped (Leg.ofVec c) (some (Leg.ofVec g)) last).gaussNewton =
        some (Leg.ofVec g) := rfl
      refine ⟨_, _, .reused (.known rfl) hknown, .path _, ?_, fun _ => rfl⟩
      intro unknown
      rw [hknown] at unknown
      cases unknown

/-- Computing a step leaves one of the stages. -/
theorem leads (stage : Stage start c g d s' w) (ends : Ends schedule start c g d s')
    (leads : w.Leads schedule w') : Stage start c g d s' w' := by
  obtain ⟨radius, answer, hcomputed⟩ := leads
  obtain ⟨step, w'', hstep, hstage, -, -⟩ := stage.exists_stepsTo ends radius
  rw [computeStep_of_stepsTo hstep] at hcomputed
  cases hcomputed
  exact hstage

/-- So does computing any number of them. -/
theorem reaches (ends : Ends schedule start c g d s')
    (reached : Relation.ReflTransGen (Leads schedule) start w) : Stage start c g d s' w := by
  induction reached with
  | refl => exact .fresh
  | tail _ last ih => exact ih.leads ends last

end Stage

/-- A step at a radius that the first leg does not reach makes the whole path known. -/
theorem Ends.exists_known (ends : Ends schedule start c g d s') (radius : α)
    (short : ¬ radius * radius ≤ (Leg.ofVec c).normSq) :
    ∃ w, Relation.ReflTransGen (Leads schedule) start w ∧ w.point.gaussNewton ≠ none := by
  have hstep := computeStep_of_stepsTo
    (.factored (.computed ends.cauchy_unknown ends.cauchy) ends.gaussNewton_unknown short
      ends.gaussNewton)
  refine ⟨_, .single ⟨radius, _, hstep⟩, ?_⟩
  intro hnone
  cases hnone

end Workspace

end TrustRegion
