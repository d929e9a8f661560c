/-
Module: TrustRegion.Step
Purpose: The step from a point. The dog-leg path runs from the point to the lowest point of the
  linear model along the negative gradient, and on to the lowest point of the whole model; the step
  leads to where the path leaves the trust region, or to its end. The end is computed only when the
  first leg alone does not reach the boundary.
Main exports: Step, Workspace, cauchyVector, gaussNewtonVector, blend, computeStep,
  predictedImprovement
-/
import TrustRegion.Linearization
import TrustRegion.Linear.Damping

namespace TrustRegion

open Scalar

/-- A proposed change of the state. -/
structure Step (α : Type) where
  update : Vec α
  kind : StepKind
  /-- Whether it ends on the boundary of the trust region. -/
  toEdge : Bool
deriving Repr, Inhabited

namespace Step

variable {α : Type} [Scalar α]

/-- The length of a step. -/
def norm (s : Step α) : α :=
  s.update.norm

/-- A leg brought to the length of the radius. -/
def clipped (leg : Leg α) (radius : α) : Step α :=
  let scale := radius / sqrt leg.normSq
  { update := Vec.ofFn leg.vector.size fun i => leg.vector.entry i * scale
    kind := .steepestDescent
    toEdge := true }

end Step

section Legs

variable {α β : Type} [Scalar α] [LinearSolver α β]

/-- The end of the first leg: the negative gradient times the ratio of the squared lengths of the
gradient and of its image under the Jacobian, or nothing where one of them vanishes. -/
def cauchyVector (backend : β) (point : Linearization α) :
    Logged α (Except (LinearError α) (Vec α)) := do
  let gradient := point.gradient
  let gradientSq := gradient.normSq
  if gradientSq == 0 then pure (.ok (Vec.zeros gradient.size))
  else
    match ← LinearSolver.jacobianMul backend point.jacobian gradient with
    | .error error => pure (.error error)
    | .ok image =>
        let imageSq := image.normSq
        if imageSq == 0 then pure (.ok (Vec.zeros gradient.size))
        else
          let k := gradientSq / imageSq
          pure (.ok (Vec.ofFn gradient.size fun i => -k * gradient.entry i))

/-- The end of the path: the solution of the damped normal equations for the negative gradient. -/
def gaussNewtonVector (schedule : DampingSchedule α) (point : Linearization α)
    (damping : Damping α) (backend : β) :
    Logged α (Except (LinearError α) (Vec α) × Damping α × β) := do
  let (answer, damping, backend) ←
    factorizeDamped schedule point.jacobian point.id damping backend
  match answer with
  | .error error => pure (.error error, damping, backend)
  | .ok () => do
      let solution ← LinearSolver.solve backend point.gradient.neg
      pure (solution, damping, backend)

/-- The improvement of the cost that the linear model promises for an update. -/
def predictedImprovement (backend : β) (point : Linearization α) (update : Vec α) :
    Logged α (Except (LinearError α) α) := do
  match ← LinearSolver.jacobianMul backend point.jacobian update with
  | .error error => pure (.error error)
  | .ok image => pure (.ok (-2.0 * point.gradient.dot update - image.normSq))

end Legs

section Blend

variable {α : Type} [Scalar α]

/-- How much of the second leg lies inside the trust region, from none to all of it. With `v` the
second leg and `c` the end of the first, it is the root of `‖v‖² β² + 2 (c · v) β + ‖c‖² - r²`, in
the form that does not cancel. A leg too short to tell counts as a whole. -/
def legFraction (cauchy : Leg α) (v : Vec α) (radiusSq : α) : α :=
  let a := v.normSq
  let b := cauchy.vector.dot v
  let c := cauchy.normSq - radiusSq
  let discriminant := b * b - a * c
  let fraction :=
    if discriminant < 0 ∨ abs a < 1e-15 then 1
    else
      let d := sqrt discriminant
      if b ≤ 0 then (-b + d) / a else -c / (b + d)
  clamp 0 1 fraction

/-- The step along a path whose legs are both known: to its end if that lies within the radius,
along the first leg alone if that reaches the radius, and otherwise to where the second leg does. -/
def blend (cauchy gaussNewton : Leg α) (radius : α) : Step α :=
  let radiusSq := radius * radius
  if gaussNewton.normSq ≤ radiusSq then
    { update := gaussNewton.vector, kind := .gaussNewton, toEdge := false }
  else if radiusSq ≤ cauchy.normSq then Step.clipped cauchy radius
  else
    let v := gaussNewton.vector.sub cauchy.vector
    let fraction := legFraction cauchy v radiusSq
    { update := Vec.ofFn cauchy.vector.size fun i => cauchy.vector.entry i + fraction * v.entry i
      kind := .dogLeg
      toEdge := true }

end Blend

/-- What computing a step reads and changes. -/
structure Workspace (α β : Type) where
  backend : β
  damping : Damping α
  point : Linearization α

namespace Workspace

variable {α β : Type} [Scalar α] [LinearSolver α β]

/-- The end of the first leg, computed if it is not yet known. -/
def ensureCauchy (w : Workspace α β) :
    Logged α (Except (LinearError α) (Leg α) × Workspace α β) :=
  match w.point.cauchy with
  | some leg => pure (.ok leg, w)
  | none => do
      match ← cauchyVector w.backend w.point with
      | .error error => pure (.error error, w)
      | .ok v =>
          let leg := Leg.ofVec v
          pure (.ok leg, { w with point := { w.point with cauchy := some leg } })

/-- The end of the path, computed if it is not yet known. -/
def ensureGaussNewton (schedule : DampingSchedule α) (w : Workspace α β) :
    Logged α (Except (LinearError α) (Leg α) × Workspace α β) :=
  match w.point.gaussNewton with
  | some leg => pure (.ok leg, w)
  | none => do
      let (answer, damping, backend) ←
        gaussNewtonVector schedule w.point w.damping w.backend
      let w := { w with damping, backend }
      match answer with
      | .error error => pure (.error error, w)
      | .ok v =>
          let leg := Leg.ofVec v
          pure (.ok leg, { w with point := { w.point with gaussNewton := some leg } })

/-- Note on the point whether the step reaches the boundary, and hand the step on. -/
def record (w : Workspace α β) (step : Step α) :
    Except (LinearError α) (Step α) × Workspace α β :=
  (.ok step, { w with point := { w.point with reachedEdge := step.toEdge } })

/-- The step from the point at a radius. If the end of the path is not known and the first leg
reaches the boundary, the first leg is the step and nothing is factored. -/
def computeStep (schedule : DampingSchedule α) (radius : α) (w : Workspace α β) :
    Logged α (Except (LinearError α) (Step α) × Workspace α β) := do
  let (answer, w) ← w.ensureCauchy
  match answer with
  | .error error => pure (.error error, w)
  | .ok cauchy =>
      if w.point.gaussNewton.isNone ∧ radius * radius ≤ cauchy.normSq then do
        Logged.emit (.cauchyBeyondRadius (sqrt cauchy.normSq) radius)
        pure (w.record (Step.clipped cauchy radius))
      else do
        let (answer, w) ← w.ensureGaussNewton schedule
        match answer with
        | .error error => pure (.error error, w)
        | .ok gaussNewton => pure (w.record (blend cauchy gaussNewton radius))

end Workspace

end TrustRegion
