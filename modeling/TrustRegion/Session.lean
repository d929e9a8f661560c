/-
Module: TrustRegion.Session
Purpose: What outlives a search: the best point, the linear algebra and the damping that was
  reached. The normal equations at that point can be solved without evaluating the problem again.
Main exports: Session, Session.factorize, Session.solve, Session.covariance, Session.release
-/
import TrustRegion.Step

namespace TrustRegion

/-- The state of a search, during it and after it. -/
structure Session (α β : Type) where
  workspace : Workspace α β
  settings : Settings α
  /-- The current radius of the trust region. -/
  radius : α
  states : Nat
  measurements : Nat
  /-- The number that the next point will have. -/
  nextId : Nat

namespace Session

variable {α β : Type} [Scalar α] [LinearSolver α β]

/-- The session around a first point, which has the number zero. -/
def start (backend : β) (settings : Settings α) (point : Linearization α) : Session α β :=
  { workspace := { backend, damping := Damping.none, point }
    settings
    radius := settings.radius
    states := point.state.size
    measurements := point.residuals.size
    nextId := 1 }

/-- The best point that was accepted. -/
def point (s : Session α β) : Linearization α :=
  s.workspace.point

/-- The number on the diagonal of the normal matrix. -/
def lambda (s : Session α β) : α :=
  s.workspace.damping.lambda

/-- The number of factorizations requested so far. -/
def factorizations (s : Session α β) : Nat :=
  s.workspace.damping.factorizations

/-- Make sure that the factorization at the current point is at hand; the damping may grow. -/
def factorize (s : Session α β) : Logged α (Except (LinearError α) Unit × Session α β) := do
  let w := s.workspace
  let (answer, damping, backend) ←
    factorizeDamped s.settings.damping w.point.jacobian w.point.id w.damping w.backend
  pure (answer, { s with workspace := { w with damping, backend } })

/-- Solve the normal equations at the current point. The length of the right-hand side is checked
before anything is factored. -/
def solve (rhs : Vec α) (s : Session α β) :
    Logged α (Except (LinearError α) (Vec α) × Session α β) :=
  if rhs.size ≠ s.states then do
    let fault := ShapeFault.rightHandSide rhs.size s.states
    let error ← (LinearError.dimensionMismatch fault).logged
    pure (.error error, s)
  else do
    let (answer, s) ← s.factorize
    match answer with
    | .error error => pure (.error error, s)
    | .ok () => do
        let solution ← LinearSolver.solve s.workspace.backend rhs
        pure (solution, s)

/-- The inverse of the normal matrix at the current point. -/
def covariance (s : Session α β) :
    Logged α (Except (LinearError α) (Matrix α) × Session α β) := do
  let (answer, s) ← s.factorize
  match answer with
  | .error error => pure (.error error, s)
  | .ok () =>
      let (inverse?, backend) := LinearSolver.covariance s.workspace.backend
      let s := { s with workspace := { s.workspace with backend } }
      match inverse? with
      | some inverse => pure (.ok inverse, s)
      | none => do
          let error ← LinearError.notFactorized.logged
          pure (.error error, s)

/-- Give a session up. -/
def release (s : Session α β) : Logged α Unit :=
  Logged.emit
    (.sessionReleased (LinearSolver.storage s.workspace.backend) s.states s.measurements)

end Session

end TrustRegion
