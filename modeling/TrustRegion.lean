import TrustRegion.Decimal.Binary64
import TrustRegion.Decimal.Rounding
import TrustRegion.Error
import TrustRegion.Error.Message
import TrustRegion.Evaluation
import TrustRegion.GradientCheck
import TrustRegion.GradientCheck.Text
import TrustRegion.Jacobian
import TrustRegion.Jacobian.Writer
import TrustRegion.Linear.Cholesky
import TrustRegion.Linear.CholeskySolver
import TrustRegion.Linear.Damping
import TrustRegion.Linear.Elimination
import TrustRegion.Linear.Elimination.Plan
import TrustRegion.Linear.Elimination.Work
import TrustRegion.Linear.Solver
import TrustRegion.Linear.StoredMatrix
import TrustRegion.Linear.ThresholdSolver
import TrustRegion.Linearization
import TrustRegion.Log
import TrustRegion.Log.Console
import TrustRegion.Log.FieldTest
import TrustRegion.Log.Filter
import TrustRegion.Log.Message
import TrustRegion.Log.Pattern
import TrustRegion.Log.Pattern.Reader
import TrustRegion.Matrix
import TrustRegion.Model
import TrustRegion.Model.Expression
import TrustRegion.Progress
import TrustRegion.Proofs.GradientCheck.Agreement
import TrustRegion.Proofs.GradientCheck.Comparison
import TrustRegion.Proofs.GradientCheck.Detection
import TrustRegion.Proofs.Jacobian.Assembly
import TrustRegion.Proofs.Jacobian.Layout
import TrustRegion.Proofs.Jacobian.Offers
import TrustRegion.Proofs.Jacobian.Views
import TrustRegion.Proofs.Linear.Analysis
import TrustRegion.Proofs.Linear.Answer
import TrustRegion.Proofs.Linear.Definite
import TrustRegion.Proofs.Linear.Euclid
import TrustRegion.Proofs.Linear.Exact
import TrustRegion.Proofs.Linear.Factored
import TrustRegion.Proofs.Linear.History
import TrustRegion.Proofs.Linear.Inverse
import TrustRegion.Proofs.Linear.NormalEquations
import TrustRegion.Proofs.Linear.Pattern
import TrustRegion.Proofs.Linear.Pivot
import TrustRegion.Proofs.Linear.Ready
import TrustRegion.Proofs.Linear.Recovery
import TrustRegion.Proofs.Linear.Request
import TrustRegion.Proofs.Linear.Schedule
import TrustRegion.Proofs.Linear.Transcript
import TrustRegion.Proofs.Model.Agreement
import TrustRegion.Proofs.Scalar.Bound
import TrustRegion.Proofs.Scalar.Double
import TrustRegion.Proofs.Scalar.Exact
import TrustRegion.Proofs.Scalar.Extended
import TrustRegion.Proofs.Scalar.ExtendedReal
import TrustRegion.Proofs.Scalar.Growth
import TrustRegion.Proofs.Scalar.Lawful
import TrustRegion.Proofs.Scalar.Place
import TrustRegion.Proofs.Search.Account
import TrustRegion.Proofs.Search.Affine
import TrustRegion.Proofs.Search.Afresh
import TrustRegion.Proofs.Search.Budget
import TrustRegion.Proofs.Search.Convergence
import TrustRegion.Proofs.Search.Descent
import TrustRegion.Proofs.Search.Endpoint
import TrustRegion.Proofs.Search.Failure
import TrustRegion.Proofs.Search.Finiteness
import TrustRegion.Proofs.Search.Freshness
import TrustRegion.Proofs.Search.Improvement
import TrustRegion.Proofs.Search.InRange
import TrustRegion.Proofs.Search.Level
import TrustRegion.Proofs.Search.Lockstep
import TrustRegion.Proofs.Search.Path
import TrustRegion.Proofs.Search.Problem
import TrustRegion.Proofs.Search.Query
import TrustRegion.Proofs.Search.Recovery
import TrustRegion.Proofs.Search.Region
import TrustRegion.Proofs.Search.Rejection
import TrustRegion.Proofs.Search.Reporting
import TrustRegion.Proofs.Search.Round
import TrustRegion.Proofs.Search.Run
import TrustRegion.Proofs.Search.Shape
import TrustRegion.Proofs.Search.Shortcut
import TrustRegion.Proofs.Search.Shortening
import TrustRegion.Proofs.Search.Sound
import TrustRegion.Proofs.Search.Stages
import TrustRegion.Proofs.Search.Steep
import TrustRegion.Proofs.Search.Stopping
import TrustRegion.Proofs.Search.Straight
import TrustRegion.Proofs.Search.Trace
import TrustRegion.Proofs.Step.Geometry
import TrustRegion.Proofs.Step.Outcome
import TrustRegion.Proofs.Step.Passes
import TrustRegion.Proofs.Step.Promise
import TrustRegion.Proofs.Step.Region
import TrustRegion.Scalar
import TrustRegion.Search.Attempt
import TrustRegion.Search.Run
import TrustRegion.Session
import TrustRegion.Settings
import TrustRegion.Step
import TrustRegion.Text.Alphabet
import TrustRegion.Text.Blank
import TrustRegion.Text.Bytes
import TrustRegion.Text.Hidden
import TrustRegion.Text.Layout
import TrustRegion.Text.Number
import TrustRegion.Text.Ranges
import TrustRegion.Vec
import TrustRegion.Word
