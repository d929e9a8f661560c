/-
Module: TrustRegion.Error.Message
Purpose: The wording of errors, and of an error together with its cause.
Main exports: ProblemError.message, LinearError.message, SearchError.message, SolveError.message,
  SolveError.chain, SolveError.compactChain
-/
import TrustRegion.Error
import TrustRegion.Text.Number

namespace TrustRegion

/-- The name of the factorization for a kind of storage. -/
def Storage.solverName : Storage → String
  | .sparse => "Sparse Cholesky"
  | .dense => "Dense Cholesky"

/-- What is wrong with the description of a problem, in words. -/
def InputFault.message : InputFault → String
  | .emptyState => "the state vector is empty"
  | .noMeasurements => "the problem has no measurements"
  | .noEntries => "the sparse Jacobian must allow at least one non-zero entry"
  | .tooManyEntries declared measurements states =>
      s!"{declared} Jacobian non-zeros declared for a {measurements}x{states} Jacobian"
  | .noSuchVariable index states =>
      s!"cannot check variable {index} of a problem with {states} states"
  | .described text => text

/-- Which lengths do not agree, in words. -/
def StateFault.message : StateFault → String
  | .length given expected => s!"state vector has {given} entries, expected {expected}"
  | .described text => text

/-- Which values are out of range, in words. -/
def RangeFault.message : RangeFault Float → String
  | .initial cost gradient =>
      s!"initial point has ‖x‖² = {NumberStyle.plain.write cost} and " ++
        s!"‖J^T x‖∞ = {NumberStyle.plain.write gradient}"
  | .described text => text

/-- An error in a problem, in words. -/
def ProblemError.message : ProblemError Float → String
  | .dimensionMismatch fault => s!"Dimension mismatch: {fault.message}"
  | .invalidInput fault => s!"Invalid input: {fault.message}"
  | .capacityExceeded capacity =>
      s!"Jacobian capacity exceeded: at most {capacity} non-zero entries were declared"
  | .outOfBounds measurement state measurements states =>
      s!"Jacobian entry ({measurement}, {state}) is out of bounds for {measurements} " ++
        s!"measurements and {states} states"
  | .callback text => s!"Evaluation callback failed: {text}"
  | .nonFinite fault => s!"Non-finite values produced by the evaluation callback: {fault.message}"

/-- Why a matrix is not positive definite, in words. -/
def PivotFault.message : PivotFault → String
  | .full index => "NonPositivePivot \x7b index: " ++ toString index ++ " \x7d"
  | .sparse => "Numeric(NonPositivePivot \x7b index: _ \x7d)"
  | .described text => text

/-- Which lengths of a product or a system do not agree, in words. -/
def ShapeFault.message : ShapeFault → String
  | .rows count entries => s!"J has {count} rows but x has {entries} entries"
  | .columns count entries => s!"J has {count} columns but v has {entries} entries"
  | .factored size entries =>
      s!"factorization is {size}x{size} but the right-hand side has {entries} rows"
  | .rightHandSide entries states =>
      s!"right-hand side has {entries} entries, the problem has {states} states"
  | .described text => text

/-- An error in linear algebra, in words. -/
def LinearError.message : LinearError Float → String
  | .notPositiveDefinite fault => s!"Matrix is not positive definite: {fault.message}"
  | .factorizationFailed text => s!"Matrix factorization failed: {text}"
  | .jacobianMismatch expected =>
      s!"Jacobian representation does not match the {expected.solverName} backend"
  | .dimensionMismatch fault => s!"Dimension mismatch: {fault.message}"
  | .sparseMatrixCreation text => s!"Failed to create sparse matrix: {text}"
  | .matrixConversion text => s!"Matrix conversion failed: {text}"
  | .notFactorized => "No factorization available; factorize J^T J + λI first"
  | .dampingExhausted attempts lambda =>
      s!"Regularization exhausted after {attempts} attempts " ++
        s!"(λ = {NumberStyle.scientific.write lambda})"
  | .analysisUnfit analysed states =>
      s!"no factorization of {states} states by an analysis of {analysed}"

/-- Which setting cannot be used, in words. -/
def SettingsFault.message : SettingsFault Float → String
  | .radius given =>
      "initial trust region radius must be positive and finite, got " ++
        NumberStyle.plain.write given
  | .shrinkFactor given =>
      "trust region decrease factor must be in (0, 1), got " ++ NumberStyle.plain.write given
  | .growFactor given =>
      "trust region increase factor must be greater than 1, got " ++ NumberStyle.plain.write given
  | .thresholds shrink grow =>
      s!"trust region decrease threshold ({NumberStyle.plain.write shrink}) must be below " ++
        s!"the increase threshold ({NumberStyle.plain.write grow})"
  | .tolerance => "convergence thresholds must not be NaN"
  | .initialDamping given =>
      "initial regularization must be positive and finite, got " ++ NumberStyle.plain.write given
  | .dampingFactor given =>
      "regularization increase factor must be greater than 1, got " ++
        NumberStyle.plain.write given
  | .described text => text

/-- An error of a search, in words. -/
def SearchError.message : SearchError Float → String
  | .invalidSettings fault => s!"Invalid optimization parameters: {fault.message}"
  | .numericalInstability text => s!"Numerical instability detected: {text}"
  | .linear error => s!"Linear algebra error: {error.message}"

namespace SolveError

/-- An error of a solve, in words: those of the error it consists of. -/
def message : SolveError Float → String
  | .problem error => error.message
  | .search error => error.message
  | .linear error => error.message
  | .meanTimeUndefined iterations => s!"no mean time for {iterations} attempts"

/-- The words of the errors that an error was made from, outermost first. -/
def sources : SolveError Float → List String
  | .search (.linear error) => [error.message]
  | _ => []

/-- An error and its causes, one to a line. -/
def chain (e : SolveError Float) : String :=
  "\n".intercalate (e.message :: e.sources.map fun s => "  → " ++ s)

/-- An error and its causes on one line. -/
def compactChain (e : SolveError Float) : String :=
  " → ".intercalate (e.message :: e.sources)

end SolveError

end TrustRegion
