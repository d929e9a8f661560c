/-
Module: TrustRegion.Error
Purpose: Everything that can go wrong, as causes. The wording is in `TrustRegion.Error.Message`.
Main exports: Storage, ProblemError, LinearError, SearchError, SolveError
-/
import TrustRegion.Scalar

namespace TrustRegion

/-- How a Jacobian is stored, and with it which factorization takes it. -/
inductive Storage where
  | sparse
  | dense
deriving DecidableEq, Repr, Inhabited

/-- What is wrong with the description of a problem. -/
inductive InputFault where
  | emptyState
  | noMeasurements
  | noEntries
  | tooManyEntries (declared measurements states : Nat)
  | noSuchVariable (index states : Nat)
  | described (text : String)
deriving DecidableEq, Repr, Inhabited

/-- Which lengths of a problem do not agree. -/
inductive StateFault where
  | length (given expected : Nat)
  | described (text : String)
deriving DecidableEq, Repr, Inhabited

/-- Which values are out of range. -/
inductive RangeFault (α : Type) where
  | initial (cost gradient : α)
  | described (text : String)
deriving DecidableEq, Repr, Inhabited

/-- An error in a problem, in its callback or in what the callback reports. -/
inductive ProblemError (α : Type) where
  | dimensionMismatch (fault : StateFault)
  | invalidInput (fault : InputFault)
  | capacityExceeded (capacity : Nat)
  | outOfBounds (measurement state measurements states : Nat)
  | callback (text : String)
  | nonFinite (fault : RangeFault α)
deriving DecidableEq, Repr, Inhabited

/-- Why a matrix is not positive definite: the first pivot of a full matrix that fails, counted from
zero, or some pivot of a sparse one, whose place depends on the order of elimination. -/
inductive PivotFault where
  | full (index : Nat)
  | sparse
  | described (text : String)
deriving DecidableEq, Repr, Inhabited

/-- Which lengths of a product or of a linear system do not agree. -/
inductive ShapeFault where
  | rows (count entries : Nat)
  | columns (count entries : Nat)
  | factored (size entries : Nat)
  | rightHandSide (entries states : Nat)
  | described (text : String)
deriving DecidableEq, Repr, Inhabited

/-- What a product, a factorization or the solution of a linear system can end with instead of a
result. -/
inductive LinearError (α : Type) where
  | notPositiveDefinite (fault : PivotFault)
  | factorizationFailed (text : String)
  | jacobianMismatch (expected : Storage)
  | dimensionMismatch (fault : ShapeFault)
  | sparseMatrixCreation (text : String)
  | matrixConversion (text : String)
  | notFactorized
  | dampingExhausted (attempts : Nat) (lambda : α)
  /-- The matrix has another number of states than the analysis that was found for it. The request
  breaks off without an answer, and so does whatever asked for it. -/
  | analysisUnfit (analysed states : Nat)
deriving DecidableEq, Repr, Inhabited

/-- Which setting of a search cannot be used. -/
inductive SettingsFault (α : Type) where
  | radius (given : α)
  | shrinkFactor (given : α)
  | growFactor (given : α)
  | thresholds (shrink grow : α)
  | tolerance
  | initialDamping (given : α)
  | dampingFactor (given : α)
  | described (text : String)
deriving DecidableEq, Repr, Inhabited

/-- An error of the search for a minimum. -/
inductive SearchError (α : Type) where
  | invalidSettings (fault : SettingsFault α)
  | numericalInstability (text : String)
  | linear (error : LinearError α)
deriving DecidableEq, Repr, Inhabited

/-- What a solve can end with instead of a result. -/
inductive SolveError (α : Type) where
  | problem (error : ProblemError α)
  | search (error : SearchError α)
  | linear (error : LinearError α)
  /-- The report asks for the mean time of an attempt, and the number of attempts is zero in the
  32 bits it is divided by. -/
  | meanTimeUndefined (iterations : Nat)
deriving DecidableEq, Repr, Inhabited

end TrustRegion
