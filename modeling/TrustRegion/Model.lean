/-
Module: TrustRegion.Model
Purpose: A problem as data: for each state and each number of earlier calls, residuals and entries
  of the Jacobian, or a failure. The same model serves as a callback of either kind.
Main exports: Model, Model.sparseCallback, Model.denseCallback
-/
import TrustRegion.Evaluation

namespace TrustRegion

/-- What a model says about one state. -/
structure ModelValues (α : Type) where
  /-- The residuals; those that are missing are zero and those beyond the last measurement are
  dropped. -/
  residuals : Vec α
  /-- The entries of the Jacobian in the order in which they are reported. -/
  entries : List (JacobianEntry α)

/-- A problem: what it says about a state when it was asked a number of times before. -/
structure Model (α : Type) where
  values : (calls : Nat) → (state : Vec α) → Except (ProblemError α) (ModelValues α)
  /-- Whether the model goes on when an entry is refused. -/
  ignoresRefusals : Bool

namespace Model

variable {α : Type}

/-- Offer entries to a writer in order. The first refusal is the result unless refusals are
ignored. -/
def offer (ignoresRefusals : Bool) (residuals : Vec α) :
    List (JacobianEntry α) → Writing α (Except (ProblemError α) (Vec α))
  | [] => .done (.ok residuals)
  | entry :: entries =>
      .add entry fun answer =>
        match answer with
        | .ok () => offer ignoresRefusals residuals entries
        | .error error =>
            if ignoresRefusals then offer ignoresRefusals residuals entries
            else .done (.error error)

/-- The model as a callback that reports its Jacobian entry by entry. -/
def sparseCallback (m : Model α) : SparseCallback α :=
  fun calls state _ =>
    match m.values calls state with
    | .error error => .done (.error error)
    | .ok values => offer m.ignoresRefusals values.residuals values.entries

/-- The place of an entry in a buffer that holds a matrix by rows, if it has one. -/
def place? (states size : Nat) (entry : JacobianEntry α) : Option Nat :=
  let place := entry.row * states + entry.col
  if entry.col < states ∧ place < size then some place else none

/-- Add entries to a buffer that holds a matrix by rows. An entry without a place in the buffer is
an error, which ends the work unless refusals are ignored. -/
def accumulate [Scalar α] (ignoresRefusals : Bool) (states : Nat) :
    List (JacobianEntry α) → Vec α → Except (ProblemError α) Unit × Vec α
  | [], buffer => (.ok (), buffer)
  | entry :: entries, buffer =>
      match place? states buffer.size entry with
      | some place =>
          accumulate ignoresRefusals states entries
            (buffer.modify place fun old => old + entry.value)
      | none =>
          if ignoresRefusals then accumulate ignoresRefusals states entries buffer
          else (.error (.callback s!"no entry ({entry.row}, {entry.col})"), buffer)

/-- The model as a callback that reports its Jacobian in a buffer. -/
def denseCallback [Scalar α] (m : Model α) : DenseCallback α :=
  fun calls state _ buffer =>
    match m.values calls state with
    | .error error => (.error error, buffer)
    | .ok values =>
        match accumulate m.ignoresRefusals state.size values.entries buffer with
        | (.ok (), buffer) => (.ok values.residuals, buffer)
        | (.error error, buffer) => (.error error, buffer)

end Model

end TrustRegion
