/-
Module: TrustRegion.Model.Expression
Purpose: Models written as expressions in the components of the state.
Main exports: Expression, Expression.eval, ModelText, ModelText.model
-/
import TrustRegion.Model

namespace TrustRegion

/-- A formula. A sum or a product of several terms is worked out from left to right. -/
inductive Expression where
  | constant (value : Float)
  /-- A component of the state, zero if there is none. -/
  | component (index : Nat)
  /-- How often the problem was evaluated before. -/
  | calls
  | add (a b : Expression)
  | mul (a b : Expression)
  | sub (a b : Expression)
  | div (a b : Expression)
  | neg (a : Expression)
  | abs (a : Expression)
  | sqrt (a : Expression)
  | exp (a : Expression)
  | sin (a : Expression)
  | cos (a : Expression)
  /-- The third formula if the first is less than the second, otherwise the fourth. -/
  | ifLess (a b whenLess otherwise : Expression)
deriving Repr, Inhabited

namespace Expression

/-- The value of a formula at a state. -/
def eval (calls : Nat) (state : Vec Float) : Expression → Float
  | .constant value => value
  | .component index => state.entry index
  | .calls => Scalar.ofNat calls
  | .add a b => a.eval calls state + b.eval calls state
  | .mul a b => a.eval calls state * b.eval calls state
  | .sub a b => a.eval calls state - b.eval calls state
  | .div a b => a.eval calls state / b.eval calls state
  | .neg a => -a.eval calls state
  | .abs a => (a.eval calls state).abs
  | .sqrt a => (a.eval calls state).sqrt
  | .exp a => (a.eval calls state).exp
  | .sin a => (a.eval calls state).sin
  | .cos a => (a.eval calls state).cos
  | .ifLess a b whenLess otherwise =>
      if a.eval calls state < b.eval calls state then whenLess.eval calls state
      else otherwise.eval calls state

end Expression

/-- An entry of a Jacobian as a formula. With a guard it is reported only where the guard is
positive. -/
structure EntryText where
  row : Nat
  col : Nat
  value : Expression
  guard : Option Expression
deriving Repr, Inhabited

/-- A model in formulas. -/
structure ModelText where
  residuals : List Expression
  entries : List EntryText
  /-- The call, counted from zero, that fails, and how. -/
  failure : Option (Nat × ProblemError Float)
  ignoresRefusals : Bool
deriving Inhabited

/-- The entry that a formula reports at a state, if it reports one there. -/
def EntryText.at? (calls : Nat) (state : Vec Float) (e : EntryText) :
    Option (JacobianEntry Float) :=
  let reported :=
    match e.guard with
    | none => true
    | some guard => decide (0 < guard.eval calls state)
  if reported then some { row := e.row, col := e.col, value := e.value.eval calls state }
  else none

/-- What the formulas say about a state. -/
def ModelText.values (m : ModelText) (calls : Nat) (state : Vec Float) :
    Except (ProblemError Float) (ModelValues Float) :=
  match m.failure with
  | some (call, error) => if call = calls then .error error else .ok plain
  | none => .ok plain
where
  /-- The values where nothing fails. -/
  plain : ModelValues Float :=
    { residuals := Vec.ofList (m.residuals.map (Expression.eval calls state))
      entries := m.entries.filterMap (EntryText.at? calls state) }

/-- The model that the formulas describe. -/
def ModelText.model (m : ModelText) : Model Float :=
  { values := m.values, ignoresRefusals := m.ignoresRefusals }

end TrustRegion
