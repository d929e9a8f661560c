/-
Module: TrustRegion.Jacobian.Writer
Purpose: The place where a callback leaves the entries of a sparse Jacobian. It takes entries that
  lie in the grid until its capacity is used up, and refuses all others without a trace.
Main exports: JacobianWriter, JacobianWriter.add, Writing, Writing.run
-/
import TrustRegion.Jacobian

namespace TrustRegion

/-- The entries taken so far, and how many of them there may be. -/
structure JacobianWriter (α : Type) where
  measurements : Nat
  states : Nat
  capacity : Nat
  entries : Array (JacobianEntry α)
deriving Repr, Inhabited

namespace JacobianWriter

variable {α : Type}

/-- A writer that has taken nothing yet. -/
def new (measurements states capacity : Nat) : JacobianWriter α :=
  { measurements, states, capacity, entries := #[] }

/-- The number of entries taken. -/
def size (w : JacobianWriter α) : Nat :=
  w.entries.size

/-- A writer of the same grid and capacity that has taken nothing. -/
def clear (w : JacobianWriter α) : JacobianWriter α :=
  { w with entries := #[] }

/-- Why an entry is refused, if it is. A place outside the grid counts before a lack of room. -/
def refusal? (w : JacobianWriter α) (e : JacobianEntry α) : Option (ProblemError α) :=
  if !e.inBounds w.measurements w.states then
    some (.outOfBounds e.row e.col w.measurements w.states)
  else if w.capacity ≤ w.size then some (.capacityExceeded w.capacity)
  else none

/-- Take an entry, or refuse it and stay as before. -/
def add (w : JacobianWriter α) (e : JacobianEntry α) :
    Logged α (Except (ProblemError α) Unit × JacobianWriter α) :=
  match w.refusal? e with
  | some error => do
      let error ← error.logged
      pure (.error error, w)
  | none => pure (.ok (), { w with entries := w.entries.push e })

end JacobianWriter

/-- What a callback does with a writer: it offers entries one by one, learns whether each was taken,
and ends with a result. It keeps the writer that it was handed. The program lends the writer out to be
changed, so a callback could put a new one in its place, with other sizes; that is left out here. -/
inductive Writing (α β : Type) where
  | done (result : β)
  | add (entry : JacobianEntry α) (next : Except (ProblemError α) Unit → Writing α β)

/-- Let a callback do its writing. -/
def Writing.run {α β : Type} : Writing α β → JacobianWriter α → Logged α (β × JacobianWriter α)
  | .done result, w => pure (result, w)
  | .add entry next, w => do
      let (answer, w) ← w.add entry
      (next answer).run w

end TrustRegion
