/-
Module: TrustRegion.Log
Purpose: Log events as data, and computations that emit them. What a computation returns never
  depends on its events. The wording of events is in `TrustRegion.Log.Message`.
Main exports: Level, Report, Event, Event.level, Logged, Logged.emit
-/
import TrustRegion.Progress

namespace TrustRegion

/-- How much an event matters. -/
inductive Level where
  | error
  | warn
  | info
  | debug
  | trace
deriving DecidableEq, Repr, Inhabited

namespace Level

/-- The place of a level among the levels, the most important first. -/
def rank : Level → Nat
  | .error => 1
  | .warn => 2
  | .info => 3
  | .debug => 4
  | .trace => 5

/-- Whether a listener at level `limit` hears events of level `l`. -/
def isHeardAt (l limit : Level) : Bool :=
  l.rank ≤ limit.rank

end Level

/-- A part of the report of a search. -/
inductive Report (α : Type) where
  | settings (settings : Settings α)
  | header
  | attempt (attempt : Attempt α)
  | summary (summary : Summary α)
deriving Repr, Inhabited

/-- Something worth telling a listener. -/
inductive Event (α : Type) where
  /-- An error, with the words of an error of another library behind it if there is one. -/
  | failure (error : SolveError α) (source : Option String)
  /-- A factorization failed at `lambda` and is tried again at `next`. -/
  | dampingRaised (lambda : α) (fault : PivotFault) (next : α) (attempt limit : Nat)
  | factorizationFailed (storage : Storage) (lambda : α) (fault : PivotFault)
  | patternAnalysed (nonZeros : Nat)
  /-- The first leg alone reaches the boundary. -/
  | cauchyBeyondRadius (length radius : α)
  /-- An accepted step, with the new radius if it has grown. -/
  | stepAccepted (quality : α) (grown : Option α)
  | stepRejected (quality cost radius : α)
  | alreadyConverged
  | sessionReleased (storage : Storage) (states measurements : Nat)
  | gradientChecked (index measurements : Nat)
  | report (verbose : Bool) (part : Report α)
  /-- A listener was to be installed while another one was. -/
  | listenerKept
deriving Repr, Inhabited

/-- The level of an event. A report is for information if it was asked for, and for debugging
otherwise. -/
def Event.level {α : Type} : Event α → Level
  | .failure .. => .error
  | .dampingRaised .. => .warn
  | .report verbose _ => if verbose then .info else .debug
  | _ => .debug

/-- A value together with the events emitted on the way to it, in order. -/
structure Logged (α β : Type) where
  events : List (Event α)
  value : β

namespace Logged

variable {α β γ : Type}

/-- A value reached without an event. -/
def quiet (x : β) : Logged α β :=
  ⟨[], x⟩

/-- One computation after another; their events follow each other. -/
def andThen (x : Logged α β) (f : β → Logged α γ) : Logged α γ :=
  let y := f x.value
  ⟨x.events ++ y.events, y.value⟩

instance : Monad (Logged α) where
  pure := quiet
  bind := andThen

/-- Emit one event. -/
def emit (e : Event α) : Logged α Unit :=
  ⟨[e], ()⟩

/-- Emit an event if a condition holds. -/
def emitIf (condition : Bool) (e : Event α) : Logged α Unit :=
  if condition then emit e else quiet ()

@[simp] theorem value_pure (x : β) : (pure x : Logged α β).value = x := rfl

@[simp] theorem value_quiet (x : β) : (quiet x : Logged α β).value = x := rfl

@[simp] theorem value_bind (x : Logged α β) (f : β → Logged α γ) :
    (x >>= f).value = (f x.value).value := rfl

@[simp] theorem events_pure (x : β) : (pure x : Logged α β).events = [] := rfl

@[simp] theorem events_bind (x : Logged α β) (f : β → Logged α γ) :
    (x >>= f).events = x.events ++ (f x.value).events := rfl

@[simp] theorem value_emit (e : Event α) : (emit e).value = () := rfl

@[simp] theorem events_emit (e : Event α) : (emit e).events = [e] := rfl

instance : LawfulMonad (Logged α) :=
  LawfulMonad.mk' _
    (fun x => by
      cases x
      simp [Functor.map, andThen, quiet])
    (fun x f => by
      cases h : f x
      simp [bind, pure, andThen, quiet, h])
    (fun x f g => by
      simp [bind, andThen])

/-- What follows a computation only matters for the value that it comes to. -/
theorem bind_congr_value {x : Logged α β} {f g : β → Logged α γ} (h : f x.value = g x.value) :
    x >>= f = x >>= g := by
  show andThen x f = andThen x g
  unfold andThen
  rw [h]

end Logged

/-- Emit an error of a problem and hand it on. -/
def ProblemError.logged {α : Type} (e : ProblemError α) : Logged α (ProblemError α) := do
  Logged.emit (.failure (.problem e) none)
  pure e

/-- Emit an error of linear algebra and hand it on. -/
def LinearError.logged {α : Type} (e : LinearError α) : Logged α (LinearError α) := do
  Logged.emit (.failure (.linear e) none)
  pure e

/-- Emit an error of a search and hand it on. -/
def SearchError.logged {α : Type} (e : SearchError α) : Logged α (SearchError α) := do
  Logged.emit (.failure (.search e) none)
  pure e

end TrustRegion
