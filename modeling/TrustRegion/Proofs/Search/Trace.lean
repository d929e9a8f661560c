/-
Module: TrustRegion.Proofs.Search.Trace
Purpose: A run together with everything its rounds did. Each round is kept with the search it began
  from, so the step, the decision and the record of every attempt can be read off the list of them,
  and the points of a run are its first point and the candidates of the rounds in order.
Main exports: Problem.Trace, Problem.Run.trace, Problem.Trace.run, Problem.Trace.history_eq
-/
import TrustRegion.Proofs.Search.Run

namespace TrustRegion

namespace Problem

variable {α : Type} [Scalar α]

/-- The searches from a first state, with the first point, with every round so far in order and with
what the last one decided. -/
inductive Trace (p : Problem α) (settings : Settings α) (clock : Clock) (state : Vec α) :
    Linearization α → List (Search.Lap α (CholeskySolver α)) → Option StopReason →
      Search α (CholeskySolver α) → Prop where
  | opening {e e' : Evaluator α} {evaluation : Evaluation α} {first : Linearization α}
      (valid : settings.fault? = none) (built : (p.evaluator state.size).value = .ok e)
      (asked : (e.evaluate state).value = (.ok evaluation, e'))
      (made : (firstPoint p.backend state evaluation).value = .ok first) :
      Trace p settings clock state first [] (settings.converged? first none settings.radius)
        (Search.start (Session.start p.backend settings first) e')
  | round {first : Linearization α} {laps : List (Search.Lap α (CholeskySolver α))}
      {s s' : Search α (CholeskySolver α)} {r : Search.Round α (CholeskySolver α)}
      {reason : Option StopReason} (before : Trace p settings clock state first laps none s)
      (room : s.iterations < settings.maxIterations) (attempted : s.Attempts clock r reason s') :
      Trace p settings clock state first (laps ++ [⟨s, r⟩]) reason s'

variable {p : Problem α} {settings : Settings α} {clock : Clock} {state : Vec α}
  {points : List (Linearization α)} {first : Linearization α}
  {laps : List (Search.Lap α (CholeskySolver α))} {reason : Option StopReason}
  {s : Search α (CholeskySolver α)}

/-- Every run has a trace, and the points of the run are those of the trace. -/
theorem Run.trace (h : p.Run settings clock state points reason s) :
    ∃ first laps, p.Trace settings clock state first laps reason s ∧
      points = first :: laps.map fun l => l.round.candidate := by
  induction h with
  | @opening e e' evaluation point valid built asked made =>
      exact ⟨point, [], .opening valid built asked made, rfl⟩
  | @round points s s' r reason before room attempted ih =>
      obtain ⟨first, laps, htrace, rfl⟩ := ih
      refine ⟨first, laps ++ [⟨s, r⟩], htrace.round room attempted, ?_⟩
      rw [List.map_append, List.cons_append]
      rfl

namespace Trace

/-- A trace is one of a run. -/
theorem run (h : p.Trace settings clock state first laps reason s) :
    p.Run settings clock state (first :: laps.map fun l => l.round.candidate) reason s := by
  induction h with
  | opening valid built asked made => exact .opening valid built asked made
  | @round first laps s s' r reason before room attempted ih =>
      rw [List.map_append, ← List.cons_append]
      exact ih.round room attempted

/-- The history consists of the records of the rounds. -/
theorem history_eq (h : p.Trace settings clock state first laps reason s) :
    s.history.reverse = laps.map (Search.Lap.record clock) := by
  induction h with
  | opening _ _ _ _ => rfl
  | round _ _ attempted ih =>
      rw [attempted.lap.2, Search.Lap.left, List.reverse_cons, ih, List.map_append]
      rfl

theorem length_eq (h : p.Trace settings clock state first laps reason s) :
    laps.length = s.iterations := by
  have hlength := congrArg List.length h.history_eq
  rw [List.length_reverse, List.length_map, h.run.length_history] at hlength
  exact hlength.symm

end Trace

end Problem

end TrustRegion
