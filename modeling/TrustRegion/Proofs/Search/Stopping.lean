/-
Module: TrustRegion.Proofs.Search.Stopping
Purpose: Why and when a search stops. After each attempt, and before the first, the search is at a
  stage; a criterion applies to some stages and not to others. The search goes on exactly as long as
  no criterion that applies is met, and the reason it gives is the first that is met, in a fixed
  order.
Main exports: Stage, Settings.Meets, Settings.verdictAt, Settings.Explains, Problem.Trace.stages,
  Problem.solve_stops_at_first_criterion
-/
import TrustRegion.Proofs.Scalar.Bound
import TrustRegion.Proofs.Search.Trace

namespace TrustRegion

open Scalar

/-- What the criteria for the end of a search look at. -/
inductive Stage (α : Type) where
  /-- The first point, before any attempt. -/
  | opening (point : Linearization α) (radius : α)
  /-- A point that was accepted in the last attempt, with the update that led to it. -/
  | accepted (point : Linearization α) (update : Vec α) (radius : α)
  /-- A point that was kept because the step of the last attempt was rejected. -/
  | rejected (point : Linearization α) (radius : α)

namespace Stage

variable {α : Type}

/-- The point that is held. -/
def point : Stage α → Linearization α
  | .opening point _ | .accepted point _ _ | .rejected point _ => point

/-- The radius of the trust region. -/
def radius : Stage α → α
  | .opening _ radius | .accepted _ _ radius | .rejected _ radius => radius

end Stage

/-- The magnitude of every entry is below a bound, which is positive. -/
def Vec.Below {α : Type} [Scalar α] (bound : α) (v : Vec α) : Prop :=
  0 < bound ∧ ∀ i, i < v.size → abs (v.entry i) < bound

theorem Vec.below_iff {α : Type} [Scalar α] [OrderedScalar α] {bound : α} {v : Vec α} :
    v.Below bound ↔ 0 < bound ∧ v.maxAbs < bound :=
  and_congr_right fun positive => (v.maxAbs_lt_iff positive).symm

namespace Settings

variable {α : Type} [Scalar α]

/-- A criterion applies to a stage and is met there. The gradient counts at a point that was not
judged before, the update only right after it was accepted, the radius always. -/
def Meets (s : Settings α) : StopReason → Stage α → Prop
  | .gradientTolerance, .opening point _ => point.gradient.Below s.gradientTolerance
  | .gradientTolerance, .accepted point _ _ => point.gradient.Below s.gradientTolerance
  | .gradientTolerance, .rejected _ _ => False
  | .updateTolerance, .accepted _ update _ => update.Below s.updateTolerance
  | .updateTolerance, _ => False
  | .radiusTooSmall, stage => 0 < s.radiusTolerance ∧ stage.radius < s.radiusTolerance
  | .iterationLimit, _ => False

/-- What a search decides at a stage. -/
def verdictAt (s : Settings α) : Stage α → Option StopReason
  | .opening point radius => s.converged? point none radius
  | .accepted point update radius => s.converged? point (some update.maxAbs) radius
  | .rejected _ radius => s.radiusConverged radius

/-- What a reason to stop says about the stage where it is given: its criterion is met there and none
that is looked at before it. The limit on attempts says that no criterion is met. -/
def Explains (s : Settings α) : StopReason → Stage α → Prop
  | .gradientTolerance, stage => s.Meets .gradientTolerance stage
  | .updateTolerance, stage =>
      s.Meets .updateTolerance stage ∧ ¬ s.Meets .gradientTolerance stage
  | .radiusTooSmall, stage =>
      s.Meets .radiusTooSmall stage ∧ ¬ s.Meets .gradientTolerance stage ∧
        ¬ s.Meets .updateTolerance stage
  | .iterationLimit, stage => ∀ criterion, ¬ s.Meets criterion stage

/-- Nothing is met if the three criteria are not. -/
theorem not_meets_of {s : Settings α} {stage : Stage α}
    (gradient : ¬ s.Meets .gradientTolerance stage) (update : ¬ s.Meets .updateTolerance stage)
    (radius : ¬ s.Meets .radiusTooSmall stage) (criterion : StopReason) :
    ¬ s.Meets criterion stage := by
  cases criterion with
  | gradientTolerance => exact gradient
  | updateTolerance => exact update
  | radiusTooSmall => exact radius
  | iterationLimit => exact id

/-- The radius is the last criterion to be looked at. -/
theorem explains_radiusConverged {s : Settings α} {stage : Stage α}
    (gradient : ¬ s.Meets .gradientTolerance stage) (update : ¬ s.Meets .updateTolerance stage) :
    s.radiusConverged stage.radius ≠ some .iterationLimit ∧
      s.Explains ((s.radiusConverged stage.radius).getD .iterationLimit) stage := by
  unfold radiusConverged
  split
  · rename_i hradius
    exact ⟨by simp, hradius, gradient, update⟩
  · rename_i hradius
    exact ⟨by simp, not_meets_of gradient update hradius⟩

/-- The gradient is looked at first, then the update if there is one, and then the radius. -/
theorem explains_converged? {s : Settings α} {stage : Stage α} {point : Linearization α}
    {update : Option α}
    (gradient : s.Meets .gradientTolerance stage ↔
      0 < s.gradientTolerance ∧ point.gradientMaxAbs < s.gradientTolerance)
    (updated : s.Meets .updateTolerance stage ↔
      ∃ size, update = some size ∧ 0 < s.updateTolerance ∧ size < s.updateTolerance) :
    s.converged? point update stage.radius ≠ some .iterationLimit ∧
      s.Explains ((s.converged? point update stage.radius).getD .iterationLimit) stage := by
  unfold converged?
  split
  · rename_i hgradient
    exact ⟨by simp, gradient.mpr hgradient⟩
  · rename_i hgradient
    have hnot : ¬ s.Meets .gradientTolerance stage := fun hmet => hgradient (gradient.mp hmet)
    cases update with
    | none =>
        apply explains_radiusConverged hnot
        intro hmet
        obtain ⟨size, hsize, -⟩ := updated.mp hmet
        cases hsize
    | some size =>
        dsimp only
        split
        · rename_i hupdate
          exact ⟨by simp, updated.mpr ⟨size, rfl, hupdate⟩, hnot⟩
        · rename_i hupdate
          apply explains_radiusConverged hnot
          intro hmet
          obtain ⟨size', hsize, hbelow⟩ := updated.mp hmet
          cases hsize
          exact hupdate hbelow

variable [OrderedScalar α]

/-- A decision gives the reason that explains it, and no reason if no criterion is met. -/
theorem explains_verdictAt (s : Settings α) (stage : Stage α) :
    s.verdictAt stage ≠ some .iterationLimit ∧
      s.Explains ((s.verdictAt stage).getD .iterationLimit) stage := by
  cases stage with
  | opening point radius =>
      have hgradient : s.Meets .gradientTolerance (.opening point radius) ↔
          0 < s.gradientTolerance ∧ point.gradientMaxAbs < s.gradientTolerance :=
        Vec.below_iff
      have hupdated : s.Meets .updateTolerance (.opening point radius) ↔
          ∃ size, none = some size ∧ 0 < s.updateTolerance ∧ size < s.updateTolerance :=
        iff_of_false id fun ⟨_, hsize, _⟩ => nomatch hsize
      exact explains_converged? hgradient hupdated
  | accepted point update radius =>
      have hgradient : s.Meets .gradientTolerance (.accepted point update radius) ↔
          0 < s.gradientTolerance ∧ point.gradientMaxAbs < s.gradientTolerance :=
        Vec.below_iff
      have hupdated : s.Meets .updateTolerance (.accepted point update radius) ↔
          ∃ size, some update.maxAbs = some size ∧ 0 < s.updateTolerance ∧
            size < s.updateTolerance := by
        simp only [Option.some.injEq, exists_eq_left']
        exact Vec.below_iff
      exact explains_converged? hgradient hupdated
  | rejected point radius =>
      have hgradient : ¬ s.Meets .gradientTolerance (.rejected point radius) := id
      have hupdated : ¬ s.Meets .updateTolerance (.rejected point radius) := id
      exact explains_radiusConverged hgradient hupdated

/-- A search goes on exactly where no criterion is met. -/
theorem verdictAt_eq_none_iff {s : Settings α} {stage : Stage α} :
    s.verdictAt stage = none ↔ ∀ criterion, ¬ s.Meets criterion stage := by
  obtain ⟨hlimit, hexplains⟩ := s.explains_verdictAt stage
  constructor
  · intro hnone
    rw [hnone] at hexplains
    exact hexplains
  · intro hnot
    cases hverdict : s.verdictAt stage with
    | none => rfl
    | some reason =>
        rw [hverdict] at hlimit hexplains
        cases reason with
        | gradientTolerance => exact absurd hexplains (hnot _)
        | updateTolerance => exact absurd hexplains.1 (hnot _)
        | radiusTooSmall => exact absurd hexplains.1 (hnot _)
        | iterationLimit => exact absurd rfl hlimit

end Settings

namespace Search.Lap

variable {α β : Type} [Scalar α]

/-- The stage after a round. -/
def stage (l : Lap α β) : Stage α :=
  if l.accepted then .accepted l.round.candidate l.round.step.update l.radius
  else .rejected l.round.workspace.point l.radius

/-- What a round decides is decided about its stage. -/
theorem verdictAt_stage (l : Lap α β) :
    l.before.session.settings.verdictAt l.stage = l.verdict := by
  unfold stage verdict
  split <;> rfl

theorem point_stage (l : Lap α β) :
    l.stage.point = l.round.endpoint l.before.session.settings := by
  unfold stage Round.endpoint accepted
  split <;> rfl

theorem radius_stage (l : Lap α β) : l.stage.radius = l.radius := by
  unfold stage
  split <;> rfl

end Search.Lap

namespace Problem

variable {α : Type} [Scalar α] {p : Problem α} {settings : Settings α} {clock : Clock}
  {state : Vec α} {first : Linearization α} {laps : List (Search.Lap α (CholeskySolver α))}
  {reason : Option StopReason} {s : Search α (CholeskySolver α)}

/-- The stages of a trace end where the search is, with what was decided last, and nothing was
decided at any stage before. -/
theorem Trace.stages (h : p.Trace settings clock state first laps reason s) :
    ∃ earlier last,
      Stage.opening first settings.radius :: laps.map Search.Lap.stage = earlier ++ [last] ∧
      last.point = s.session.point ∧ last.radius = s.session.radius ∧
      settings.verdictAt last = reason ∧ ∀ stage ∈ earlier, settings.verdictAt stage = none := by
  induction h with
  | @opening e e' evaluation first valid built asked made =>
      exact ⟨[], .opening first settings.radius, rfl, rfl, rfl, rfl, fun stage hmem => by cases hmem⟩
  | @round first laps s s' r reason before room attempted ih =>
      obtain ⟨earlier, last, hstages, -, -, hverdict, hearlier⟩ := ih
      have hafter := attempted.after
      refine ⟨earlier ++ [last], Search.Lap.stage ⟨s, r⟩, ?_, ?_, ?_, ?_, ?_⟩
      · rw [List.map_append, ← List.cons_append, hstages]
        rfl
      · rw [Search.Lap.point_stage, hafter.point]
      · rw [Search.Lap.radius_stage, hafter.radius]
        rfl
      · have hlap := Search.Lap.verdictAt_stage ⟨s, r⟩
        rw [before.run.settings_eq] at hlap
        rw [hlap, attempted.lap.1]
      · intro stage hmem
        rcases List.mem_append.mp hmem with hold | hnew
        · exact hearlier stage hold
        · cases List.mem_singleton.mp hnew
          exact hverdict

/-- The last attempt was accepted exactly if the last stage is that of an accepted point. -/
theorem accepted_iff_stage {earlier : List (Stage α)} {last : Stage α} {a : Attempt α}
    (stages : Stage.opening first settings.radius :: laps.map Search.Lap.stage = earlier ++ [last])
    (attempt : (laps.map (Search.Lap.record clock)).getLast? = some a) :
    a.accepted = true ↔ ∃ point update radius, last = .accepted point update radius := by
  rcases List.eq_nil_or_concat laps with rfl | ⟨init, l, rfl⟩
  · cases attempt
  · rw [List.concat_eq_append, List.map_append, List.map_singleton, List.getLast?_concat] at attempt
    rw [List.concat_eq_append, List.map_append, List.map_singleton, ← List.cons_append] at stages
    obtain ⟨-, hlast⟩ := List.append_inj' stages rfl
    cases attempt
    cases hlast
    show l.accepted = true ↔ _
    unfold Search.Lap.stage
    cases l.accepted with
    | true => exact iff_of_true rfl ⟨_, _, _, if_pos rfl⟩
    | false =>
        refine iff_of_false Bool.false_ne_true ?_
        rintro ⟨point, update, radius, heq⟩
        cases heq

/-- If a search ends with a result, there is a stage for its first point and one for each attempt of
its history, and the last of them has the point and the radius of the result. The reason of the
result is met at the last stage and no criterion that is looked at before it is; with the limit on
attempts for a reason, they are used up and no criterion is met. At no earlier stage was any criterion
met that applies to it. -/
theorem solve_stops_at_first_criterion [OrderedScalar α] (debugHeard : Bool) {outcome : Outcome α}
    {session : Session α (CholeskySolver α)}
    (h : (p.solve settings clock debugHeard state).value.answer = .ok (outcome, session)) :
    ∃ first laps reason s earlier last,
      p.Trace settings clock state first laps reason s ∧ session = s.session ∧
      outcome.history = laps.map (Search.Lap.record clock) ∧ outcome.iterations = laps.length ∧
      Stage.opening first settings.radius :: laps.map Search.Lap.stage = earlier ++ [last] ∧
      last.point = session.point ∧ outcome.state = session.point.state ∧
      last.radius = outcome.radius ∧
      (∀ a, outcome.history.getLast? = some a →
        (a.accepted = true ↔ ∃ point update radius, last = .accepted point update radius)) ∧
      settings.Explains outcome.reason last ∧
      (outcome.reason = .iterationLimit → outcome.iterations = settings.maxIterations) ∧
      ∀ stage ∈ earlier, ∀ criterion, ¬ settings.Meets criterion stage := by
  obtain ⟨points, reason, s, hrun, rfl, rfl, -, -, hlimit⟩ := ended_run_of_solve h
  obtain ⟨first, laps, htrace, -⟩ := hrun.trace
  obtain ⟨earlier, last, hstages, hpoint, hradius, hverdict, hearlier⟩ := htrace.stages
  obtain ⟨hnotLimit, hexplains⟩ := settings.explains_verdictAt last
  rw [hverdict] at hnotLimit hexplains
  refine ⟨first, laps, reason, s, earlier, last, htrace, rfl, htrace.history_eq,
    htrace.length_eq.symm, hstages, hpoint, rfl, hradius, ?_, hexplains, ?_, ?_⟩
  · intro a ha
    have hhistory : (s.outcome clock (reason.getD .iterationLimit)).history =
        laps.map (Search.Lap.record clock) := htrace.history_eq
    rw [hhistory] at ha
    exact accepted_iff_stage hstages ha
  · intro hreason
    cases reason with
    | none => exact hlimit rfl
    | some given => exact absurd (congrArg some hreason) hnotLimit
  · intro stage hmem
    exact Settings.verdictAt_eq_none_iff.mp (hearlier stage hmem)

/-- From a quarter and with a radius of two, the first step overshoots and is rejected; the search
goes on and stops at the first accepted point where the gradient is below one half. -/
theorem solve_squareIsTwo_stops :
    ∃ outcome session last,
      (squareIsTwo.solve { Settings.standard with gradientTolerance := 0.5, radius := 2.0 }
        Clock.stopped false ⟨#[0.25]⟩).value.answer = .ok (outcome, session) ∧
      outcome.reason = .gradientTolerance ∧ last.point = session.point ∧
      ({ Settings.standard with gradientTolerance := 0.5, radius := 2.0 } : Settings Float).Meets
        .gradientTolerance last := by
  obtain ⟨⟨outcome, session⟩, h⟩ :
      ∃ result,
        (squareIsTwo.solve { Settings.standard with gradientTolerance := 0.5, radius := 2.0 }
          Clock.stopped false ⟨#[0.25]⟩).value.answer = .ok result :=
    exists_eq_ok (by decide +kernel)
  have hreason :
      (match (squareIsTwo.solve { Settings.standard with gradientTolerance := 0.5, radius := 2.0 }
          Clock.stopped false ⟨#[0.25]⟩).value.answer with
        | .ok (outcome, _) => some outcome.reason
        | .error _ => none) = some .gradientTolerance := by
    decide +kernel
  rw [h] at hreason
  have hreason : outcome.reason = .gradientTolerance := Option.some.inj hreason
  obtain ⟨-, -, -, -, -, last, -, -, -, -, -, hpoint, -, -, -, hexplains, -⟩ :=
    solve_stops_at_first_criterion false h
  rw [hreason] at hexplains
  exact ⟨outcome, session, last, h, hreason, hpoint, hexplains⟩

end Problem

end TrustRegion
