/-
Module: TrustRegion.Proofs.Search.Account
Purpose: The books that a search keeps. Every attempt is counted once, as accepted or as rejected, and
  recorded once; whether it was accepted and what it made of the radius follow from its own record and
  from the records before it. Without rounding the radius is the first one times a power of either
  factor.
Main exports: lastRadius, Settings.Continues, Settings.Accounts, Search.Balanced,
  Search.Balanced.round, Problem.Run.balanced, Problem.solve_accounts
-/
import TrustRegion.Proofs.Scalar.Exact
import TrustRegion.Proofs.Search.Descent
import TrustRegion.Proofs.Search.Level

namespace TrustRegion

/-- The radius after attempts in order that began with a radius. -/
def lastRadius {α : Type} (radius : α) (history : List (Attempt α)) : α :=
  (history.getLast?.map Attempt.radius).getD radius

theorem lastRadius_nil {α : Type} (radius : α) : lastRadius radius [] = radius := rfl

theorem lastRadius_concat {α : Type} (radius : α) (history : List (Attempt α)) (a : Attempt α) :
    lastRadius radius (history ++ [a]) = a.radius := by
  simp [lastRadius]

namespace Settings

section Records

variable {α : Type} [Scalar α]

/-- An attempt lets the trust region grow if it was accepted, its quality was very good and its step
was cut off at the boundary. -/
def enlarges (s : Settings α) (a : Attempt α) : Bool :=
  a.accepted && decide (s.growAbove < a.quality) && a.kind != .gaussNewton

/-- The radius that an attempt leaves. -/
def radiusAfter (s : Settings α) (radius : α) (a : Attempt α) : α :=
  if s.enlarges a then radius * s.growFactor
  else if a.accepted then radius
  else radius * s.shrinkFactor

/-- An attempt is recorded as it must be after earlier ones, in order, that began at a cost and with
the radius of the settings: it has the next number, it was accepted exactly if its quality is not too
low and its computed improvement is positive, and its cost and radius follow from the last ones. -/
structure Continues (s : Settings α) (cost : α) (earlier : List (Attempt α)) (a : Attempt α) :
    Prop where
  iteration : a.iteration = earlier.length + 1
  accepted : a.accepted = true ↔
    s.rejectBelow ≤ a.quality ∧ 0 < lastCost cost earlier - a.candidateCost
  cost : a.cost = if a.accepted then a.candidateCost else lastCost cost earlier
  radius : a.radius = s.radiusAfter (lastRadius s.radius earlier) a

/-- Every attempt of a history, which is in order, is recorded as it must be. -/
def Accounts (s : Settings α) (cost : α) (history : List (Attempt α)) : Prop :=
  ∀ earlier a later, history = earlier ++ a :: later → s.Continues cost earlier a

variable {s : Settings α} {cost : α} {history : List (Attempt α)} {a : Attempt α}

theorem accounts_nil : s.Accounts cost [] := by
  intro earlier a later heq
  cases List.append_ne_nil_of_right_ne_nil earlier (List.cons_ne_nil a later) heq.symm

/-- The last attempt of a history continues the ones before it. -/
theorem accounts_concat_iff :
    s.Accounts cost (history ++ [a]) ↔ s.Accounts cost history ∧ s.Continues cost history a := by
  constructor
  · intro h
    refine ⟨fun earlier b later heq => h earlier b (later ++ [a]) ?_, h history a [] rfl⟩
    rw [heq, List.append_assoc, List.cons_append]
  · rintro ⟨h, hlast⟩ earlier b later heq
    rcases List.eq_nil_or_concat later with rfl | ⟨init, c, rfl⟩
    · obtain ⟨rfl, hb⟩ := List.append_inj' heq rfl
      cases hb
      exact hlast
    · rw [List.concat_eq_append, ← List.cons_append, ← List.append_assoc] at heq
      exact h earlier b init (List.append_inj' heq rfl).1

end Records

/-- Without rounding, the last radius is the first one shrunk once for every rejected attempt and
grown once for every attempt that let it grow. -/
theorem Accounts.lastRadius_eq {s : Settings ℝ} {cost : ℝ} {history : List (Attempt ℝ)}
    (h : s.Accounts cost history) :
    lastRadius s.radius history =
      s.radius * s.shrinkFactor ^ history.countP (fun a => !a.accepted) *
        s.growFactor ^ history.countP s.enlarges := by
  induction history using List.reverseRecOn with
  | nil => rw [lastRadius_nil, List.countP_nil, List.countP_nil, pow_zero, pow_zero, mul_one, mul_one]
  | append_singleton history a ih =>
      obtain ⟨hearlier, hlast⟩ := accounts_concat_iff.mp h
      rw [lastRadius_concat, hlast.radius, radiusAfter, ih hearlier, List.countP_append,
        List.countP_append, List.countP_singleton, List.countP_singleton]
      cases hgrows : s.enlarges a with
      | true =>
          have hacc : a.accepted = true := by
            simp only [enlarges, Bool.and_eq_true] at hgrows
            exact hgrows.1.1
          simp only [hacc, if_true, Bool.not_true, Bool.false_eq_true, if_false, Nat.add_zero]
          rw [pow_succ, mul_assoc]
      | false =>
          cases hacc : a.accepted with
          | true => simp
          | false =>
              simp only [Bool.false_eq_true, if_false, Bool.not_false, if_true, Nat.add_zero]
              rw [pow_succ]
              ring

/-- Without rounding, the radius stays positive. -/
theorem Accounts.lastRadius_pos {s : Settings ℝ} (usable : s.Usable) {cost : ℝ}
    {history : List (Attempt ℝ)} (h : s.Accounts cost history) :
    0 < lastRadius s.radius history := by
  rw [h.lastRadius_eq]
  have hshrunk := pow_pos usable.shrinkFactor.1 (history.countP fun a => !a.accepted)
  have hgrown := pow_pos (zero_lt_one.trans usable.growFactor) (history.countP s.enlarges)
  exact mul_pos (mul_pos usable.radius hshrunk) hgrown

/-- Without rounding, every radius recorded is positive. -/
theorem Accounts.radius_pos {s : Settings ℝ} (usable : s.Usable) {cost : ℝ}
    {history : List (Attempt ℝ)} (h : s.Accounts cost history) {a : Attempt ℝ} (ha : a ∈ history) :
    0 < a.radius := by
  obtain ⟨earlier, later, rfl⟩ := List.append_of_mem ha
  have hprefix : s.Accounts cost (earlier ++ [a]) := by
    intro before b after heq
    refine h before b (after ++ later) ?_
    rw [← List.singleton_append, ← List.append_assoc, heq, List.append_assoc, List.cons_append]
  have hpos := hprefix.lastRadius_pos usable
  rwa [lastRadius_concat] at hpos

end Settings

namespace Search

variable {α β : Type} [Scalar α]

/-- The counters of a search and its history agree, and the history ends where the search is. -/
structure Balanced (s : Search α β) : Prop where
  iterations : s.iterations = s.history.length
  accepted : s.accepted = s.history.countP fun a => a.accepted
  rejected : s.rejected = s.history.countP fun a => !a.accepted
  evaluations : s.evaluations = s.iterations + 1
  entries : s.session.settings.Accounts s.initialCost s.history.reverse
  cost : lastCost s.initialCost s.history.reverse = s.session.point.cost
  radius : lastRadius s.session.settings.radius s.history.reverse = s.session.radius

/-- Every attempt is counted as accepted or as rejected. -/
theorem Balanced.total {s : Search α β} (h : s.Balanced) : s.iterations = s.accepted + s.rejected := by
  rw [h.iterations, h.accepted, h.rejected,
    List.length_eq_countP_add_countP fun a : Attempt α => a.accepted]
  simp only [Bool.not_eq_true, Bool.decide_eq_false]

/-- A search begins with its books balanced. -/
theorem balanced_start (backend : β) (settings : Settings α) (point : Linearization α)
    (evaluator : Evaluator α) :
    (start (Session.start backend settings point) evaluator).Balanced where
  iterations := rfl
  accepted := rfl
  rejected := rfl
  evaluations := rfl
  entries := Settings.accounts_nil
  cost := rfl
  radius := rfl

variable [LinearSolver α β]

/-- What is recorded of a round continues the history of the search that it began from. The radius
grows by what the point remembers about its step, which is about the step of this very round. -/
theorem Balanced.continues {clock : Clock} {s s' : Search α β} {r : Round α β}
    {reason : Option StopReason} (h : s.Balanced) (attempted : s.Attempts clock r reason s') :
    s.session.settings.Continues s.initialCost s.history.reverse (Lap.record clock ⟨s, r⟩) := by
  have hstep := Workspace.stepsTo_of_computeStep attempted.computed
  have hcost : lastCost s.initialCost s.history.reverse = r.workspace.point.cost := by
    have hbare := congrArg Linearization.cost hstep.bare_eq
    rw [h.cost]
    exact hbare.symm
  have haccepted : (Lap.record clock ⟨s, r⟩).accepted = r.accepted s.session.settings := rfl
  have hgrows : s.session.settings.enlarges (Lap.record clock ⟨s, r⟩) =
      (r.accepted s.session.settings &&
        s.session.settings.grows r.quality r.workspace.point.reachedEdge) := by
    have hedge : r.workspace.point.reachedEdge = (r.step.kind != .gaussNewton) := by
      rw [Bool.eq_iff_iff, hstep.reachedEdge_iff, bne_iff_ne]
    rw [Settings.enlarges, Settings.grows, hedge, Bool.and_assoc]
    rfl
  refine ⟨?_, ?_, ?_, ?_⟩
  · rw [List.length_reverse, ← h.iterations]
    rfl
  · rw [haccepted, hcost, Round.accepted, Settings.accepts, Bool.and_eq_true, decide_eq_true_eq,
      decide_eq_true_eq]
    rfl
  · rw [haccepted, hcost]
    show (r.endpoint s.session.settings).cost = _
    unfold Round.endpoint
    split <;> rfl
  · rw [Settings.radiusAfter, hgrows, haccepted, h.radius]
    show r.radiusAfter s.session.settings s.session.radius = _
    unfold Round.radiusAfter
    cases r.accepted s.session.settings <;> rfl

/-- A round keeps the books balanced. -/
theorem Balanced.round {clock : Clock} {s s' : Search α β} {r : Round α β}
    {reason : Option StopReason} (h : s.Balanced) (attempted : s.Attempts clock r reason s') :
    s'.Balanced := by
  have hcontinues := h.continues attempted
  obtain ⟨-, rfl⟩ := attempted.lap
  have haccepted : (Lap.record clock ⟨s, r⟩).accepted = Lap.accepted ⟨s, r⟩ := rfl
  refine ⟨?_, ?_, ?_, ?_, ?_, ?_, ?_⟩
  · rw [Lap.left, List.length_cons, ← h.iterations]
  · rw [Lap.left, List.countP_cons, ← h.accepted, haccepted]
    cases Lap.accepted (⟨s, r⟩ : Lap α β) <;> rfl
  · rw [Lap.left, List.countP_cons, ← h.rejected, haccepted]
    cases Lap.accepted (⟨s, r⟩ : Lap α β) <;> rfl
  · rw [Lap.left, h.evaluations]
  · rw [Lap.left, List.reverse_cons]
    exact Settings.accounts_concat_iff.mpr ⟨h.entries, hcontinues⟩
  · rw [Lap.left, List.reverse_cons, lastCost_concat]
    rfl
  · rw [Lap.left, List.reverse_cons, lastRadius_concat]
    rfl

end Search

namespace Problem

section Run

variable {α : Type} [Scalar α] {p : Problem α} {settings : Settings α} {clock : Clock}
  {state : Vec α} {points : List (Linearization α)} {reason : Option StopReason}
  {s : Search α (CholeskySolver α)}

/-- The books are balanced throughout a run. -/
theorem Run.balanced (h : p.Run settings clock state points reason s) : s.Balanced := by
  induction h with
  | opening _ _ _ _ => exact Search.balanced_start _ _ _ _
  | round _ _ attempted ih => exact ih.round attempted

/-- No more steps are attempted than the settings allow. -/
theorem Run.iterations_le (h : p.Run settings clock state points reason s) :
    s.iterations ≤ settings.maxIterations := by
  induction h with
  | opening _ _ _ _ => exact Nat.zero_le _
  | round _ room attempted _ =>
      rw [attempted.after.iterations]
      exact room

end Run

/-- If a search ends with a result, the numbers in it agree: the attempts are those of the history,
each is counted as accepted or as rejected, there are no more of them than the settings allow, the
problem was evaluated and the callback asked once more than that, every attempt is recorded as it must
be after the ones before it, and the radius is the last one recorded. Without rounding, the radius is
the first one times a power of each factor: it shrank once for every rejected attempt, and it grew at
most once for every accepted one whose step was cut off at the boundary; it is positive at the end and
after every attempt. -/
theorem solve_accounts :
    (∀ {α : Type} [Scalar α] (p : Problem α) (settings : Settings α) (clock : Clock)
      (debugHeard : Bool) (state : Vec α) (outcome : Outcome α)
      (session : Session α (CholeskySolver α)),
      (p.solve settings clock debugHeard state).value.answer = .ok (outcome, session) →
      outcome.iterations = outcome.history.length ∧
      outcome.iterations = outcome.accepted + outcome.rejected ∧
      outcome.iterations ≤ settings.maxIterations ∧
      outcome.accepted = outcome.history.countP (fun a => a.accepted) ∧
      outcome.rejected = outcome.history.countP (fun a => !a.accepted) ∧
      outcome.convergence.evaluations = outcome.iterations + 1 ∧
      (p.solve settings clock debugHeard state).value.calls = outcome.iterations + 1 ∧
      settings.Accounts outcome.initialCost outcome.history ∧
      outcome.radius = lastRadius settings.radius outcome.history) ∧
    (∀ (p : Problem ℝ) (settings : Settings ℝ) (clock : Clock) (debugHeard : Bool)
      (state : Vec ℝ) (outcome : Outcome ℝ) (session : Session ℝ (CholeskySolver ℝ)),
      (p.solve settings clock debugHeard state).value.answer = .ok (outcome, session) →
      (∃ grown, grown ≤ outcome.history.countP
          (fun a => a.accepted && a.kind != .gaussNewton) ∧
        outcome.radius =
          settings.radius * settings.shrinkFactor ^ outcome.rejected * settings.growFactor ^ grown) ∧
      0 < outcome.radius ∧ ∀ a ∈ outcome.history, 0 < a.radius) := by
  constructor
  · intro α _ p settings clock debugHeard state outcome session h
    obtain ⟨points, reason, s, hrun, rfl, rfl, -, hcalls⟩ := run_of_solve rfl h
    have hbalanced := hrun.balanced
    have hentries := hbalanced.entries
    have hradius := hbalanced.radius
    rw [hrun.settings_eq] at hentries hradius
    refine ⟨?_, hbalanced.total, hrun.iterations_le, ?_, ?_, hbalanced.evaluations,
      hcalls.trans hrun.length_eq, hentries, hradius.symm⟩
    · exact hbalanced.iterations.trans List.length_reverse.symm
    · exact hbalanced.accepted.trans (List.countP_reverse).symm
    · exact hbalanced.rejected.trans (List.countP_reverse).symm
  · intro p settings clock debugHeard state outcome session h
    obtain ⟨points, reason, s, hrun, rfl, rfl, -, -⟩ := run_of_solve rfl h
    have hbalanced := hrun.balanced
    have hentries := hbalanced.entries
    have hradius := hbalanced.radius
    rw [hrun.settings_eq] at hentries hradius
    have hend : (s.outcome clock (reason.getD .iterationLimit)).radius =
        lastRadius settings.radius s.history.reverse := hradius.symm
    refine ⟨⟨s.history.reverse.countP settings.enlarges, ?_, ?_⟩, ?_, fun a ha => ?_⟩
    · refine List.countP_mono_left fun a _ hgrows => ?_
      simp only [Settings.enlarges, Bool.and_eq_true] at hgrows
      rw [Bool.and_eq_true]
      exact ⟨hgrows.1.1, hgrows.2⟩
    · rw [hend, hentries.lastRadius_eq, List.countP_reverse, ← hbalanced.rejected]
      rfl
    · rw [hend]
      exact hentries.lastRadius_pos hrun.usable
    · exact hentries.radius_pos hrun.usable ha

/-- From a quarter and with a radius of two, the first of three steps is rejected. Where no step improves,
three attempts over the real numbers leave a thousandth of the radius. -/
theorem solve_squareIsTwo_accounts :
    (∃ outcome session,
      ((squareIsTwo : Problem Float).solve
        { Settings.standard with maxIterations := 3, radius := 2.0 } Clock.stopped false
        ⟨#[0.25]⟩).value.answer = .ok (outcome, session) ∧
      outcome.iterations = outcome.accepted + outcome.rejected ∧ outcome.iterations ≤ 3) ∧
    (∃ outcome session,
      (constantOne.solve { unitRadius with maxIterations := 3 } Clock.stopped false
        ⟨#[0]⟩).value.answer = .ok (outcome, session) ∧
      outcome.rejected = 3 ∧ outcome.radius = unitRadius.shrinkFactor ^ 3 ∧
      ∀ a ∈ outcome.history, 0 < a.radius) := by
  constructor
  · obtain ⟨⟨outcome, session⟩, h⟩ :
        ∃ result,
          ((squareIsTwo : Problem Float).solve
            { Settings.standard with maxIterations := 3, radius := 2.0 } Clock.stopped false
            ⟨#[0.25]⟩).value.answer = .ok result :=
      exists_eq_ok (by decide +kernel)
    obtain ⟨-, htotal, hle, -⟩ := solve_accounts.1 _ _ _ _ _ _ _ h
    exact ⟨outcome, session, h, htotal, hle⟩
  · obtain ⟨outcome, session, h, hiterations, hnone⟩ := exists_solve_constantOne 3 false
    obtain ⟨-, htotal, -, haccepted, -⟩ := solve_accounts.1 _ _ _ _ _ _ _ h
    obtain ⟨⟨grown, hgrown, hradius⟩, -, hpositive⟩ := solve_accounts.2 _ _ _ _ _ _ _ h
    have hrejected : outcome.rejected = 3 := by omega
    have hcut : outcome.history.countP (fun a => a.accepted && a.kind != .gaussNewton) ≤
        outcome.history.countP (fun a => a.accepted) :=
      List.countP_mono_left fun a _ hcut => (Bool.and_eq_true_iff.mp hcut).1
    obtain rfl : grown = 0 := by omega
    refine ⟨outcome, session, h, hrejected, ?_, hpositive⟩
    rw [hradius, hrejected, pow_zero, mul_one]
    exact one_mul _

end Problem

end TrustRegion
