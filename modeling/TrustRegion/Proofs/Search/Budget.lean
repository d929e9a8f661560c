/-
Module: TrustRegion.Proofs.Search.Budget
Purpose: How many factorizations a search requests. The end of the path from a point is computed at
  most once, however often a step from there is rejected, and every request ends in that one success
  or in a raise of the damping. So the requests are the points where the path was needed and the
  raises together, and the damping is what the schedule makes of as many raises.
Main exports: DampingSchedule.reached, Search.Lap.solves, Search.solvedPoints, Workspace.Ledger,
  Workspace.Ledger.stepsTo, Search.Ledger, Search.Ledger.round, Problem.solve_factorizations
-/
import TrustRegion.Proofs.Linear.Schedule
import TrustRegion.Proofs.Scalar.Growth
import TrustRegion.Proofs.Search.Account
import TrustRegion.Proofs.Search.Raises
import TrustRegion.Proofs.Search.Shape
import TrustRegion.Proofs.Search.Trace

namespace TrustRegion

/-! ### Dampings of a schedule -/

namespace DampingSchedule

section Scalar

variable {α : Type} [Scalar α]

/-- The damping after so many raises, beginning with none. -/
def reached (s : DampingSchedule α) (raises : Nat) : α :=
  s.next^[raises] 0

theorem reached_succ (s : DampingSchedule α) (raises : Nat) :
    s.reached (raises + 1) = s.next (s.reached raises) :=
  Function.iterate_succ_apply' s.next raises 0

theorem reached_add (s : DampingSchedule α) (raises more : Nat) :
    s.reached (raises + more) = s.next^[more] (s.reached raises) := by
  rw [reached, Nat.add_comm, Function.iterate_add_apply]
  rfl

theorem next_zero [LawfulScalar α] (s : DampingSchedule α) : s.next 0 = s.initial :=
  if_pos (LawfulScalar.beq_self_of_isFinite LawfulScalar.isFinite_zero)

/-- Once raised, the damping stays positive. -/
theorem Usable.reached_pos [GrowingScalar α] {s : DampingSchedule α} (h : s.Usable) (n : Nat) :
    0 < s.reached (n + 1) := by
  induction n with
  | zero =>
      rw [reached_succ, reached, Function.iterate_zero_apply, next_zero]
      exact h.initial
  | succ n ih =>
      rw [reached_succ, next, GrowingScalar.beq_zero_of_pos ih, if_neg Bool.false_ne_true]
      exact GrowingScalar.mul_pos ih h.factor h.isFinite_factor

/-- There is no damping only if it was never raised. -/
theorem Usable.eq_zero_of_reached [GrowingScalar α] {s : DampingSchedule α} (h : s.Usable) {n : Nat}
    (none : (s.reached n == 0) = true) : n = 0 := by
  cases n with
  | zero => rfl
  | succ n =>
      rw [GrowingScalar.beq_zero_of_pos (h.reached_pos n)] at none
      cases none

end Scalar

/-- Without rounding, the damping is none or the first one times a power of the factor. -/
theorem Usable.reached_eq {s : DampingSchedule ℝ} (h : s.Usable) (n : ℕ) :
    s.reached n = if n = 0 then 0 else s.initial * s.factor ^ (n - 1) := by
  induction n with
  | zero => rfl
  | succ n ih =>
      rw [reached_succ, if_neg n.succ_ne_zero]
      cases n with
      | zero =>
          rw [reached, Function.iterate_zero_apply, next_zero]
          exact (mul_one _).symm
      | succ n =>
          rw [next, GrowingScalar.beq_zero_of_pos (h.reached_pos n), if_neg Bool.false_ne_true, ih,
            if_neg n.succ_ne_zero, mul_assoc]
          rfl

/-- Without rounding, more raises never lead to less damping. -/
theorem Usable.reached_mono {s : DampingSchedule ℝ} (h : s.Usable) : Monotone s.reached :=
  (h.strictMono_iterate_next le_rfl).monotone

end DampingSchedule

/-! ### Points where the end of the path was computed -/

namespace Search

variable {α β : Type}

/-- Whether the end of the path was computed in a round, not having been known before. -/
def Lap.solves (l : Lap α β) : Bool :=
  l.before.session.point.gaussNewton.isNone && l.round.workspace.point.gaussNewton.isSome

/-- The numbers of the points from which the end of the path was computed, one for each time. -/
def solvedPoints (laps : List (Lap α β)) : List Nat :=
  (laps.filter Lap.solves).map fun l => l.before.session.point.id

theorem solvedPoints_concat (laps : List (Lap α β)) (l : Lap α β) :
    solvedPoints (laps ++ [l]) =
      solvedPoints laps ++ if l.solves then [l.before.session.point.id] else [] := by
  rw [solvedPoints, List.filter_append, List.map_append, List.filter_singleton]
  cases l.solves <;> rfl

end Search

/-! ### What the counters say about a workspace -/

variable {α : Type} [Scalar α]

namespace Workspace

/-- The counters of a search agree with the points where the end of the path was computed and with the
number of raises. No point was such a point twice, and the current one was not if its path is not
known; a factorization at hand was made for a point of the search, and not for the current one if its
path is not known. -/
structure Ledger (schedule : DampingSchedule α) (nextId accepted : Nat) (solved : List Nat)
    (raises : Nat) (w : Workspace α (CholeskySolver α)) : Prop where
  numbered : w.point.id < nextId
  keyed : ∀ held, w.backend.key = some held → held.point < nextId
  unserved : w.point.gaussNewton = none →
    ∀ held, w.backend.key = some held → held.point ≠ w.point.id
  nodup : solved.Nodup
  solved_lt : ∀ i ∈ solved, i < nextId
  unsolved : w.point.gaussNewton = none → w.point.id ∉ solved
  length_le : solved.length ≤ accepted + if w.point.gaussNewton.isSome then 1 else 0
  lambda : w.damping.lambda = schedule.reached raises
  factorizations : w.damping.factorizations = (solved.length + raises) % wordSize

namespace Ledger

variable {schedule : DampingSchedule α} {nextId accepted raises : Nat} {solved : List Nat}
  {w w' : Workspace α (CholeskySolver α)} {storage : Storage} {m n : Nat} {radius : α}
  {step : Step α}

/-- What a step notes on the point changes nothing about the counters as long as it leaves the end of
the path as it is. -/
theorem stepped (h : w.Ledger schedule nextId accepted solved raises) (c : Leg α)
    {g : Option (Leg α)} (same : w.point.gaussNewton = g) (step : Step α) :
    Ledger schedule nextId accepted solved raises { w with point := w.stepped c g step } := by
  subst same
  exact
    { numbered := h.numbered
      keyed := h.keyed
      unserved := h.unserved
      nodup := h.nodup
      solved_lt := h.solved_lt
      unsolved := h.unsolved
      length_le := h.length_le
      lambda := h.lambda
      factorizations := h.factorizations }

/-- Computing the end of the path makes one request that succeeds and one for every raise before it:
the factorization at hand is not the one asked for. -/
theorem factored (h : w.Ledger schedule nextId accepted solved raises)
    (shaped : w.Shaped storage m n) (unknown : w.point.gaussNewton = none) {v : Vec α}
    {damping : Damping α} {backend : CholeskySolver α}
    (computed : (gaussNewtonVector schedule w.point w.damping w.backend).value =
      (.ok v, damping, backend)) (c g : Leg α) (step : Step α) :
    Ledger schedule nextId accepted (solved ++ [w.point.id])
      (raises +
        (factorizeDamped schedule w.point.jacobian w.point.id w.damping w.backend).raises)
      { backend, damping, point := w.stepped c (some g) step } := by
  rcases hmade : (factorizeDamped schedule w.point.jacobian w.point.id w.damping w.backend).value with
    ⟨answer, d, s⟩
  have hparts : answer = .ok () ∧ damping = d ∧ backend = s := by
    unfold gaussNewtonVector at computed
    simp only [Logged.value_bind, hmade] at computed
    cases answer with
    | error error => cases computed
    | ok request =>
        simp only [Logged.value_bind, Logged.value_pure, Prod.mk.injEq] at computed
        exact ⟨rfl, computed.2.1.symm, computed.2.2.symm⟩
  obtain ⟨rfl, rfl, rfl⟩ := hparts
  rcases factorizeDamped_settled shaped.backend shaped.point.storage shaped.point.cols hmade with
    ⟨held, hkey, hsame, -⟩ | ⟨-, hsettled⟩
  · -- a factorization at hand would be one for this point
    have hpoint : held.point = w.point.id := by
      have hparts : (held.point == w.point.id && held.lambda == w.damping.lambda) = true := hsame
      exact beq_iff_eq.mp (Bool.and_eq_true_iff.mp hparts).1
    exact absurd hpoint (h.unserved unknown held hkey)
  · have hkey : backend.key = some ⟨w.point.id, damping.lambda⟩ := by
      rcases hsettled.ending with ⟨-, hkey⟩ | ⟨hfailed, -⟩
      · exact hkey
      · cases hfailed
    exact
      { numbered := h.numbered
        keyed := fun held hheld => by
          rw [hkey] at hheld
          cases hheld
          exact h.numbered
        unserved := fun hnone => by cases hnone
        nodup := List.nodup_append'.mpr
          ⟨h.nodup, List.nodup_singleton _, List.disjoint_singleton.mpr (h.unsolved unknown)⟩
        solved_lt := fun i hi => by
          rcases List.mem_append.mp hi with hold | hnew
          · exact h.solved_lt i hold
          · rw [List.mem_singleton.mp hnew]
            exact h.numbered
        unsolved := fun hnone => by cases hnone
        length_le := by
          have hle := h.length_le
          rw [unknown] at hle
          rw [List.length_append, List.length_singleton]
          exact Nat.succ_le_succ hle
        lambda := by rw [hsettled.lambda, h.lambda, ← DampingSchedule.reached_add]
        factorizations := by
          rw [hsettled.factorizations, h.factorizations, Nat.mod_add_mod, List.length_append,
            List.length_singleton]
          congr 1
          omega }

/-- A step keeps the counters right: the point is one more at which the path was computed if its end
is known only now. -/
theorem stepsTo (h : w.Ledger schedule nextId accepted solved raises)
    (shaped : w.Shaped storage m n) (hstep : w.StepsTo schedule radius step w') :
    w'.Ledger schedule nextId accepted
      (solved ++ if w.point.gaussNewton.isNone && w'.point.gaussNewton.isSome then [w.point.id]
        else [])
      (raises + (w.computeStep schedule radius).raises) := by
  cases hstep with
  | @clipped c first unknown reaches =>
      rw [raises_of_clipped first unknown reaches, unknown]
      simp only [Workspace.stepped, Option.isSome_none, Bool.and_false, Bool.false_eq_true, if_false,
        List.append_nil]
      exact h.stepped c unknown _
  | @reused c g first known =>
      rw [raises_of_reused first known, known]
      simp only [Option.isNone_some, Bool.false_and, Bool.false_eq_true, if_false, List.append_nil]
      exact h.stepped c known _
  | @factored c v damping backend first unknown short computed =>
      rw [raises_of_factored first unknown short, unknown]
      exact h.factored shaped unknown computed c _ _

/-- Once a candidate is the current point, its path is not known, and no factorization was made for
it. -/
theorem accept (h : w.Ledger schedule nextId accepted solved raises) {q : Linearization α}
    (id : q.id = nextId) (unknown : q.gaussNewton = none) :
    Ledger schedule (nextId + 1) (accepted + 1) solved raises { w with point := q } where
  numbered := id ▸ Nat.lt_succ_self nextId
  keyed held hheld := Nat.lt_succ_of_lt (h.keyed held hheld)
  unserved _ held hheld := fun heq => (h.keyed held hheld).ne (heq.trans id)
  nodup := h.nodup
  solved_lt i hi := Nat.lt_succ_of_lt (h.solved_lt i hi)
  unsolved _ hmem := (h.solved_lt q.id hmem).ne id
  length_le := by
    have hle := h.length_le
    rw [unknown]
    refine hle.trans (Nat.add_le_add_left ?_ accepted)
    split <;> decide
  lambda := h.lambda
  factorizations := h.factorizations

/-- The number of a rejected candidate is not used again. -/
theorem reject (h : w.Ledger schedule nextId accepted solved raises) :
    w.Ledger schedule (nextId + 1) accepted solved raises :=
  { h with
    numbered := Nat.lt_succ_of_lt h.numbered
    keyed := fun held hheld => Nat.lt_succ_of_lt (h.keyed held hheld)
    solved_lt := fun i hi => Nat.lt_succ_of_lt (h.solved_lt i hi) }

end Ledger

end Workspace

/-! ### What the counters say about a search -/

namespace Search

/-- The counters of a search are right, and the damping recorded of every attempt is the one after as
many raises as there had been then. -/
structure Ledger (solved : List Nat) (raises : Nat) (s : Search α (CholeskySolver α)) : Prop where
  workspace : s.session.workspace.Ledger s.session.settings.damping s.session.nextId s.accepted
    solved raises
  recorded : ∃ counts : List Nat, counts.Pairwise (· ≤ ·) ∧ (∀ k ∈ counts, k ≤ raises) ∧
    s.history.reverse.map (fun a => a.lambda) = counts.map s.session.settings.damping.reached

/-- A round keeps the counters right. -/
theorem Ledger.round {clock : Clock} {s s' : Search α (CholeskySolver α)}
    {r : Round α (CholeskySolver α)} {reason : Option StopReason} {solved : List Nat} {raises : Nat}
    {storage : Storage} {m n : Nat} (h : s.Ledger solved raises)
    (shaped : s.session.workspace.Shaped storage m n) (reporting : Bool)
    (attempted : s.Attempts clock r reason s') :
    s'.Ledger
      (solved ++ if (Lap.mk s r).solves then [s.session.point.id] else [])
      (raises + (s.attempt clock reporting).raises) := by
  have hstep := Workspace.stepsTo_of_computeStep attempted.computed
  have hledger := h.workspace.stepsTo shaped hstep
  rw [← raises_attempt clock reporting s] at hledger
  obtain ⟨counts, hsorted, hle, hmap⟩ := h.recorded
  obtain ⟨-, rfl⟩ := attempted.lap
  refine ⟨?_, counts ++ [raises + (s.attempt clock reporting).raises], ?_, fun k hk => ?_, ?_⟩
  · cases hacc : r.accepted s.session.settings with
    | true =>
        obtain ⟨gradient, -, hcandidate⟩ := Linearization.of_make attempted.made
        have hid : r.candidate.id = s.session.nextId := by rw [hcandidate]
        have hunknown : r.candidate.gaussNewton = none := by rw [hcandidate]
        simp only [Lap.left, Lap.accepted, Round.endpoint, hacc, if_true]
        exact hledger.accept hid hunknown
    | false =>
        simp only [Lap.left, Lap.accepted, Round.endpoint, hacc, Bool.false_eq_true, if_false]
        exact hledger.reject
  · refine List.pairwise_append.mpr ⟨hsorted, List.pairwise_singleton _ _, fun k hk l hl => ?_⟩
    rw [List.mem_singleton.mp hl]
    exact (hle k hk).trans (Nat.le_add_right _ _)
  · rcases List.mem_append.mp hk with hold | hnew
    · exact (hle k hold).trans (Nat.le_add_right _ _)
    · exact (List.mem_singleton.mp hnew).le
  · rw [Lap.left, List.reverse_cons, List.map_append, hmap, List.map_append]
    exact congrArg (_ ++ [·]) hledger.lambda

end Search

namespace Problem

/-- A search begins with no requests and no raises. -/
theorem ledger_start {p : Problem α} {settings : Settings α} {state : Vec α}
    {evaluation : Evaluation α} {point : Linearization α}
    (first : (firstPoint p.backend state evaluation).value = .ok point) (e : Evaluator α) :
    (Search.start (Session.start p.backend settings point) e).Ledger [] 0 := by
  obtain ⟨gradient, -, rfl⟩ := Linearization.of_make (of_firstPoint first).1
  refine ⟨?_, [], List.Pairwise.nil, List.forall_mem_nil _, rfl⟩
  exact
    { numbered := Nat.zero_lt_one
      keyed := fun held hheld => by cases hheld
      unserved := fun _ held hheld => by cases hheld
      nodup := List.nodup_nil
      solved_lt := List.forall_mem_nil _
      unsolved := fun _ => List.not_mem_nil
      length_le := Nat.zero_le _
      lambda := rfl
      factorizations := rfl }

/-- The counters of a search that ends with a result, with the rounds that led there. -/
theorem exists_ledger {p : Problem α} {settings : Settings α} {clock : Clock} {debugHeard : Bool}
    {state : Vec α} {outcome : Outcome α} {session : Session α (CholeskySolver α)}
    (ok : (p.solve settings clock debugHeard state).value.answer = .ok (outcome, session)) :
    ∃ first laps reason s, p.Trace settings clock state first laps reason s ∧
      outcome = s.outcome clock (reason.getD .iterationLimit) ∧ session = s.session ∧
      s.Ledger (Search.solvedPoints laps) (p.solve settings clock debugHeard state).raises := by
  obtain ⟨e, e', evaluation, point, final, s, hvalid, hbuilt, hasked, hfirst, hloop, rfl, rfl, -⟩ :=
    stages_of_solve ok
  rw [raises_solve hvalid hbuilt hasked hfirst hloop]
  have hopening : p.Trace settings clock state point [] _ _ :=
    .opening hvalid hbuilt hasked hfirst
  -- a round adds to the trace what its events add to the raises
  obtain ⟨reason, ⟨laps, htrace, hledger⟩, rfl, -⟩ := Search.loop_induct
    (motive := fun events reason s => ∃ laps, p.Trace settings clock state point laps reason s ∧
      s.Ledger (Search.solvedPoints laps) (events.countP Event.isRaise))
    (fun {events s r reason s'} ⟨laps, htrace, hledger⟩ room attempted => by
      refine ⟨_, htrace.round room attempted, ?_⟩
      rw [List.countP_append, Search.solvedPoints_concat]
      exact hledger.round htrace.run.shaped (settings.verbose || debugHeard) attempted)
    [] ⟨[], hopening, ledger_start hfirst e'⟩ (Nat.zero_add settings.maxIterations) hloop
  exact ⟨point, laps, reason, s, htrace, rfl, rfl, hledger⟩

/-- Every search that ends with a result ran through rounds that computed the end of the path at most
once from each point, and from no more points than were accepted and the first one. The
factorizations requested are as many as these points and the raises of the damping together, counted as
a word, and the damping is the one after so many raises. If there is no damping at the end, it was
never raised, with rounding as without, and at most one more factorization was requested than steps
were accepted. Without rounding, the damping is none or the first one times a power of the factor that
is one less than the raises, and the dampings recorded of the attempts never decrease. -/
theorem solve_factorizations :
    (∀ {α : Type} [Scalar α] (p : Problem α) (settings : Settings α) (clock : Clock)
      (debugHeard : Bool) (state : Vec α) (outcome : Outcome α)
      (session : Session α (CholeskySolver α)),
      (p.solve settings clock debugHeard state).value.answer = .ok (outcome, session) →
      ∃ first laps reason s, p.Trace settings clock state first laps reason s ∧
        outcome = s.outcome clock (reason.getD .iterationLimit) ∧ session = s.session ∧
        (Search.solvedPoints laps).Nodup ∧
        (Search.solvedPoints laps).length ≤ outcome.accepted + 1 ∧
        outcome.convergence.factorizations =
          ((Search.solvedPoints laps).length +
            (p.solve settings clock debugHeard state).raises) % wordSize ∧
        outcome.lambda =
          settings.damping.reached (p.solve settings clock debugHeard state).raises) ∧
    (∀ {α : Type} [Scalar α] [GrowingScalar α] (p : Problem α) (settings : Settings α)
      (clock : Clock) (debugHeard : Bool) (state : Vec α) (outcome : Outcome α)
      (session : Session α (CholeskySolver α)),
      (p.solve settings clock debugHeard state).value.answer = .ok (outcome, session) →
      (outcome.lambda == 0) = true →
      (p.solve settings clock debugHeard state).raises = 0 ∧
        outcome.convergence.factorizations ≤ outcome.accepted + 1) ∧
    (∀ (p : Problem ℝ) (settings : Settings ℝ) (clock : Clock) (debugHeard : Bool)
      (state : Vec ℝ) (outcome : Outcome ℝ) (session : Session ℝ (CholeskySolver ℝ)),
      (p.solve settings clock debugHeard state).value.answer = .ok (outcome, session) →
      outcome.lambda = (if (p.solve settings clock debugHeard state).raises = 0 then 0
        else settings.damping.initial * settings.damping.factor ^
          ((p.solve settings clock debugHeard state).raises - 1)) ∧
      (outcome.history.map fun a => a.lambda).Pairwise (· ≤ ·) ∧
      ∀ a ∈ outcome.history, a.lambda ≤ outcome.lambda) := by
  refine ⟨?_, ?_, ?_⟩
  · intro α _ p settings clock debugHeard state outcome session h
    obtain ⟨first, laps, reason, s, htrace, rfl, rfl, hledger⟩ := exists_ledger h
    have hcounters := hledger.workspace
    rw [htrace.run.settings_eq] at hcounters
    refine ⟨first, laps, reason, s, htrace, rfl, rfl, hcounters.nodup, ?_,
      hcounters.factorizations, hcounters.lambda⟩
    refine hcounters.length_le.trans (Nat.add_le_add_left ?_ s.accepted)
    split <;> decide
  · intro α _ _ p settings clock debugHeard state outcome session h hzero
    obtain ⟨first, laps, reason, s, htrace, rfl, rfl, hledger⟩ := exists_ledger h
    have hcounters := hledger.workspace
    rw [htrace.run.settings_eq] at hcounters
    have hend : (s.outcome clock (reason.getD .iterationLimit)).lambda =
        settings.damping.reached (p.solve settings clock debugHeard state).raises :=
      hcounters.lambda
    rw [hend] at hzero
    have hnone := htrace.run.usable.damping.eq_zero_of_reached hzero
    refine ⟨hnone, ?_⟩
    calc (s.outcome clock (reason.getD .iterationLimit)).convergence.factorizations
      _ = ((Search.solvedPoints laps).length + 0) % wordSize :=
          hnone ▸ hcounters.factorizations
      _ ≤ (Search.solvedPoints laps).length := Nat.mod_le _ _
      _ ≤ s.accepted + 1 :=
          hcounters.length_le.trans (Nat.add_le_add_left (by split <;> decide) s.accepted)
  · intro p settings clock debugHeard state outcome session h
    obtain ⟨first, laps, reason, s, htrace, rfl, rfl, hledger⟩ := exists_ledger h
    have hcounters := hledger.workspace
    obtain ⟨counts, hsorted, hle, hmap⟩ := hledger.recorded
    rw [htrace.run.settings_eq] at hcounters hmap
    have husable := htrace.run.usable.damping
    have hend : (s.outcome clock (reason.getD .iterationLimit)).lambda =
        settings.damping.reached (p.solve settings clock debugHeard state).raises :=
      hcounters.lambda
    have hhistory : (s.outcome clock (reason.getD .iterationLimit)).history.map
        (fun a => a.lambda) = counts.map settings.damping.reached := hmap
    rw [hend, hhistory]
    refine ⟨husable.reached_eq _, ?_, fun a ha => ?_⟩
    · exact hsorted.map _ fun k l hkl => husable.reached_mono hkl
    · have hmem : a.lambda ∈ counts.map settings.damping.reached :=
        hhistory ▸ List.mem_map_of_mem ha
      obtain ⟨k, hk, hak⟩ := List.mem_map.mp hmem
      rw [← hak]
      exact husable.reached_mono (hle k hk)

/-- From a quarter and with a radius of twenty, two of three steps along one path are rejected and one
factorization serves them all. Where no step improves, three attempts over the real numbers record
three dampings. -/
theorem solve_squareIsTwo_factorizations :
    (∃ outcome session,
      ((squareIsTwo : Problem Float).solve
        { Settings.standard with maxIterations := 3, radius := 20.0 } Clock.stopped false
        ⟨#[0.25]⟩).value.answer = .ok (outcome, session) ∧
      (outcome.lambda == 0) = true ∧ outcome.convergence.factorizations ≤ outcome.accepted + 1 ∧
      ∃ laps : List (Search.Lap Float (CholeskySolver Float)), (Search.solvedPoints laps).Nodup ∧
        outcome.convergence.factorizations = (Search.solvedPoints laps).length % wordSize) ∧
    (∃ outcome session,
      (constantOne.solve { unitRadius with maxIterations := 3 } Clock.stopped false
        ⟨#[0]⟩).value.answer = .ok (outcome, session) ∧
      outcome.iterations = 3 ∧ (outcome.history.map fun a => a.lambda).Pairwise (· ≤ ·) ∧
      ∀ a ∈ outcome.history, a.lambda ≤ outcome.lambda) := by
  constructor
  · obtain ⟨⟨outcome, session⟩, h⟩ :
        ∃ result,
          ((squareIsTwo : Problem Float).solve
            { Settings.standard with maxIterations := 3, radius := 20.0 } Clock.stopped false
            ⟨#[0.25]⟩).value.answer = .ok result :=
      exists_eq_ok (by decide +kernel)
    have hundamped :
        (match ((squareIsTwo : Problem Float).solve
            { Settings.standard with maxIterations := 3, radius := 20.0 } Clock.stopped false
            ⟨#[0.25]⟩).value.answer with
          | .ok (outcome, _) => outcome.lambda == 0
          | .error _ => false) = true := by
      decide +kernel
    rw [h] at hundamped
    obtain ⟨first, laps, reason, s, -, -, -, hnodup, -, hcount, -⟩ :=
      solve_factorizations.1 _ _ _ _ _ _ _ h
    obtain ⟨hnone, hle⟩ := solve_factorizations.2.1 _ _ _ _ _ _ _ h hundamped
    rw [hnone, Nat.add_zero] at hcount
    exact ⟨outcome, session, h, hundamped, hle, laps, hnodup, hcount⟩
  · obtain ⟨outcome, session, h, hiterations, -⟩ := exists_solve_constantOne 3 false
    obtain ⟨-, hsorted, hle⟩ := solve_factorizations.2.2 _ _ _ _ _ _ _ h
    exact ⟨outcome, session, h, hiterations, hsorted, hle⟩

end Problem

end TrustRegion
