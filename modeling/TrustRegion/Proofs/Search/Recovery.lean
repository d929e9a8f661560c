/-
Module: TrustRegion.Proofs.Search.Recovery
Purpose: A search never runs out of damping when nothing rounds. At a point for which no factorization
  is held, the first number of the schedule is enough, and it is taken only if there was no damping and
  the columns of the Jacobian depend on each other. So the damping of a search is zero until some point
  needs it and the first number of the schedule ever after.
Main exports: Workspace.Sound.lambda_stepsTo, Problem.Run.lambda_round, Problem.Run.lambda_mem,
  Problem.Run.lambda_history, Problem.Recovers, damping_recovers_unless_resized
-/
import TrustRegion.Proofs.Linear.Analysis
import TrustRegion.Proofs.Linear.Recovery
import TrustRegion.Proofs.Search.Failure
import TrustRegion.Proofs.Search.Region
import TrustRegion.Proofs.Search.Sound

namespace TrustRegion

/-- The two numbers on the diagonal that a schedule reaches: none, and its first one. -/
def DampingSchedule.Reaches (schedule : DampingSchedule ℝ) (lambda : ℝ) : Prop :=
  lambda = 0 ∨ lambda = schedule.initial

/-- How the damping can go on: it stays as it is, or the first number of the schedule follows none. -/
def DampingSchedule.Follows (schedule : DampingSchedule ℝ) (lambda next : ℝ) : Prop :=
  next = lambda ∨ (lambda = 0 ∧ next = schedule.initial)

namespace DampingSchedule

variable {schedule : DampingSchedule ℝ} {lambda next : ℝ}

theorem Follows.reaches (h : schedule.Follows lambda next) (before : schedule.Reaches lambda) :
    schedule.Reaches next := by
  rcases h with rfl | ⟨-, rfl⟩
  · exact before
  · exact .inr rfl

theorem Follows.le (h : schedule.Follows lambda next) (initial : 0 < schedule.initial) :
    lambda ≤ next := by
  rcases h with rfl | ⟨rfl, rfl⟩
  · exact le_rfl
  · exact initial.le

end DampingSchedule

/-- A request that recovers lets the damping go on by the schedule. -/
theorem Recovered.follows {schedule : DampingSchedule ℝ} {j : Jacobian ℝ} {before after : Damping ℝ}
    {raises : ℕ} (h : Recovered schedule j before raises after) :
    schedule.Follows before.lambda after.lambda := by
  cases h with
  | kept enough => exact .inl rfl
  | raised undamped dependent => exact .inr ⟨undamped, rfl⟩

/-! ### Steps -/

namespace Workspace.Sound

variable {m n : ℕ} {w w' : Workspace ℝ (CholeskySolver ℝ)} {schedule : DampingSchedule ℝ}
  {radius : ℝ} {step : Step ℝ}

/-- Making sure of the factorization at the point lets the damping go on by the schedule. -/
theorem lambda_factorizeDamped (h : w.Sound m n) (initial : 0 < schedule.initial)
    (room : 1 ≤ schedule.maxAttempts) {answer : Except (LinearError ℝ) Unit} {d : Damping ℝ}
    {s : CholeskySolver ℝ}
    (made : (factorizeDamped schedule w.point.jacobian w.point.id w.damping w.backend).value =
      (answer, d, s)) : schedule.Follows w.damping.lambda d.lambda := by
  have hadmits : w.backend.Admits w.point.jacobian := h.suits.admits h.fits.cols
  have hkind : w.point.jacobian.storage = w.backend.storage := h.suits.storage.symm
  by_cases hheld : w.backend.key = some ⟨w.point.id, w.damping.lambda⟩
  · obtain ⟨s', -, hexact⟩ :=
      hadmits.factorizeDamped_exact schedule hkind w.point.id w.damping
    rw [DampingSchedule.serve, if_pos hheld] at hexact
    rw [hexact] at made
    cases made
    exact .inl rfl
  · -- a key for the point would be the one that is looked for
    have hunheld : ∀ mu, w.backend.key ≠ some ⟨w.point.id, mu⟩ := by
      intro mu hmu
      obtain ⟨rfl, -⟩ := h.held mu hmu
      exact hheld hmu
    obtain ⟨d', s', hvalue, hrecovered, -⟩ :=
      factorizeDamped_recovered hadmits hkind hunheld initial room h.nonneg
    rw [hvalue] at made
    cases made
    exact hrecovered.follows

/-- Computing a step does. -/
theorem lambda_stepsTo (h : w.Sound m n) (initial : 0 < schedule.initial)
    (room : 1 ≤ schedule.maxAttempts) (computed : w.StepsTo schedule radius step w') :
    schedule.Follows w.damping.lambda w'.damping.lambda := by
  cases computed with
  | clipped first unknown reaches => exact .inl rfl
  | reused first known => exact .inl rfl
  | factored first unknown short computed =>
      exact h.lambda_factorizeDamped initial room (gaussNewtonVector_eq_ok computed).1

end Workspace.Sound

/-! ### Runs -/

namespace Problem

variable {p : Problem ℝ} {settings : Settings ℝ} {clock : Clock} {state : Vec ℝ}
  {points : List (Linearization ℝ)} {reason : Option StopReason}
  {s s' : Search ℝ (CholeskySolver ℝ)} {r : Search.Round ℝ (CholeskySolver ℝ)}

/-- A step can be computed from every search of a run, and the damping goes on by the schedule. -/
theorem Run.lambda_computeStep (h : p.Run settings clock state points reason s)
    (room : 1 ≤ settings.damping.maxAttempts) :
    ∃ step w, (s.session.workspace.computeStep settings.damping s.session.radius).value =
        (.ok step, w) ∧ settings.damping.Follows s.session.lambda w.damping.lambda := by
  obtain ⟨step, w, hstep⟩ := h.sound.exists_stepsTo h.usable.damping room s.session.radius
  exact ⟨step, w, Workspace.computeStep_of_stepsTo hstep,
    h.sound.lambda_stepsTo h.usable.damping.initial room hstep⟩

/-- The damping after a round is the one that its step was computed with, and that is what the round
records. -/
theorem Run.lambda_round (before : p.Run settings clock state points none s)
    (one : 1 ≤ settings.damping.maxAttempts) (attempted : s.Attempts clock r reason s') :
    settings.damping.Follows s.session.lambda s'.session.lambda ∧
      ∃ a : Attempt ℝ, s'.history = a :: s.history ∧ a.lambda = s'.session.lambda := by
  obtain ⟨-, rfl⟩ := attempted.lap
  obtain ⟨step, w, hcomputed, hfollows⟩ := before.lambda_computeStep one
  have hround := attempted.computed
  rw [before.settings_eq, hcomputed] at hround
  cases hround
  exact ⟨hfollows, _, rfl, rfl⟩

/-- The damping of a run is zero or the first number of the schedule. -/
theorem Run.lambda_reaches (h : p.Run settings clock state points reason s)
    (one : 1 ≤ settings.damping.maxAttempts) : settings.damping.Reaches s.session.lambda := by
  induction h with
  | opening valid built asked first => exact .inl rfl
  | round before room attempted ih => exact (before.lambda_round one attempted).1.reaches ih

/-- The attempts of a run record dampings that never fall, the latest first, each of them zero or the
first number of the schedule. -/
theorem Run.lambda_history (h : p.Run settings clock state points reason s)
    (one : 1 ≤ settings.damping.maxAttempts) :
    (∀ a ∈ s.history, settings.damping.Reaches a.lambda ∧ a.lambda ≤ s.session.lambda) ∧
      s.history.Pairwise fun a b => b.lambda ≤ a.lambda := by
  induction h with
  | opening valid built asked first => exact ⟨fun a ha => (nomatch ha), .nil⟩
  | @round points s s' r reason before room attempted ih =>
      obtain ⟨hfollows, a, ha, hlambda⟩ := before.lambda_round one attempted
      have hle : s.session.lambda ≤ s'.session.lambda :=
        hfollows.le before.usable.damping.initial
      rw [ha]
      constructor
      · intro b hb
        rcases List.mem_cons.mp hb with rfl | hold
        · rw [hlambda]
          exact ⟨(before.round room attempted).lambda_reaches one, le_rfl⟩
        · exact ⟨(ih.1 b hold).1, (ih.1 b hold).2.trans hle⟩
      · refine .cons ?_ ih.2
        intro b hb
        rw [hlambda]
        exact (ih.1 b hb).2.trans hle

/-- Where the damping may be raised once, nothing fails for want of damping. -/
theorem Fails.not_exhausted {calls attempts : ℕ} {lambda : ℝ}
    (one : 1 ≤ settings.damping.maxAttempts) :
    ¬ p.Fails settings clock state calls
      (.search (.linear (.dampingExhausted attempts lambda))) := by
  intro hfails
  cases hfails with
  | damping before room failed =>
      obtain ⟨step, w, hcomputed, -⟩ := before.lambda_computeStep one
      rw [hcomputed] at failed
      cases failed

/-- A search that may raise its damping once does not end for want of damping. -/
theorem answer_ne_exhausted (one : 1 ≤ settings.damping.maxAttempts) (debugHeard : Bool)
    (attempts : ℕ) (lambda : ℝ) :
    (p.solve settings clock debugHeard state).value.answer ≠
      .error (.search (.linear (.dampingExhausted attempts lambda))) := by
  intro hfailed
  rcases fails_of_solve hfailed with ⟨-, hfails⟩ | ⟨iterations, heq, -⟩
  · exact Fails.not_exhausted one hfails
  · cases heq

/-- What it means for a search never to run out of damping. -/
structure Recovers (p : Problem ℝ) (settings : Settings ℝ) (clock : Clock) (state : Vec ℝ) :
    Prop where
  /-- No search ends because the damping was used up. -/
  succeeds : ∀ debugHeard attempts lambda,
    (p.solve settings clock debugHeard state).value.answer ≠
      .error (.search (.linear (.dampingExhausted attempts lambda)))
  /-- The damping is zero or the first number of the schedule at any time. -/
  values : ∀ points reason s, p.Run settings clock state points reason s →
    s.session.lambda = 0 ∨ s.session.lambda = settings.damping.initial
  /-- No round lowers it. -/
  rises : ∀ points s r reason s', p.Run settings clock state points none s →
    s.Attempts clock r reason s' → s.session.lambda ≤ s'.session.lambda
  /-- A result tells so, with the attempts in order. -/
  recorded : ∀ debugHeard outcome session,
    (p.solve settings clock debugHeard state).value.answer = .ok (outcome, session) →
      (∀ a ∈ outcome.history, a.lambda = 0 ∨ a.lambda = settings.damping.initial) ∧
      (outcome.lambda = 0 ∨ outcome.lambda = settings.damping.initial) ∧
      (outcome.history.map (·.lambda) ++ [outcome.lambda]).Pairwise (· ≤ ·)

/-- No search that may raise its damping once runs out of it. -/
theorem recovers (p : Problem ℝ) (settings : Settings ℝ) (clock : Clock) (state : Vec ℝ)
    (one : 1 ≤ settings.damping.maxAttempts) : p.Recovers settings clock state where
  succeeds := answer_ne_exhausted one
  values _ _ _ h := h.lambda_reaches one
  rises _ _ _ _ _ before attempted :=
    (before.lambda_round one attempted).1.le before.usable.damping.initial
  recorded debugHeard outcome session ok := by
    obtain ⟨points, reason, s, hrun, rfl, rfl, -⟩ := ended_run_of_solve ok
    obtain ⟨hrecorded, hordered⟩ := hrun.lambda_history one
    have hhistory (reason : StopReason) : (s.outcome clock reason).history = s.history.reverse := rfl
    rw [hhistory]
    refine ⟨?_, hrun.lambda_reaches one, ?_⟩
    · intro a ha
      exact (hrecorded a (List.mem_reverse.mp ha)).1
    · rw [List.pairwise_append]
      refine ⟨?_, List.pairwise_singleton _ _, ?_⟩
      · rw [List.pairwise_map, List.pairwise_reverse]
        exact hordered
      · intro x hx y hy
        obtain ⟨a, ha, rfl⟩ := List.mem_map.mp hx
        obtain rfl := List.mem_singleton.mp hy
        exact (hrecorded a (List.mem_reverse.mp ha)).2

end Problem

/-- When damping that may be raised once recovers. For every Jacobian and every solver of its kind that
holds no factorization for the point, one is made with the damping there is, if that is positive or the
columns are independent, and otherwise with the first number of the schedule, by at most one request
more. The one exception: if the solver kept an analysis for the same pattern and another number of
states, the first request breaks off and nothing is held. A search keeps to one number of states, so
none with such a schedule runs out of damping. -/
theorem damping_recovers_unless_resized (schedule : DampingSchedule ℝ)
    (room : 1 ≤ schedule.maxAttempts) :
    (∀ (j : Jacobian ℝ) (s : CholeskySolver ℝ) (point : ℕ) (damping : Damping ℝ),
      0 < schedule.initial → 0 ≤ damping.lambda → j.storage = s.storage →
      (∀ mu, s.key ≠ some ⟨point, mu⟩) →
      (s.Admits j →
        ∃ d s', (factorizeDamped schedule j point damping s).value = (.ok (), d, s') ∧
          (0 < damping.lambda ∨ j.FullColumnRank → d.lambda = damping.lambda) ∧
          (¬ (0 < damping.lambda ∨ j.FullColumnRank) → d.lambda = schedule.initial) ∧
          (factorizeDamped schedule j point damping s).raises ≤ 1 ∧
          (d.factorizations = successorWord damping.factorizations ∨
            d.factorizations = successorWord (successorWord damping.factorizations))) ∧
      (¬ s.Admits j →
        ∃ analysed s', analysed ≠ j.stored.cols ∧ s'.key = none ∧
          (factorizeDamped schedule j point damping s).value =
            (.error (.analysisUnfit analysed j.stored.cols),
              { damping with factorizations := successorWord damping.factorizations }, s') ∧
          (factorizeDamped schedule j point damping s).raises = 0)) ∧
    ∀ (p : Problem ℝ) (settings : Settings ℝ) (clock : Clock) (state : Vec ℝ),
      settings.damping = schedule → p.Recovers settings clock state := by
  constructor
  · intro j s point damping initial nonneg kind unheld
    refine ⟨fun admits => ?_, fun refused =>
      factorizeDamped_of_not_admits schedule damping kind refused unheld⟩
    obtain ⟨d, s', hvalue, hrecovered, -⟩ :=
      factorizeDamped_recovered admits kind unheld initial room nonneg
    refine ⟨d, s', hvalue, ?_⟩
    generalize (factorizeDamped schedule j point damping s).raises = raises at hrecovered ⊢
    cases hrecovered with
    | kept enough =>
        exact ⟨fun _ => rfl, fun hnot => absurd enough hnot, Nat.zero_le 1, .inl rfl⟩
    | raised undamped dependent =>
        refine ⟨fun henough => ?_, fun _ => rfl, le_rfl, .inr rfl⟩
        rw [undamped] at henough
        exact absurd henough (not_or.mpr ⟨lt_irrefl 0, dependent⟩)
  · rintro p settings clock state rfl
    exact p.recovers settings clock state room

/-- A Jacobian whose only column is zero. -/
noncomputable def zeroColumn : Jacobian ℝ :=
  .dense (Matrix.ofFn 1 1 fun _ _ => 0)

theorem not_fullColumnRank_zeroColumn : ¬ zeroColumn.FullColumnRank := by
  intro hrank
  have hcolumn : (fun r : Fin zeroColumn.stored.rows => zeroColumn.slope r 0) = 0 := by
    funext r
    show Entry.value (StoredMatrix.stored (StoredMatrix.ofFull (Matrix.ofFn 1 1 fun _ _ => 0)) r 0)
      = 0
    have hrow : (r : ℕ) < 1 := r.isLt
    rw [StoredMatrix.stored_ofFull, Matrix.cell?_ofFn hrow Nat.one_pos]
    rfl
  exact hrank.ne_zero ⟨0, Nat.one_pos⟩ hcolumn

open CholeskySolver in
/-- The factorization for a column of zeros is made with the first number of the schedule. One for two
states breaks off if one for a single state with the same pattern was made before, also when that is
forgotten. A search with the standard settings does not run out of damping. -/
theorem damping_recovers_zeroColumn :
    (∃ (d : Damping ℝ) (s' : CholeskySolver ℝ),
      (factorizeDamped DampingSchedule.standard zeroColumn 0 Damping.none
        (CholeskySolver.new .dense : CholeskySolver ℝ)).value = (.ok (), d, s') ∧
      d.lambda = (DampingSchedule.standard : DampingSchedule ℝ).initial) ∧
    (∃ (analysed : ℕ) (d : Damping ℝ) (s' : CholeskySolver ℝ), analysed ≠ 2 ∧
      (factorizeDamped DampingSchedule.standard (.sparse (firstOnly 2)) 1 Damping.none
        (after .sparse [.factorize (.sparse (firstOnly 1)) ⟨0, 1⟩, .invalidate])).value =
          (.error (.analysisUnfit analysed 2), d, s')) ∧
    ∀ debugHeard attempts lambda,
      (Problem.constantOne.solve Settings.standard Clock.stopped debugHeard ⟨#[0]⟩).value.answer ≠
        .error (.search (.linear (.dampingExhausted attempts lambda))) := by
  have hinitial : 0 < (DampingSchedule.standard : DampingSchedule ℝ).initial := by
    norm_num [DampingSchedule.standard]
  have hroom : 1 ≤ (DampingSchedule.standard : DampingSchedule ℝ).maxAttempts := by decide
  obtain ⟨hrecovers, hsearches⟩ := damping_recovers_unless_resized DampingSchedule.standard hroom
  refine ⟨?_, ?_,
    (hsearches Problem.constantOne Settings.standard Clock.stopped ⟨#[0]⟩ rfl).succeeds⟩
  · obtain ⟨d, s', hvalue, -, hraised, -⟩ := (hrecovers zeroColumn (new .dense) 0 Damping.none
      hinitial le_rfl rfl fun mu hmu => by cases hmu).1 (admits_new .dense zeroColumn)
    refine ⟨d, s', hvalue, hraised ?_⟩
    rintro (hdamped | hrank)
    · exact lt_irrefl 0 hdamped
    · exact not_fullColumnRank_zeroColumn hrank
  · have hrefused : ¬ (after .sparse [.factorize (.sparse (firstOnly 1)) ⟨0, 1⟩,
        .invalidate]).Admits (.sparse (firstOnly 2)) := fun hadmits =>
      absurd (hadmits rfl _ (symbolic_after_firstOnly ⟨0, 1⟩)) (by decide)
    obtain ⟨analysed, s', hsize, -, hvalue, -⟩ := (hrecovers (.sparse (firstOnly 2)) _ 1
      Damping.none hinitial le_rfl (keepsAnalysis_after _).1.symm fun mu hmu => by cases hmu).2
      hrefused
    exact ⟨analysed, _, s', hsize, hvalue⟩

end TrustRegion
