/-
Module: TrustRegion.Proofs.Step.Passes
Purpose: Computing a step as a loop that looks at what is known of the path, computes what is missing
  and looks again. The loop ends in at most three passes, whatever is known, and what it leaves behind
  is said for each of its ends: for a step, and for an error on the way to one.
Main exports: Workspace.pass, Workspace.passes, Workspace.passes_eq, Workspace.FailsTo,
  Workspace.failsTo_of_computeStep, Workspace.computeStep_of_reaches, Workspace.computeStep_leaves
-/
import TrustRegion.Linear.ThresholdSolver
import TrustRegion.Proofs.Step.Outcome

namespace TrustRegion

open Scalar

variable {α β : Type} [Scalar α] [LinearSolver α β]

/-- The end of the path cannot be computed if the damped normal matrix cannot be factored, or if it
can be and the system cannot be solved. -/
theorem gaussNewtonVector_eq_error {schedule : DampingSchedule α} {q : Linearization α}
    {damping damping' : Damping α} {backend backend' : β} {error : LinearError α} :
    (gaussNewtonVector schedule q damping backend).value = (.error error, damping', backend') ↔
      (factorizeDamped schedule q.jacobian q.id damping backend).value =
          (.error error, damping', backend') ∨
        ((factorizeDamped schedule q.jacobian q.id damping backend).value =
            (.ok (), damping', backend') ∧
          (LinearSolver.solve backend' q.gradient.neg).value = .error error) := by
  unfold gaussNewtonVector
  rcases (factorizeDamped schedule q.jacobian q.id damping backend) with ⟨events, answer, d, s⟩
  cases answer with
  | error e => simp
  | ok u =>
      simp only [Logged.value_bind, Logged.value_pure, Prod.mk.injEq, reduceCtorEq, false_and,
        false_or]
      constructor
      · rintro ⟨hsolve, rfl, rfl⟩
        exact ⟨⟨trivial, rfl, rfl⟩, hsolve⟩
      · rintro ⟨⟨-, rfl, rfl⟩, hsolve⟩
        exact ⟨hsolve, rfl, rfl⟩

namespace Workspace

/-! ### The loop -/

/-- One look at what is known of the path. What is missing first is computed, or else the step is
taken; a step or an error ends the loop. -/
def pass (schedule : DampingSchedule α) (radius : α) (w : Workspace α β) :
    Logged α (Option (Except (LinearError α) (Step α)) × Workspace α β) :=
  match w.point.cauchy, w.point.gaussNewton with
  | none, _ => do
      match ← cauchyVector w.backend w.point with
      | .error error => pure (some (.error error), w)
      | .ok v => pure (none, { w with point := { w.point with cauchy := some (Leg.ofVec v) } })
  | some cauchy, none =>
      if radius * radius ≤ cauchy.normSq then do
        Logged.emit (.cauchyBeyondRadius (sqrt cauchy.normSq) radius)
        pure (Prod.map some id (w.record (Step.clipped cauchy radius)))
      else do
        let (answer, damping, backend) ←
          gaussNewtonVector schedule w.point w.damping w.backend
        let w := { w with damping, backend }
        match answer with
        | .error error => pure (some (.error error), w)
        | .ok v =>
            pure (none, { w with point := { w.point with gaussNewton := some (Leg.ofVec v) } })
  | some cauchy, some gaussNewton =>
      pure (Prod.map some id (w.record (blend cauchy gaussNewton radius)))

/-- What follows a pass: nothing if it ended the loop, and otherwise what comes next. -/
def followUp (next : Workspace α β →
      Logged α (Option (Except (LinearError α) (Step α)) × Workspace α β)) :
    Option (Except (LinearError α) (Step α)) × Workspace α β →
      Logged α (Option (Except (LinearError α) (Step α)) × Workspace α β)
  | (some answer, w) => pure (some answer, w)
  | (none, w) => next w

/-- At most `n` passes, up to the first that ends the loop. -/
def passes (schedule : DampingSchedule α) (radius : α) :
    (n : Nat) → Workspace α β → Logged α (Option (Except (LinearError α) (Step α)) × Workspace α β)
  | 0, w => pure (none, w)
  | n + 1, w => w.pass schedule radius >>= followUp (passes schedule radius n)

/-- Computing a step, as something that ends the loop. -/
def ended (schedule : DampingSchedule α) (radius : α) (w : Workspace α β) :
    Logged α (Option (Except (LinearError α) (Step α)) × Workspace α β) :=
  Prod.map some id <$> w.computeStep schedule radius

variable {schedule : DampingSchedule α} {radius : α} {w w' : Workspace α β} {n : Nat}

/-- The number of legs that are not known. -/
def missing (w : Workspace α β) : Nat :=
  w.point.cauchy.isNone.toNat + w.point.gaussNewton.isNone.toNat

/-- A pass that does not end the loop makes one more leg known. -/
theorem missing_of_pass (h : (w.pass schedule radius).value = (none, w')) :
    w'.missing + 1 = w.missing := by
  unfold pass at h
  unfold missing
  cases hc : w.point.cauchy with
  | none =>
      cases hv : (cauchyVector w.backend w.point).value with
      | error error =>
          simp only [hc, Logged.value_bind, hv] at h
          cases h
      | ok v =>
          simp only [hc, Logged.value_bind, hv] at h
          cases h
          exact Nat.add_right_comm 0 _ 1
  | some c =>
      cases hg : w.point.gaussNewton with
      | some g =>
          simp only [hc, hg] at h
          cases h
      | none =>
          simp only [hc, hg] at h
          split at h
          · cases h
          · rcases hv : (gaussNewtonVector schedule w.point w.damping w.backend).value with
              ⟨answer, damping, backend⟩
            simp only [Logged.value_bind, hv] at h
            cases answer with
            | error error => cases h
            | ok v =>
                cases h
                rfl

/-- Computing a step is one pass and, unless that ends the loop, computing the step from there. -/
theorem ended_eq_pass (schedule : DampingSchedule α) (radius : α) (w : Workspace α β) :
    w.ended schedule radius = w.pass schedule radius >>= followUp (ended schedule radius) := by
  obtain ⟨backend, damping, number, state, residuals, cost, jacobian, gradient, cauchy, gaussNewton,
    reachedEdge⟩ := w
  cases cauchy with
  | none =>
      simp only [ended, pass, computeStep, ensureCauchy, map_bind, bind_assoc]
      apply bind_congr
      intro answer
      cases answer with
      | error error => rfl
      | ok v => rfl
  | some c =>
      cases gaussNewton with
      | some g => rfl
      | none =>
          by_cases hreach : radius * radius ≤ c.normSq
          · simp only [ended, pass, computeStep, ensureCauchy, hreach, Option.isNone_none, and_self,
              if_true, pure_bind, map_bind, bind_assoc]
            rfl
          · simp only [ended, pass, computeStep, ensureCauchy, ensureGaussNewton, hreach, and_false,
              if_false, pure_bind, map_bind, bind_assoc]
            apply bind_congr
            rintro ⟨answer, damping', backend'⟩
            cases answer with
            | error error => rfl
            | ok v => rfl

/-- As many passes as legs are missing, and one more, compute the step. -/
theorem passes_eq (h : w.missing < n) :
    w.passes schedule radius n = w.ended schedule radius := by
  induction n generalizing w with
  | zero => cases h
  | succ n ih =>
      rw [ended_eq_pass, passes]
      apply Logged.bind_congr_value
      rcases hpass : (w.pass schedule radius).value with ⟨answer, w'⟩
      cases answer with
      | some answer => rfl
      | none =>
          have hless := missing_of_pass hpass
          exact ih (by omega)

/-! ### What is left behind -/

/-- The ways to fail on the way to a step, and what each leaves of the workspace. -/
inductive FailsTo (schedule : DampingSchedule α) (radius : α) (w : Workspace α β) :
    LinearError α → Workspace α β → Prop where
  /-- The first leg is not known and cannot be computed. -/
  | firstLeg {error : LinearError α} (unknown : w.point.cauchy = none)
      (failed : (cauchyVector w.backend w.point).value = .error error) :
      FailsTo schedule radius w error w
  /-- The end of the path is needed and cannot be computed. -/
  | path {c : Leg α} {error : LinearError α} {damping : Damping α} {backend : β}
      (first : w.CauchyLeg c) (unknown : w.point.gaussNewton = none)
      (short : ¬ radius * radius ≤ c.normSq)
      (failed : (gaussNewtonVector schedule w.point w.damping w.backend).value =
        (.error error, damping, backend)) :
      FailsTo schedule radius w error
        { backend, damping, point := { w.point with cauchy := some c } }

/-- Making sure of the first leg fails only if it is not known, and then leaves no trace. -/
theorem of_ensureCauchy_error {error : LinearError α}
    (h : w.ensureCauchy.value = (.error error, w')) :
    w.point.cauchy = none ∧ (cauchyVector w.backend w.point).value = .error error ∧ w' = w := by
  unfold ensureCauchy at h
  cases hc : w.point.cauchy with
  | some c =>
      rw [hc] at h
      cases h
  | none =>
      cases hv : (cauchyVector w.backend w.point).value with
      | error e =>
          simp only [hc, Logged.value_bind, hv] at h
          cases h
          exact ⟨rfl, rfl, rfl⟩
      | ok v =>
          simp only [hc, Logged.value_bind, hv] at h
          cases h

/-- Making sure of the end of the path fails only if it is not known. -/
theorem of_ensureGaussNewton_error {error : LinearError α}
    (h : (w.ensureGaussNewton schedule).value = (.error error, w')) :
    w.point.gaussNewton = none ∧ ∃ damping backend,
      (gaussNewtonVector schedule w.point w.damping w.backend).value =
        (.error error, damping, backend) ∧ w' = { w with backend, damping } := by
  unfold ensureGaussNewton at h
  cases hg : w.point.gaussNewton with
  | some g =>
      rw [hg] at h
      cases h
  | none =>
      rcases hv : (gaussNewtonVector schedule w.point w.damping w.backend).value with
        ⟨answer, damping, backend⟩
      simp only [hg, Logged.value_bind, hv] at h
      cases answer with
      | ok v => cases h
      | error e =>
          cases h
          exact ⟨rfl, damping, backend, rfl, rfl⟩

/-- Computing a step fails in one of these ways. -/
theorem failsTo_of_computeStep {error : LinearError α}
    (h : (w.computeStep schedule radius).value = (.error error, w')) :
    w.FailsTo schedule radius error w' := by
  unfold computeStep at h
  rcases hfirst : w.ensureCauchy.value with ⟨answer, w₁⟩
  simp only [Logged.value_bind, hfirst] at h
  cases answer with
  | error e =>
      cases h
      obtain ⟨hunknown, hfailed, rfl⟩ := of_ensureCauchy_error hfirst
      exact .firstLeg hunknown hfailed
  | ok c =>
      obtain ⟨first, rfl⟩ := cauchyLeg_of_ensureCauchy hfirst
      dsimp only at h
      split at h
      · cases h
      · rename_i hlong
        rcases hlast : (ensureGaussNewton schedule
          { w with point := { w.point with cauchy := some c } }).value with ⟨answer, w₂⟩
        simp only [Logged.value_bind, hlast] at h
        cases answer with
        | ok g => cases h
        | error e =>
            cases h
            obtain ⟨hunknown, damping, backend, hfailed, rfl⟩ := of_ensureGaussNewton_error hlast
            have hshort : ¬ radius * radius ≤ c.normSq :=
              fun hreach => hlong ⟨Option.isNone_iff_eq_none.mpr hunknown, hreach⟩
            exact .path first hunknown hshort hfailed

/-- Where only the first leg is known and it reaches the boundary, it is cut off there. Nothing is
asked of linear algebra, and nothing but the note on the boundary changes. -/
theorem computeStep_of_reaches (schedule : DampingSchedule α) {c : Leg α}
    (first : w.point.cauchy = some c) (unknown : w.point.gaussNewton = none)
    (reaches : radius * radius ≤ c.normSq) :
    w.computeStep schedule radius =
      ⟨[.cauchyBeyondRadius (sqrt c.normSq) radius],
        (.ok (Step.clipped c radius), { w with point := { w.point with reachedEdge := true } })⟩ := by
  have hfirst : w.ensureCauchy = pure (.ok c, w) := by simp only [ensureCauchy, first]
  have hclip : w.point.gaussNewton.isNone = true ∧ radius * radius ≤ c.normSq :=
    ⟨Option.isNone_iff_eq_none.mpr unknown, reaches⟩
  rw [computeStep, hfirst, pure_bind]
  dsimp only
  rw [if_pos hclip]
  rfl

/-- A first leg that is known is the one that is used. -/
theorem CauchyLeg.eq_of_known {c : Leg α} (first : w.CauchyLeg c) :
    ∀ c', w.point.cauchy = some c' → c = c' := by
  intro c' known
  cases first with
  | known h => exact Option.some.inj (h.symm.trans known)
  | computed unknown _ =>
      rw [unknown] at known
      cases known

/-- Computing a step at a radius, whatever the scalars are, whatever does the linear algebra and
whatever is known of the path. The loop ends in at most three passes. With a step it leaves the first
leg known, what was known as it was, and the note on the boundary as the step has it. If the end of the
path was not known, it still is not exactly if the first leg reaches the boundary, and then the step is
that leg cut off there and the damping and the solver are untouched. An error of the factorization or of
the solution leaves the first leg known, the end of the path not known and the note on the boundary as
it was, so that later, at a radius that the first leg reaches, a step from the point is computed without
a factorization. Any other error is one of the first leg, which was not known, and changes nothing. -/
theorem computeStep_leaves (schedule : DampingSchedule α) (radius : α) (w : Workspace α β) :
    (∀ n, 3 ≤ n → w.passes schedule radius n = w.ended schedule radius) ∧
    (∀ step w', (w.computeStep schedule radius).value = (.ok step, w') →
      ∃ c, w'.point = { w.point with
          cauchy := some c, gaussNewton := w'.point.gaussNewton, reachedEdge := step.toEdge } ∧
        (∀ c', w.point.cauchy = some c' → c = c') ∧
        (∀ g, w.point.gaussNewton = some g → w'.point.gaussNewton = some g) ∧
        (w.point.gaussNewton = none →
          (w'.point.gaussNewton = none ↔ radius * radius ≤ c.normSq) ∧
          (radius * radius ≤ c.normSq → step = Step.clipped c radius ∧
            w'.damping = w.damping ∧ w'.backend = w.backend))) ∧
    (∀ error w', (w.computeStep schedule radius).value = (.error error, w') →
      (w.point.cauchy = none ∧ (cauchyVector w.backend w.point).value = .error error ∧ w' = w) ∨
      ((factorizeDamped schedule w.point.jacobian w.point.id w.damping w.backend).value =
            (.error error, w'.damping, w'.backend) ∨
          (factorizeDamped schedule w.point.jacobian w.point.id w.damping w.backend).value =
              (.ok (), w'.damping, w'.backend) ∧
            (LinearSolver.solve w'.backend w.point.gradient.neg).value = .error error) ∧
        w.point.gaussNewton = none ∧
        ∃ c, w'.point = { w.point with cauchy := some c } ∧
          (∀ c', w.point.cauchy = some c' → c = c') ∧
          ∀ (schedule' : DampingSchedule α) (radius' : α) (later : Workspace α β),
            later.point = w'.point → radius' * radius' ≤ c.normSq →
              later.computeStep schedule' radius' =
                ⟨[.cauchyBeyondRadius (sqrt c.normSq) radius'],
                  (.ok (Step.clipped c radius'),
                    { later with point := { later.point with reachedEdge := true } })⟩) := by
  refine ⟨?_, ?_, ?_⟩
  · intro n hn
    apply passes_eq
    have hcauchy := Bool.toNat_le w.point.cauchy.isNone
    have hgaussNewton := Bool.toNat_le w.point.gaussNewton.isNone
    unfold missing
    omega
  · intro step w' hstep
    cases stepsTo_of_computeStep hstep with
    | @clipped c first unknown reaches =>
        refine ⟨c, rfl, first.eq_of_known, ?_, fun _ => ⟨iff_of_true rfl reaches, fun _ => ⟨rfl, rfl, rfl⟩⟩⟩
        intro g known
        rw [unknown] at known
        cases known
    | @reused c g first known =>
        refine ⟨c, rfl, first.eq_of_known, fun g' hg' => ?_, ?_⟩
        · rw [← hg', known]
          rfl
        · intro unknown
          rw [unknown] at known
          cases known
    | @factored c v damping backend first unknown short computed =>
        refine ⟨c, rfl, first.eq_of_known, ?_, fun _ =>
          ⟨iff_of_false (Option.some_ne_none _) short, fun reaches => absurd reaches short⟩⟩
        intro g known
        rw [unknown] at known
        cases known
  · intro error w' herror
    cases failsTo_of_computeStep herror with
    | firstLeg unknown failed => exact .inl ⟨unknown, failed, rfl⟩
    | @path c error damping backend first unknown short failed =>
        refine .inr ⟨gaussNewtonVector_eq_error.mp failed, unknown, c, rfl, first.eq_of_known, ?_⟩
        intro schedule' radius' later hpoint reaches
        apply computeStep_of_reaches schedule' _ _ reaches
        · rw [hpoint]
        · rw [hpoint]
          exact unknown

/-- A point with a gradient of three and a solver that factors from a damping of five upwards. -/
def threeAndFive : Workspace Float (ThresholdSolver Float) where
  backend := ThresholdSolver.new 5.0 none
  damping := Damping.none
  point :=
    { id := 7
      state := ⟨#[0.0]⟩
      residuals := ⟨#[3.0]⟩
      cost := 9.0
      jacobian := .sparse ⟨1, 1, [], .empty 1 1⟩
      gradient := ⟨#[3.0]⟩
      cauchy := none
      gaussNewton := none
      reachedEdge := false }

/-- Without a raise the request at a radius of ten is refused. It leaves the first leg, and at a radius of
two a step is computed from the same point without another request. -/
theorem computeStep_leaves_threeAndFive :
    ∃ error w' step w'', (threeAndFive.computeStep ⟨1.0, 10.0, 0⟩ 10.0).value = (.error error, w') ∧
      w'.point.gaussNewton = none ∧ w'.point.reachedEdge = false ∧
      (w'.computeStep ⟨1.0, 10.0, 0⟩ 2.0).value = (.ok step, w'') ∧ w''.point.gaussNewton = none ∧
      w''.point.reachedEdge = true ∧ w''.backend = w'.backend ∧ w''.damping = w'.damping := by
  rcases hfirst : (threeAndFive.computeStep ⟨1.0, 10.0, 0⟩ 10.0).value with ⟨answer, w'⟩
  have hrefused : (threeAndFive.computeStep ⟨1.0, 10.0, 0⟩ 10.0).value.1.isOk = false := by
    decide +kernel
  rw [hfirst] at hrefused
  cases answer with
  | ok step => cases hrefused
  | error error =>
      obtain ⟨-, -, herror⟩ := computeStep_leaves ⟨1.0, 10.0, 0⟩ 10.0 threeAndFive
      rcases herror error w' hfirst with ⟨-, hcauchy, -⟩ | ⟨-, hunknown, c, hpoint, -, hlater⟩
      · have hok : (cauchyVector threeAndFive.backend threeAndFive.point).value.isOk = true := by
          decide +kernel
        rw [hcauchy] at hok
        cases hok
      · have hlong : ((threeAndFive.computeStep ⟨1.0, 10.0, 0⟩ 10.0).value.2.point.cauchy.any
            fun c => decide (2.0 * 2.0 ≤ c.normSq)) = true := by decide +kernel
        rw [hfirst, hpoint] at hlong
        have hreaches : 2.0 * 2.0 ≤ c.normSq := of_decide_eq_true hlong
        have hcut := congrArg Logged.value (hlater ⟨1.0, 10.0, 0⟩ 2.0 w' rfl hreaches)
        have hstill : w'.point.gaussNewton = none := by
          rw [hpoint]
          exact hunknown
        obtain ⟨-, hstep, -⟩ := computeStep_leaves ⟨1.0, 10.0, 0⟩ 2.0 w'
        obtain ⟨c', -, hknown, -, hlazy⟩ := hstep _ _ hcut
        obtain rfl : c' = c := hknown c (by rw [hpoint])
        obtain ⟨hnone, huntouched⟩ := hlazy hstill
        obtain ⟨-, hdamping, hbackend⟩ := huntouched hreaches
        refine ⟨error, w', _, _, rfl, hstill, ?_, hcut, hnone.mpr hreaches, rfl, hbackend, hdamping⟩
        rw [hpoint]
        rfl

end Workspace

end TrustRegion
