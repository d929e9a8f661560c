/-
Module: TrustRegion.Proofs.Search.Sound
Purpose: What every workspace of a search holds when nothing rounds: a point whose parts fit, legs that
  are the true ones where they are known, and linear algebra that suits the problem. From such a
  workspace a step can always be computed, and an attempt comes to its end wherever the callback
  answers.
Main exports: Workspace.Sound, Workspace.Sound.steps, Workspace.Sound.predicts,
  Workspace.Sound.exists_stepsTo, Workspace.Sound.stepsTo, Search.exists_attempts, Search.Attempts.exact, Problem.Run.sound
-/
import TrustRegion.Proofs.Search.Freshness
import TrustRegion.Proofs.Step.Promise

namespace TrustRegion

namespace Linearization

variable {m n : ℕ} {q q' : Linearization ℝ}

/-- What fits does so whatever is known of the legs. -/
theorem Fits.of_bare_eq (h : q.Fits m n) (bare : q'.bare = q.bare) : q'.Fits m n := by
  obtain ⟨-, hstate, hresiduals, hcost, hjacobian, hgradient⟩ := parts_of_bare_eq bare
  exact
    { state := by rw [hstate, h.state]
      residuals := by rw [hresiduals, h.residuals]
      rows := by rw [hjacobian, h.rows]
      cols := by rw [hjacobian, h.cols]
      gradient := by rw [hgradient, hjacobian, hresiduals, h.gradient]
      cost := by rw [hcost, hresiduals, h.cost] }

/-- The linear model at a point does not depend on what is known of the legs. -/
theorem Fits.model_eq (h : q.Fits m n) (h' : q'.Fits m n) (bare : q'.bare = q.bare) :
    h'.model = h.model := by
  obtain ⟨-, -, hresiduals, -, hjacobian, hgradient⟩ := parts_of_bare_eq bare
  unfold Fits.model
  simp only [hresiduals, hjacobian, hgradient]

theorem Newton.of_bare_eq {lambda : ℝ} {v : Vec ℝ} (h : q.Newton lambda v)
    (bare : q'.bare = q.bare) : q'.Newton lambda v := by
  obtain ⟨-, -, -, -, hjacobian, hgradient⟩ := parts_of_bare_eq bare
  refine ⟨?_, ?_, ?_⟩
  · rw [hjacobian]
    exact h.definite
  · rw [hjacobian]
    exact h.size
  · rw [hjacobian, hgradient]
    exact h.solves

end Linearization

namespace Workspace

variable {m n : ℕ} {w w' : Workspace ℝ (CholeskySolver ℝ)} {schedule : DampingSchedule ℝ}
  {radius : ℝ} {step : Step ℝ}

/-- A workspace in which everything is what it should be: the point fits, the solver suits it, a
factorization under the key of the point is one of its Jacobian, and the legs are the true ones where
they are known. -/
structure Sound (m n : ℕ) (w : Workspace ℝ (CholeskySolver ℝ)) : Prop where
  fits : w.point.Fits m n
  suits : w.backend.Suits w.point.jacobian.storage n
  nonneg : 0 ≤ w.damping.lambda
  held : ∀ mu, w.backend.key = some ⟨w.point.id, mu⟩ →
    mu = w.damping.lambda ∧ w.backend.Holds w.point.jacobian mu
  cauchy : ∀ c, w.point.cauchy = some c → ∃ v, c = Leg.ofVec v ∧ fits.CauchyEnd v
  gaussNewton : ∀ g, w.point.gaussNewton = some g →
    ∃ v, g = Leg.ofVec v ∧ w.point.Newton w.damping.lambda v

namespace Sound

/-- The first leg can be had, and it is the true one. -/
theorem exists_cauchyLeg (h : w.Sound m n) :
    ∃ v, h.fits.CauchyEnd v ∧ ∀ c, w.CauchyLeg c ↔ c = Leg.ofVec v := by
  obtain ⟨v, hv, hend⟩ := cauchyVector_exact h.fits h.suits.storage.symm
  refine ⟨v, hend, fun c => ⟨?_, ?_⟩⟩
  · intro hleg
    cases hleg with
    | known hc =>
        obtain ⟨v', rfl, hend'⟩ := h.cauchy c hc
        rw [hend'.eq hend]
    | computed _ hv' =>
        rw [hv] at hv'
        cases hv'
        rfl
  · rintro rfl
    cases hc : w.point.cauchy with
    | none => exact .computed hc hv
    | some c =>
        obtain ⟨v', rfl, hend'⟩ := h.cauchy c hc
        rw [hend'.eq hend] at hc
        exact .known hc

/-- What a computed step is: the first leg cut off, with nothing factored, or a blend of the true
legs, for a damping that was not raised unless it had to be. -/
theorem steps (h : w.Sound m n) (usable : schedule.Usable)
    (hstep : w.StepsTo schedule radius step w') :
    ∃ v, h.fits.CauchyEnd v ∧ w'.point.cauchy = some (Leg.ofVec v) ∧ step.update.size = n ∧
      w'.backend.Suits w.point.jacobian.storage n ∧ 0 ≤ w'.damping.lambda ∧
      ((w.point.gaussNewton = none ∧ radius * radius ≤ (Leg.ofVec v).normSq ∧
          step = Step.clipped (Leg.ofVec v) radius ∧ w'.damping = w.damping ∧
          w'.point.gaussNewton = none) ∨
        ∃ g, w.point.Newton w'.damping.lambda g ∧ step = blend (Leg.ofVec v) (Leg.ofVec g) radius ∧
          w'.point.gaussNewton = some (Leg.ofVec g) ∧
          (w.point.gaussNewton = none → ¬ radius * radius ≤ (Leg.ofVec v).normSq) ∧
          (w.point.jacobian.Definite w.damping.lambda →
            w'.damping.lambda = w.damping.lambda)) := by
  obtain ⟨v, hend, hleg⟩ := h.exists_cauchyLeg
  refine ⟨v, hend, ?_⟩
  cases hstep with
  | @clipped c first unknown reaches =>
      obtain rfl := (hleg c).mp first
      exact ⟨rfl, (toEuclidean_clipped hend radius).1, h.suits, h.nonneg,
        .inl ⟨unknown, reaches, rfl, rfl, rfl⟩⟩
  | @reused c g first known =>
      obtain rfl := (hleg c).mp first
      obtain ⟨g, rfl, hnewton⟩ := h.gaussNewton g known
      refine ⟨rfl, size_blend hend.size (hnewton.size.trans h.fits.cols) radius, h.suits, h.nonneg,
        .inr ⟨g, hnewton, rfl, rfl, fun unknown => ?_, fun _ => rfl⟩⟩
      rw [known] at unknown
      cases unknown
  | @factored c g damping backend first unknown short computed =>
      obtain rfl := (hleg c).mp first
      obtain ⟨s', hsuits, ⟨g', d, hserve, hnewton, -, hvalue⟩ | ⟨e, d, -, hvalue⟩⟩ :=
        gaussNewtonVector_exact usable h.suits rfl h.fits.cols h.fits.size_gradient h.nonneg
          fun mu hmu => (h.held mu hmu).2
      · rw [hvalue] at computed
        cases computed
        have hmade := (gaussNewtonVector_eq_ok hvalue).1
        refine ⟨rfl, size_blend hend.size (hnewton.size.trans h.fits.cols) radius, hsuits, ?_,
          .inr ⟨g, hnewton, rfl, rfl, fun _ => short, fun definite => ?_⟩⟩
        · rcases factorizeDamped_cases usable h.nonneg hmade with ⟨-, rfl, -⟩ | ⟨-, hnonneg, -⟩
          · exact h.nonneg
          · exact hnonneg
        · exact DampingSchedule.serve_of_definite definite hserve
      · rw [hvalue] at computed
        cases computed

/-- What is predicted for a computed step is what the linear model promises. -/
theorem predicts (h : w.Sound m n) (usable : schedule.Usable)
    (hstep : w.StepsTo schedule radius step w') :
    w'.point.Fits m n ∧ (predictedImprovement w'.backend w'.point step.update).value =
      .ok (h.fits.model.promise (step.update.toEuclidean n)) := by
  obtain ⟨v, -, -, hsize, hsuits, -⟩ := h.steps usable hstep
  have hbare := hstep.bare_eq
  obtain ⟨-, -, -, -, hjacobian, -⟩ := Linearization.parts_of_bare_eq hbare
  have hfits := h.fits.of_bare_eq hbare
  have hkind : w'.point.jacobian.storage = w'.backend.storage := by
    rw [hjacobian, hsuits.storage]
  refine ⟨hfits, ?_⟩
  rw [predictedImprovement_exact hfits hkind hsize, h.fits.model_eq hfits hbare]

/-- A step can be computed if the damping may grow once. -/
theorem exists_stepsTo (h : w.Sound m n) (usable : schedule.Usable) (room : 1 ≤ schedule.maxAttempts)
    (radius : ℝ) : ∃ step w', w.StepsTo schedule radius step w' := by
  obtain ⟨v, hend, hleg⟩ := h.exists_cauchyLeg
  have first : w.CauchyLeg (Leg.ofVec v) := (hleg _).mpr rfl
  cases hg : w.point.gaussNewton with
  | some g => exact ⟨_, _, .reused first hg⟩
  | none =>
      by_cases hreaches : radius * radius ≤ (Leg.ofVec v).normSq
      · exact ⟨_, _, .clipped first hg hreaches⟩
      · obtain ⟨s', hsuits, ⟨g, d, -, -, -, hvalue⟩ | ⟨e, d, hserve, -⟩⟩ :=
          gaussNewtonVector_exact usable h.suits rfl h.fits.cols h.fits.size_gradient h.nonneg
            fun mu hmu => (h.held mu hmu).2
        · exact ⟨_, _, .factored first hg hreaches hvalue⟩
        · have hpositive (lambda : ℝ) (hlambda : 0 < lambda) : w.point.jacobian.Definite lambda :=
            w.point.jacobian.positiveDefinite_gram_of_pos hlambda
          obtain ⟨d', hok⟩ := DampingSchedule.exists_serve_eq_ok usable hpositive h.nonneg room
          rw [hok] at hserve
          cases hserve

/-- A factorization that is held after a step is computed is the one for the point and the damping. -/
theorem held_stepsTo (h : w.Sound m n) (usable : schedule.Usable)
    (hstep : w.StepsTo schedule radius step w') {mu : ℝ}
    (key : w'.backend.key = some ⟨w.point.id, mu⟩) :
    mu = w'.damping.lambda ∧ w'.backend.Holds w.point.jacobian mu := by
  cases hstep with
  | clipped first unknown reaches => exact h.held mu key
  | reused first known => exact h.held mu key
  | factored first unknown short computed =>
      have hmade := (gaussNewtonVector_eq_ok computed).1
      rcases factorizeDamped_cases usable h.nonneg hmade with
        ⟨-, rfl, rfl, -⟩ | ⟨-, -, ⟨-, hkey, hholds⟩ | ⟨⟨e, he⟩, -⟩⟩
      · exact h.held mu key
      · cases hkey.symm.trans key
        exact ⟨rfl, hholds⟩
      · cases he

/-- Computing a step keeps a workspace sound. -/
theorem stepsTo (h : w.Sound m n) (usable : schedule.Usable)
    (hstep : w.StepsTo schedule radius step w') : w'.Sound m n := by
  obtain ⟨v, hend, hknown, -, hsuits, hnonneg, hcases⟩ := h.steps usable hstep
  have hbare := hstep.bare_eq
  have hfits := h.fits.of_bare_eq hbare
  obtain ⟨hid, -, -, -, hjacobian, -⟩ := Linearization.parts_of_bare_eq hbare
  refine ⟨hfits, hjacobian.symm ▸ hsuits, hnonneg, fun mu hmu => ?_, fun c hc => ?_, fun g hg => ?_⟩
  · rw [hid] at hmu
    rw [hjacobian]
    exact h.held_stepsTo usable hstep hmu
  · rw [hknown] at hc
    cases hc
    exact ⟨v, rfl, hend.size, by rw [hend.point, h.fits.model_eq hfits hbare]⟩
  · rcases hcases with ⟨-, -, -, -, hunknown⟩ | ⟨g', hnewton, -, hg', -⟩
    · rw [hunknown] at hg
      cases hg
    · rw [hg'] at hg
      cases hg
      exact ⟨g', rfl, hnewton.of_bare_eq hbare⟩

end Sound

end Workspace

/-! ### Attempts -/

/-- A point made from what a callback reports fits. -/
theorem Linearization.fits_of_make {p : Problem ℝ} {s : CholeskySolver ℝ} {n calls id : ℕ}
    {state : Vec ℝ} {evaluation : Evaluation ℝ} {q : Linearization ℝ}
    (made : (make s id state evaluation).value = .ok q)
    (reported : p.report n calls state = some evaluation) (size : state.size = n) :
    q.Fits p.measurements n ∧ q.state = state ∧ q.residuals = evaluation.residuals ∧
      q.jacobian = evaluation.jacobian := by
  obtain ⟨gradient, hg, rfl⟩ := of_make made
  obtain ⟨-, -, rfl⟩ := CholeskySolver.gradient_eq hg
  obtain ⟨-, hrows, hcols, hresiduals⟩ := Problem.shape_of_report reported
  exact ⟨⟨size, hresiduals, hrows, hcols, rfl, rfl⟩, rfl, rfl, rfl⟩

/-- Without rounding, what is reported at the first state is in range. -/
theorem Problem.exists_firstPoint {p : Problem ℝ} {state : Vec ℝ} {evaluation : Evaluation ℝ}
    (reported : p.report state.size 0 state = some evaluation) :
    ∃ q, (firstPoint p.backend state evaluation).value = .ok q := by
  obtain ⟨q, hmade⟩ := Linearization.exists_make (s := p.backend) rfl 0 reported
  have hfinite : q.isFinite = true := rfl
  refine ⟨q, ?_⟩
  unfold firstPoint
  simp only [Logged.value_bind, hmade, hfinite, if_true, Logged.value_pure]

namespace Search

variable {p : Problem ℝ} {n calls : ℕ} {clock : Clock} {s s' : Search ℝ (CholeskySolver ℝ)}
  {r : Round ℝ (CholeskySolver ℝ)} {reason : Option StopReason}

/-- An attempt comes to its end wherever a step can be computed and the callback answers. -/
theorem exists_attempts (sound : s.session.workspace.Sound p.measurements n)
    (kind : s.session.point.jacobian.storage = p.storage) (serves : p.Serves n calls s.evaluator)
    (usable : s.session.settings.damping.Usable) (clock : Clock) {step : Step ℝ}
    {w : Workspace ℝ (CholeskySolver ℝ)} {evaluation : Evaluation ℝ}
    (computed :
      s.session.workspace.StepsTo s.session.settings.damping s.session.radius step w)
    (reported : p.report n calls (s.session.point.state.add step.update) = some evaluation) :
    ∃ r reason s', s.Attempts clock r reason s' ∧ r.step = step ∧ r.workspace = w ∧
      r.evaluation = evaluation := by
  obtain ⟨v, -, -, -, hsuits, -⟩ := sound.steps usable computed
  obtain ⟨hfits, hpredicted⟩ := sound.predicts usable computed
  obtain ⟨-, hstate, -⟩ := Linearization.parts_of_bare_eq computed.bare_eq
  have hreported : p.report n calls (w.point.state.add step.update) = some evaluation := by
    rw [hstate]
    exact reported
  have hadd : (w.point.state.add step.update).size = n := (Vec.size_add _ _).trans hfits.state
  obtain ⟨evaluator, hasked⟩ := serves.evaluate_of_report hadd hreported
  obtain ⟨candidate, hmade⟩ :=
    Linearization.exists_make (hsuits.storage.trans kind) s.session.nextId hreported
  exact ⟨⟨w, step, _, evaluation, evaluator, candidate⟩, _, _,
    { computed := Workspace.computeStep_of_stepsTo computed
      promised := hpredicted
      asked := hasked
      made := hmade
      judged := rfl }, rfl, rfl, rfl⟩

/-- What an attempt predicts and compares with: the promise of the linear model for its step, and the
difference of the squared lengths of the residuals. -/
theorem Attempts.exact (attempted : s.Attempts clock r reason s')
    (sound : s.session.workspace.Sound p.measurements n) (serves : p.Serves n calls s.evaluator)
    (usable : s.session.settings.damping.Usable) :
    r.predicted = sound.fits.model.promise (r.step.update.toEuclidean n) ∧
      p.report n calls (s.session.point.state.add r.step.update) = some r.evaluation ∧
      r.candidate.Fits p.measurements n ∧
      r.candidate.state = s.session.point.state.add r.step.update ∧
      r.candidate.jacobian = r.evaluation.jacobian ∧
      r.candidate.residuals = r.evaluation.residuals ∧
      r.actual = ‖s.session.point.residuals.toEuclidean p.measurements‖ ^ 2 -
        ‖r.evaluation.residuals.toEuclidean p.measurements‖ ^ 2 := by
  have hstep := Workspace.stepsTo_of_computeStep attempted.computed
  obtain ⟨hfits, hpredicted⟩ := sound.predicts usable hstep
  obtain ⟨-, hstate, -, hcost, -⟩ := Linearization.parts_of_bare_eq hstep.bare_eq
  rw [attempted.promised] at hpredicted
  obtain ⟨hreported, -⟩ := serves.evaluate attempted.asked
  have hadd : (r.workspace.point.state.add r.step.update).size = n :=
    (Vec.size_add _ _).trans hfits.state
  obtain ⟨hcandidate, hplace, hresiduals, hmatrix⟩ :=
    Linearization.fits_of_make attempted.made hreported hadd
  have hstate' : r.workspace.point.state = s.session.point.state := hstate
  rw [hstate'] at hreported hplace
  refine ⟨Except.ok.inj hpredicted, hreported, hcandidate, hplace, hmatrix, hresiduals, ?_⟩
  rw [Round.actual, hcost, sound.fits.cost, hcandidate.cost, hresiduals,
    Vec.normSq_eq_norm_sq sound.fits.residuals,
    Vec.normSq_eq_norm_sq (hresiduals ▸ hcandidate.residuals)]
  rfl

end Search

/-! ### Runs -/

namespace Problem

variable {p : Problem ℝ} {settings : Settings ℝ} {clock : Clock} {state : Vec ℝ}
  {points : List (Linearization ℝ)} {reason : Option StopReason} {s : Search ℝ (CholeskySolver ℝ)}

/-- The current point of a run fits. -/
theorem Run.fits (h : p.Run settings clock state points reason s) :
    s.session.point.Fits p.measurements state.size ∧
      s.session.point.jacobian.storage = p.storage := by
  have hmade := h.made h.current
  obtain ⟨hkind, hrows, hcols, hresiduals⟩ := shape_of_report hmade.reported
  have hstate : s.session.point.bare.state.size = state.size :=
    h.size_state (List.mem_of_getElem? h.current)
  have hfits : s.session.point.bare.Fits p.measurements state.size :=
    ⟨hstate, hresiduals, hrows, hcols, hmade.gradient, hmade.cost⟩
  exact ⟨hfits.of_bare_eq rfl, hkind⟩

/-- What a run keeps makes its workspace sound, if the solver suits and the first leg is true. -/
theorem Run.sound_of (h : p.Run settings clock state points reason s)
    (suits : s.session.workspace.backend.Suits p.storage state.size)
    (cauchy : ∀ c, s.session.point.cauchy = some c →
      ∃ v, c = Leg.ofVec v ∧ h.fits.1.CauchyEnd v) :
    s.session.workspace.Sound p.measurements state.size where
  fits := h.fits.1
  suits := h.fits.2.symm ▸ suits
  nonneg := h.fresh.nonneg
  held mu hmu := h.fresh.holds_current hmu
  cauchy := cauchy
  gaussNewton g hg := by
    obtain ⟨hkey, columns, hfactor, rfl⟩ := h.fresh.cached g hg
    obtain ⟨-, hholds⟩ := h.fresh.holds_current hkey
    have hsize := h.fits.1.size_gradient.trans h.fits.1.cols.symm
    exact ⟨_, rfl, hholds.newton hfactor hsize⟩

/-- The workspace is sound throughout a run. -/
theorem Run.sound (h : p.Run settings clock state points reason s) :
    s.session.workspace.Sound p.measurements state.size := by
  induction h with
  | @opening e e' evaluation point valid built asked first =>
      have hrun : p.Run settings clock state [point] _ _ := .opening valid built asked first
      refine hrun.sound_of (CholeskySolver.suits_new _ _) fun c hc => ?_
      have hmade : p.Made state.size 0 point := hrun.made rfl
      have hc : point.cauchy = some c := hc
      rw [Linearization.cauchy_of_bare_eq hmade.bare] at hc
      cases hc
  | @round points s s' r reason before room attempted ih =>
      have hrun := before.round room attempted
      have hstep := Workspace.stepsTo_of_computeStep attempted.computed
      have husable : s.session.settings.damping.Usable := by
        rw [before.settings_eq]
        exact before.usable.damping
      have hsound := ih.stepsTo husable hstep
      cases hacc : r.accepted s.session.settings with
      | true =>
          -- nothing is known of the legs at the new point
          have hpoint : s'.session.point = r.candidate := by
            rw [attempted.after.point, Search.Round.endpoint_of_accepted hacc]
          have hkind : r.workspace.point.jacobian.storage = p.storage := by
            rw [(Linearization.parts_of_bare_eq hstep.bare_eq).2.2.2.2.1]
            exact before.fits.2
          refine hrun.sound_of ?_ fun c hc => ?_
          · rw [attempted.after.workspace, ← hkind]
            exact hsound.suits
          · rw [hpoint,
              Linearization.cauchy_of_bare_eq (before.made_candidate room attempted).bare] at hc
            cases hc
      | false =>
          rw [attempted.after.workspace, Search.Round.endpoint_of_rejected hacc]
          exact hsound

end Problem

end TrustRegion
