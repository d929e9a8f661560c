/-
Module: TrustRegion.Proofs.Search.Freshness
Purpose: A factorization is never used for a Jacobian or a damping it was not made for. Only the
  number of the point and the damping are compared before one is used again, so this rests on an
  invariant: the key names a point of the run whose Jacobian was factored, with the damping of now,
  and where the end of the path is known it was computed with the factorization that is held.
Main exports: Workspace.Fresh, Workspace.Fresh.factorizeDamped, Workspace.Fresh.stepsTo,
  Problem.Run.fresh, Query, Session.after, Session.fresh_after
-/
import TrustRegion.Proofs.Linear.Exact
import TrustRegion.Proofs.Scalar.Double
import TrustRegion.Proofs.Search.Run

namespace TrustRegion

variable {α : Type} [Scalar α]

omit [Scalar α] in
/-- A point keeps its place when one more is made. -/
theorem getElem?_concat_of_eq_some {points : List (Linearization α)} {q c : Linearization α}
    {k : Nat} (h : points[k]? = some q) : (points ++ [c])[k]? = some q := by
  have hlt : k < points.length := (List.getElem?_eq_some_iff.mp h).1
  rw [List.getElem?_append_left hlt, h]

namespace Workspace

/-- What ties a factorization to the points made so far, in order, and to the damping. -/
structure Fresh (points : List (Linearization α)) (w : Workspace α (CholeskySolver α)) :
    Prop where
  nonneg : 0 ≤ w.damping.lambda
  /-- The number of the current point is its place. -/
  current : points[w.point.id]? = some w.point.bare
  /-- The key names the point whose normal matrix is factored, and the damping of now. -/
  held : ∀ id mu, w.backend.key = some ⟨id, mu⟩ →
    mu = w.damping.lambda ∧ ∃ q, points[id]? = some q ∧ w.backend.Holds q.jacobian mu
  /-- If the end of the path is known, it was computed with the factorization that is held, and that
  is the one for the current point and damping. -/
  cached : ∀ g, w.point.gaussNewton = some g →
    w.backend.key = some ⟨w.point.id, w.damping.lambda⟩ ∧
      ∃ columns, w.backend.factor = some columns ∧
        g = Leg.ofVec (Cholesky.solve columns w.point.gradient.neg)

namespace Fresh

variable {points : List (Linearization α)} {w w' : Workspace α (CholeskySolver α)}

/-- A key for the current point is the key of its own Jacobian. -/
theorem holds_current (h : w.Fresh points) {mu : α}
    (key : w.backend.key = some ⟨w.point.id, mu⟩) :
    mu = w.damping.lambda ∧ w.backend.Holds w.point.jacobian mu := by
  obtain ⟨hmu, q, hq, hholds⟩ := h.held _ _ key
  rw [h.current] at hq
  cases hq
  exact ⟨hmu, hholds⟩

variable [LawfulScalar α]

/-- A request for a factorization at the current point keeps everything in step, and if it succeeds
the factorization that is held is the one for the current Jacobian and damping, whether it was made
now or before. -/
theorem factorizeDamped {schedule : DampingSchedule α} (usable : schedule.Usable)
    (h : w.Fresh points) {answer : Except (LinearError α) Unit} {damping : Damping α}
    {backend : CholeskySolver α}
    (request : (TrustRegion.factorizeDamped schedule w.point.jacobian w.point.id w.damping
      w.backend).value = (answer, damping, backend)) :
    Fresh points { w with damping, backend } ∧
      (answer = .ok () → backend.key = some ⟨w.point.id, damping.lambda⟩ ∧
        backend.Holds w.point.jacobian damping.lambda) := by
  rcases factorizeDamped_cases usable h.nonneg request with
    ⟨rfl, rfl, rfl, mu, hkey, -⟩ | ⟨hdiffer, hnonneg, hrequested⟩
  · obtain ⟨rfl, hholds⟩ := h.holds_current hkey
    exact ⟨h, fun _ => ⟨hkey, hholds⟩⟩
  · -- a known end of the path would have made its own key serve, so there is none
    have hunknown : w.point.gaussNewton = none := by
      cases hg : w.point.gaussNewton with
      | none => rfl
      | some g =>
          have hself := hdiffer _ (h.cached g hg).1
          rw [(LawfulScalar.beq_self_of_le h.nonneg).2] at hself
          cases hself
    have hcached : ∀ g, w.point.gaussNewton = some g →
        backend.key = some ⟨w.point.id, damping.lambda⟩ ∧ ∃ columns,
          backend.factor = some columns ∧
            g = Leg.ofVec (Cholesky.solve columns w.point.gradient.neg) := by
      intro g hg
      rw [hunknown] at hg
      cases hg
    rcases hrequested with ⟨rfl, hkey, hholds⟩ | ⟨⟨error, rfl⟩, hkey⟩
    · refine ⟨⟨hnonneg, h.current, fun id mu hmu => ?_, hcached⟩, fun _ => ⟨hkey, hholds⟩⟩
      have hmu : backend.key = some ⟨id, mu⟩ := hmu
      rw [hkey] at hmu
      cases hmu
      exact ⟨rfl, w.point.bare, h.current, hholds⟩
    · refine ⟨⟨hnonneg, h.current, fun id mu hmu => ?_, hcached⟩, fun hok => by cases hok⟩
      have hmu : backend.key = some ⟨id, mu⟩ := hmu
      rw [hkey] at hmu
      cases hmu

/-- Computing a step keeps everything in step. -/
theorem stepsTo {schedule : DampingSchedule α} (usable : schedule.Usable) {radius : α}
    {step : Step α} (h : w.Fresh points) (hstep : w.StepsTo schedule radius step w') :
    w'.Fresh points := by
  cases hstep with
  | clipped first unknown reaches =>
      exact ⟨h.nonneg, h.current, h.held, fun g hg => by cases hg⟩
  | reused first known =>
      exact ⟨h.nonneg, h.current, h.held, fun g hg => h.cached g (known.trans hg)⟩
  | factored first unknown short computed =>
      obtain ⟨hmade, hsolve⟩ := gaussNewtonVector_eq_ok computed
      obtain ⟨hfresh, hok⟩ := h.factorizeDamped usable hmade
      obtain ⟨columns, hfactor, -, rfl⟩ := CholeskySolver.solve_eq_ok hsolve
      refine ⟨hfresh.nonneg, hfresh.current, hfresh.held, fun g hg => ?_⟩
      cases hg
      exact ⟨(hok rfl).1, columns, hfactor, rfl⟩

omit [LawfulScalar α] in
/-- Keeping the inverse of the factored matrix changes nothing else. -/
theorem withInverse (h : w.Fresh points) (inverse : Option (Matrix α)) :
    Fresh points { w with backend := { w.backend with inverse } } := by
  refine ⟨h.nonneg, h.current, fun id mu hmu => ?_, h.cached⟩
  obtain ⟨hlambda, q, hq, hholds⟩ := h.held id mu hmu
  exact ⟨hlambda, q, hq, ⟨hholds.storage, hholds.states, hholds.factor⟩⟩

omit [LawfulScalar α] in
/-- A round ends at a new point about which nothing is known yet, or at the old one. -/
theorem endpoint {settings : Settings α} {r : Search.Round α (CholeskySolver α)}
    (h : r.workspace.Fresh points) (new : points.length = r.candidate.id)
    (bare : r.candidate.bare = r.candidate) :
    Fresh (points ++ [r.candidate])
      { r.workspace with point := r.endpoint settings } := by
  have hheld : ∀ id mu, r.workspace.backend.key = some ⟨id, mu⟩ →
      mu = r.workspace.damping.lambda ∧ ∃ q, (points ++ [r.candidate])[id]? = some q ∧
        r.workspace.backend.Holds q.jacobian mu := by
    intro id mu hmu
    obtain ⟨hlambda, q, hq, hholds⟩ := h.held id mu hmu
    exact ⟨hlambda, q, getElem?_concat_of_eq_some hq, hholds⟩
  cases hacc : r.accepted settings with
  | true =>
      rw [Search.Round.endpoint_of_accepted hacc]
      refine ⟨h.nonneg, ?_, hheld, fun g hg => ?_⟩
      · show (points ++ [r.candidate])[r.candidate.id]? = some r.candidate.bare
        rw [← new, List.getElem?_concat_length, bare]
      · have hg : r.candidate.gaussNewton = some g := hg
        rw [Linearization.gaussNewton_of_bare_eq bare] at hg
        cases hg
  | false =>
      rw [Search.Round.endpoint_of_rejected hacc]
      exact ⟨h.nonneg, getElem?_concat_of_eq_some h.current, hheld, h.cached⟩

end Fresh

end Workspace

namespace Problem.Run

variable {p : Problem α} {settings : Settings α} {clock : Clock} {state : Vec α}
  {points : List (Linearization α)} {reason : Option StopReason} {s : Search α (CholeskySolver α)}

/-- Points are numbered in the order in which they are made, from zero. -/
theorem ids_eq (h : p.Run settings clock state points reason s) :
    points.map Linearization.id = List.range points.length := by
  apply List.ext_getElem?
  intro k
  rw [List.getElem?_map]
  rcases Nat.lt_or_ge k points.length with hlt | hge
  · have hk : points[k]? = some points[k] := List.getElem?_eq_getElem hlt
    rw [hk, List.getElem?_range hlt, Option.map_some, (h.made hk).id]
  · rw [List.getElem?_eq_none hge, List.getElem?_eq_none (by rwa [List.length_range])]
    rfl

variable [LawfulScalar α]

/-- Everything is in step throughout a run. -/
theorem fresh (h : p.Run settings clock state points reason s) :
    s.session.workspace.Fresh points := by
  induction h with
  | @opening e e' evaluation point valid built asked first =>
      have hrun : p.Run settings clock state [point] _ _ := .opening valid built asked first
      have hmade : p.Made state.size 0 point := hrun.made rfl
      refine ⟨LawfulScalar.zero_le_zero, ?_, fun id mu hmu => (nomatch hmu), fun g hg => ?_⟩
      · show [point][point.id]? = some point.bare
        rw [hmade.id, hmade.bare]
        rfl
      · have hg : point.gaussNewton = some g := hg
        rw [Linearization.gaussNewton_of_bare_eq hmade.bare] at hg
        cases hg
  | @round points s s' r reason before room attempted ih =>
      have hafter := attempted.after
      have hstep := Workspace.stepsTo_of_computeStep attempted.computed
      rw [before.settings_eq] at hstep
      have hfresh := ih.stepsTo before.usable.damping hstep
      have hmade := before.made_candidate room attempted
      rw [hafter.workspace, before.settings_eq]
      exact hfresh.endpoint hmade.id.symm hmade.bare

end Problem.Run

/-- What a caller can ask of a session once a search is over. -/
inductive Query (α : Type) where
  | factorize
  | solve (rhs : Vec α)
  | covariance

namespace Session

/-- The session that is left when a question has been answered or refused. -/
def afterQuery (s : Session α (CholeskySolver α)) : Query α → Session α (CholeskySolver α)
  | .factorize => s.factorize.value.2
  | .solve rhs => (s.solve rhs).value.2
  | .covariance => s.covariance.value.2

/-- The session that is left after questions in order. -/
def after (s : Session α (CholeskySolver α)) (queries : List (Query α)) :
    Session α (CholeskySolver α) :=
  queries.foldl afterQuery s

/-- Only the factorization and the damping can change when a session is asked, and the inverse. -/
theorem workspace_factorize {s s' : Session α (CholeskySolver α)}
    {answer : Except (LinearError α) Unit} (h : s.factorize.value = (answer, s')) :
    ∃ damping backend,
      (factorizeDamped s.settings.damping s.workspace.point.jacobian s.workspace.point.id
        s.workspace.damping s.workspace.backend).value = (answer, damping, backend) ∧
      s' = { s with workspace := { s.workspace with damping, backend } } := by
  rcases hrequest : (factorizeDamped s.settings.damping s.workspace.point.jacobian
    s.workspace.point.id s.workspace.damping s.workspace.backend).value with
      ⟨request, damping, backend⟩
  simp only [factorize, Logged.value_bind, hrequest] at h
  cases h
  exact ⟨damping, backend, rfl, rfl⟩

/-- Solving either refuses the right-hand side or leaves what making sure of a factorization
leaves. -/
theorem afterQuery_solve (s : Session α (CholeskySolver α)) (rhs : Vec α) :
    s.afterQuery (.solve rhs) = s ∨ s.afterQuery (.solve rhs) = s.factorize.value.2 := by
  change (s.solve rhs).value.2 = s ∨ (s.solve rhs).value.2 = s.factorize.value.2
  unfold solve
  split
  · exact .inl rfl
  · rcases hmade : s.factorize.value with ⟨answer, s'⟩
    simp only [Logged.value_bind, hmade]
    cases answer with
    | error e => exact .inr rfl
    | ok _ => exact .inr rfl

/-- The covariance leaves what making sure of a factorization leaves, and the inverse. -/
theorem afterQuery_covariance (s : Session α (CholeskySolver α)) :
    ∃ inverse : Option (Matrix α), s.afterQuery .covariance =
      { s.factorize.value.2 with
        workspace := { s.factorize.value.2.workspace with
          backend := { s.factorize.value.2.workspace.backend with inverse } } } := by
  unfold afterQuery covariance
  rcases hmade : s.factorize.value with ⟨answer, s'⟩
  simp only [Logged.value_bind, hmade]
  cases answer with
  | error e => exact ⟨s'.workspace.backend.inverse, rfl⟩
  | ok _ =>
      obtain ⟨inverse, hframe⟩ := s'.workspace.backend.covariance_frame
      refine ⟨inverse, ?_⟩
      rw [← hframe]
      dsimp only
      cases s'.workspace.backend.covariance.1 with
      | none => rfl
      | some kept => rfl

variable [LawfulScalar α] {points : List (Linearization α)}

/-- Questions keep everything in step, whether they are answered or refused. -/
theorem fresh_afterQuery {s : Session α (CholeskySolver α)} (usable : s.settings.damping.Usable)
    (h : s.workspace.Fresh points) (query : Query α) :
    (s.afterQuery query).workspace.Fresh points ∧
      (s.afterQuery query).settings = s.settings := by
  have hfactorize : s.factorize.value.2.workspace.Fresh points ∧
      s.factorize.value.2.settings = s.settings := by
    rcases hmade : s.factorize.value with ⟨answer, s'⟩
    obtain ⟨damping, backend, hrequest, rfl⟩ := workspace_factorize hmade
    exact ⟨(h.factorizeDamped usable hrequest).1, rfl⟩
  cases query with
  | factorize => exact hfactorize
  | solve rhs =>
      rcases s.afterQuery_solve rhs with heq | heq
      · rw [heq]
        exact ⟨h, rfl⟩
      · rw [heq]
        exact hfactorize
  | covariance =>
      obtain ⟨inverse, heq⟩ := s.afterQuery_covariance
      rw [heq]
      exact ⟨hfactorize.1.withInverse inverse, hfactorize.2⟩

/-- Any number of questions keeps everything in step. -/
theorem fresh_after {s : Session α (CholeskySolver α)} (usable : s.settings.damping.Usable)
    (h : s.workspace.Fresh points) (queries : List (Query α)) :
    (s.after queries).workspace.Fresh points ∧ (s.after queries).settings = s.settings := by
  induction queries generalizing s with
  | nil => exact ⟨h, rfl⟩
  | cons query queries ih =>
      obtain ⟨hfresh, hsettings⟩ := fresh_afterQuery usable h query
      obtain ⟨hfresh', hsettings'⟩ := ih (hsettings ▸ usable) hfresh
      exact ⟨hfresh', hsettings'.trans hsettings⟩

end Session

/-- Without rounding, an end of the path that is known solves the damped normal equations of the
current point for the damping of now. -/
theorem Workspace.Fresh.sum_gram_mul_gaussNewton {points : List (Linearization ℝ)}
    {w : Workspace ℝ (CholeskySolver ℝ)} (h : w.Fresh points)
    (gradient : w.point.gradient =
      StoredMatrix.transposeMulVec w.point.jacobian.stored w.point.residuals)
    {g : Leg ℝ} (known : w.point.gaussNewton = some g) {i : ℕ}
    (hi : i < w.point.jacobian.stored.cols) :
    ∑ k ∈ Finset.range w.point.jacobian.stored.cols,
        w.point.jacobian.gram w.damping.lambda i k * g.vector.entry k =
      -∑ r ∈ Finset.range w.point.jacobian.stored.rows,
        w.point.jacobian.slope r i * w.point.residuals.entry r := by
  obtain ⟨hkey, columns, hfactor, rfl⟩ := h.cached g known
  obtain ⟨-, hholds⟩ := h.holds_current hkey
  have hsize : i < w.point.gradient.size := by
    rw [gradient, StoredMatrix.size_transposeMulVec]
    exact hi
  have hneg : w.point.gradient.neg.entry i = -w.point.gradient.entry i :=
    Vec.entry_ofFn hsize
  rw [Leg.ofVec, hholds.sum_gram_mul_solve hfactor _ hi, hneg, gradient,
    Jacobian.entry_transposeMulVec _ _ hi]

namespace Problem.Run

variable [LawfulScalar α] {p : Problem α} {settings : Settings α} {clock : Clock} {state : Vec α}
  {points : List (Linearization α)} {reason : Option StopReason} {s : Search α (CholeskySolver α)}

/-- Everything is in step after any questions to the session that a run leaves. -/
theorem fresh_after (h : p.Run settings clock state points reason s) (queries : List (Query α)) :
    (s.session.after queries).workspace.Fresh points ∧
      (s.session.after queries).settings.damping.Usable := by
  have husable : s.session.settings.damping.Usable := by
    rw [h.settings_eq]
    exact h.usable.damping
  obtain ⟨hfresh, hsettings⟩ := Session.fresh_after husable h.fresh queries
  exact ⟨hfresh, hsettings ▸ husable⟩

omit [LawfulScalar α] in
/-- A key names one of the points of the run. -/
theorem exists_of_key (h : p.Run settings clock state points reason s)
    {w : Workspace α (CholeskySolver α)} (fresh : w.Fresh points) {id : Nat} {mu : α}
    (key : w.backend.key = some ⟨id, mu⟩) :
    ∃ q ∈ points, q.id = id ∧ w.backend.Holds q.jacobian mu := by
  obtain ⟨-, q, hq, hholds⟩ := fresh.held id mu key
  exact ⟨q, List.mem_of_getElem? hq, (h.made hq).id, hholds⟩

/-- A request that succeeds leaves the factorization of the current Jacobian and damping. -/
theorem holds_of_factorize {session session' : Session α (CholeskySolver α)}
    (fresh : session.workspace.Fresh points) (usable : session.settings.damping.Usable)
    (request : session.factorize.value = (.ok (), session')) :
    session'.workspace.backend.key = some ⟨session'.point.id, session'.lambda⟩ ∧
      session'.workspace.backend.Holds session'.point.jacobian session'.lambda := by
  obtain ⟨damping, backend, hrequest, rfl⟩ := Session.workspace_factorize request
  exact (fresh.factorizeDamped usable hrequest).2 rfl

end Problem.Run

/-- At the end of every attempt of every run, and after any questions to the session that is left:
the points have different numbers, the first of them zero; a key names the point whose damped normal
matrix is factored; if the end of the path is known, the key names the current point and damping;
and a request for a factorization that succeeds, whether one is made or the one at hand serves,
leaves the one of the current Jacobian and damping. Without rounding, the factor times its transpose
is the damped normal matrix of the point that the key names, and the end of the path that is known
solves the damped normal equations of the current point. -/
theorem Problem.factorization_is_fresh :
    (∀ {α : Type} [Scalar α] [LawfulScalar α] (p : Problem α) (settings : Settings α)
      (clock : Clock) (state : Vec α) (points : List (Linearization α))
      (reason : Option StopReason) (s : Search α (CholeskySolver α)) (queries : List (Query α)),
      p.Run settings clock state points reason s →
      (points.map Linearization.id).Nodup ∧
      (points.head?.map Linearization.id = some 0) ∧
      (∀ id mu, (s.session.after queries).workspace.backend.key = some ⟨id, mu⟩ →
        ∃ q ∈ points, q.id = id ∧
          (s.session.after queries).workspace.backend.Holds q.jacobian mu) ∧
      (∀ g, (s.session.after queries).point.gaussNewton = some g →
        (s.session.after queries).workspace.backend.key =
          some ⟨(s.session.after queries).point.id, (s.session.after queries).lambda⟩) ∧
      (∀ session, (s.session.after queries).factorize.value = (.ok (), session) →
        session.workspace.backend.key = some ⟨session.point.id, session.lambda⟩ ∧
          session.workspace.backend.Holds session.point.jacobian session.lambda)) ∧
    (∀ (p : Problem ℝ) (settings : Settings ℝ) (clock : Clock) (state : Vec ℝ)
      (points : List (Linearization ℝ)) (reason : Option StopReason)
      (s : Search ℝ (CholeskySolver ℝ)) (queries : List (Query ℝ)),
      p.Run settings clock state points reason s →
      (∀ id mu, (s.session.after queries).workspace.backend.key = some ⟨id, mu⟩ →
        ∃ q ∈ points, q.id = id ∧ ∃ columns,
          (s.session.after queries).workspace.backend.factor = some columns ∧
          ∀ i k, i < q.jacobian.stored.cols → k < q.jacobian.stored.cols →
            Cholesky.product columns i k = q.jacobian.gram mu i k) ∧
      (∀ g, (s.session.after queries).point.gaussNewton = some g →
        ∀ i, i < (s.session.after queries).point.jacobian.stored.cols →
          ∑ k ∈ Finset.range (s.session.after queries).point.jacobian.stored.cols,
              (s.session.after queries).point.jacobian.gram (s.session.after queries).lambda i k *
                g.vector.entry k =
            -∑ r ∈ Finset.range (s.session.after queries).point.jacobian.stored.rows,
              (s.session.after queries).point.jacobian.slope r i *
                (s.session.after queries).point.residuals.entry r)) := by
  constructor
  · intro α _ _ p settings clock state points reason s queries h
    obtain ⟨hfresh, husable⟩ := h.fresh_after queries
    refine ⟨?_, ?_, ?_, ?_, ?_⟩
    · rw [h.ids_eq]
      exact List.nodup_range
    · rw [← List.head?_map, h.ids_eq, h.length_eq, List.range_succ_eq_map]
      rfl
    · intro id mu hkey
      exact h.exists_of_key hfresh hkey
    · intro g hg
      exact (hfresh.cached g hg).1
    · intro session request
      exact Run.holds_of_factorize hfresh husable request
  · intro p settings clock state points reason s queries h
    obtain ⟨hfresh, -⟩ := h.fresh_after queries
    constructor
    · intro id mu hkey
      obtain ⟨q, hq, hid, hholds⟩ := h.exists_of_key hfresh hkey
      obtain ⟨columns, -, hfactor, -⟩ := hholds.factor
      exact ⟨q, hq, hid, columns, hfactor, (hholds.product_eq hfactor).2.2⟩
    · intro g hg i hi
      exact hfresh.sum_gram_mul_gaussNewton (h.made hfresh.current).gradient hg hi

/-- The standard settings can be used. -/
theorem Settings.fault?_standard : (Settings.standard : Settings ℝ).fault? = none := by
  norm_num [Settings.fault?, Settings.standard, DampingSchedule.standard, Scalar.isFinite,
    Scalar.isNaN]

/-- From a quarter, with a radius that lets the whole path in, the first step overshoots and is
rejected, so the end of the path is still known and its factorization is held after a question. The
same problem over the real numbers, before any attempt. -/
theorem Problem.factorization_is_fresh_squareIsTwo :
    (∃ points reason s,
      (squareIsTwo : Problem Float).Run
        { Settings.standard with maxIterations := 1, radius := 20.0 } Clock.stopped ⟨#[0.25]⟩
        points reason s ∧
      (∃ g, (s.session.after [.covariance]).point.gaussNewton = some g) ∧
      (s.session.after [.covariance]).workspace.backend.key =
        some ⟨(s.session.after [.covariance]).point.id, (s.session.after [.covariance]).lambda⟩) ∧
    (∃ points reason s,
      (squareIsTwo : Problem ℝ).Run Settings.standard Clock.stopped ⟨#[1]⟩ points reason s ∧
      ∀ id mu, (s.session.after [.factorize]).workspace.backend.key = some ⟨id, mu⟩ →
        ∃ q ∈ points, q.id = id ∧ ∃ columns,
          (s.session.after [.factorize]).workspace.backend.factor = some columns ∧
          ∀ i k, i < q.jacobian.stored.cols → k < q.jacobian.stored.cols →
            Cholesky.product columns i k = q.jacobian.gram mu i k) := by
  constructor
  · obtain ⟨⟨outcome, session⟩, h⟩ :
        ∃ result,
          ((squareIsTwo : Problem Float).solve
            { Settings.standard with maxIterations := 1, radius := 20.0 } Clock.stopped false
            ⟨#[0.25]⟩).value.answer = .ok result :=
      exists_eq_ok (by decide +kernel)
    have hknown :
        (match ((squareIsTwo : Problem Float).solve
            { Settings.standard with maxIterations := 1, radius := 20.0 } Clock.stopped false
            ⟨#[0.25]⟩).value.answer with
          | .ok (_, session) => (session.after [.covariance]).point.gaussNewton.isSome
          | .error _ => false) = true := by
      decide +kernel
    rw [h] at hknown
    obtain ⟨points, reason, s, hrun, -, rfl, -⟩ := run_of_solve rfl h
    obtain ⟨g, hg⟩ := Option.isSome_iff_exists.mp hknown
    obtain ⟨-, -, -, hcached, -⟩ :=
      factorization_is_fresh.1 _ _ _ _ points reason s [.covariance] hrun
    exact ⟨points, reason, s, hrun, ⟨g, hg⟩, hcached g hg⟩
  · have hrun : (squareIsTwo : Problem ℝ).Run Settings.standard Clock.stopped ⟨#[1]⟩ _ _ _ :=
      .opening Settings.fault?_standard rfl rfl rfl
    exact ⟨_, _, _, hrun, (factorization_is_fresh.2 _ _ _ _ _ _ _ [.factorize] hrun).1⟩

end TrustRegion
