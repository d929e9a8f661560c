/-
Module: TrustRegion.Proofs.Search.Query
Purpose: What a session answers once its search is over. A question is refused, or it finds the damping
  used up, or it is answered with the factor that is at hand then; it leaves everything alone but the
  damping and the linear algebra. Once one question has been answered, the factorization at hand serves
  all later ones, so they are all about the same matrix.
Main exports: Reply, Session.reply, Session.Keeps, Session.Answers, Session.Shaped.answers,
  Session.Served, Session.Served.after, Reply.Right, Problem.queries_agree
-/
import TrustRegion.Proofs.Linear.Inverse
import TrustRegion.Proofs.Search.Account
import TrustRegion.Proofs.Search.Freshness
import TrustRegion.Proofs.Search.Shape

namespace TrustRegion

/-- What a question is answered with. -/
inductive Reply (α : Type) where
  /-- The factorization is at hand. -/
  | done
  | solution (v : Vec α)
  | inverse (c : Matrix α)

namespace Query

variable {α : Type}

/-- A right-hand side has one entry for each state. -/
def Fits (states : Nat) : Query α → Prop
  | .solve rhs => rhs.size = states
  | .factorize | .covariance => True

/-- What a question is answered with once a factor is at hand. -/
def answer [Scalar α] (columns : Cholesky.Factor α) : Query α → Reply α
  | .factorize => .done
  | .solve rhs => .solution (Cholesky.solve columns rhs)
  | .covariance => .inverse (Cholesky.inverse columns)

end Query

namespace Session

variable {α : Type} [Scalar α] {s s' : Session α (CholeskySolver α)} {storage : Storage}
  {m n : Nat} {q : Query α}

/-- The answer to a question, or why there is none. -/
def reply (s : Session α (CholeskySolver α)) : Query α → Except (LinearError α) (Reply α)
  | .factorize => s.factorize.value.1.map fun _ => .done
  | .solve rhs => (s.solve rhs).value.1.map .solution
  | .covariance => s.covariance.value.1.map .inverse

/-- What a session holds apart from its damping and its linear algebra is what another one holds. -/
structure Keeps (s s' : Session α (CholeskySolver α)) : Prop where
  point : s'.point = s.point
  settings : s'.settings = s.settings
  radius : s'.radius = s.radius
  states : s'.states = s.states
  measurements : s'.measurements = s.measurements
  nextId : s'.nextId = s.nextId

omit [Scalar α] in
theorem Keeps.refl (s : Session α (CholeskySolver α)) : s.Keeps s := ⟨rfl, rfl, rfl, rfl, rfl, rfl⟩

omit [Scalar α] in
theorem Keeps.trans {s'' : Session α (CholeskySolver α)} (h : s.Keeps s') (h' : s'.Keeps s'') :
    s.Keeps s'' :=
  ⟨h'.point.trans h.point, h'.settings.trans h.settings, h'.radius.trans h.radius,
    h'.states.trans h.states, h'.measurements.trans h.measurements, h'.nextId.trans h.nextId⟩

/-- Making sure of a factorization touches only the damping and the linear algebra. -/
theorem keeps_factorize {answer : Except (LinearError α) Unit}
    (request : s.factorize.value = (answer, s')) : s.Keeps s' := by
  obtain ⟨damping, backend, -, rfl⟩ := workspace_factorize request
  exact ⟨rfl, rfl, rfl, rfl, rfl, rfl⟩

/-! ### How a question ends -/

/-- How a question to a session ends, and what session it leaves. -/
inductive Answers (s : Session α (CholeskySolver α)) (q : Query α) :
    Except (LinearError α) (Reply α) → Session α (CholeskySolver α) → Prop where
  /-- The right-hand side has the wrong length. -/
  | refused {rhs : Vec α} (question : q = .solve rhs) (size : rhs.size ≠ s.states) :
      Answers s q (.error (.dimensionMismatch (.rightHandSide rhs.size s.states))) s
  /-- There is no factorization, and the damping may not be raised any more. -/
  | exhausted {s' : Session α (CholeskySolver α)} (fits : q.Fits s.states)
      (request : s.factorize.value =
        (.error (.dampingExhausted s.settings.damping.maxAttempts s'.lambda), s')) :
      Answers s q (.error (.dampingExhausted s.settings.damping.maxAttempts s'.lambda)) s'
  /-- There is a factorization, and the answer is computed with it. -/
  | answered {s' : Session α (CholeskySolver α)} {columns : Cholesky.Factor α}
      {inverse : Option (Matrix α)} (fits : q.Fits s.states)
      (request : s.factorize.value = (.ok (), s'))
      (held : s'.workspace.backend.factor = some columns)
      (kept : inverse = s'.workspace.backend.inverse ∨ inverse = some (Cholesky.inverse columns)) :
      Answers s q (.ok (q.answer columns))
        { s' with
          workspace := { s'.workspace with backend := { s'.workspace.backend with inverse } } }

/-- A session in which everything has the sizes of the problem. -/
structure Shaped (storage : Storage) (m n : Nat) (s : Session α (CholeskySolver α)) : Prop where
  workspace : s.workspace.Shaped storage m n
  states : s.states = n

namespace Shaped

/-- Making sure of a factorization succeeds with a factor or finds the damping used up. -/
theorem factorize_cases (h : s.Shaped storage m n) {answer : Except (LinearError α) Unit}
    (request : s.factorize.value = (answer, s')) :
    s'.Shaped storage m n ∧
      ((answer = .ok () ∧ ∃ columns, s'.workspace.backend.factor = some columns) ∨
        answer = .error (.dampingExhausted s.settings.damping.maxAttempts s'.lambda)) := by
  obtain ⟨damping, backend, hrequest, rfl⟩ := workspace_factorize request
  obtain ⟨hready, hcases⟩ := factorizeDamped_ready h.workspace.backend h.workspace.point.storage
    h.workspace.point.cols hrequest
  refine ⟨⟨⟨hready, h.workspace.point⟩, h.states⟩, ?_⟩
  rcases hcases with ⟨rfl, hfactor⟩ | rfl
  · exact .inl ⟨rfl, Option.isSome_iff_exists.mp hfactor⟩
  · exact .inr rfl

/-- Every question ends in one of the three ways. -/
theorem answers (h : s.Shaped storage m n) (q : Query α) :
    s.Answers q (s.reply q) (s.afterQuery q) := by
  rcases hmade : s.factorize.value with ⟨answer, s'⟩
  obtain ⟨hshaped, ⟨rfl, columns, hfactor⟩ | rfl⟩ := h.factorize_cases hmade
  · cases q with
    | factorize =>
        unfold reply afterQuery
        rw [hmade]
        exact .answered trivial hmade hfactor (.inl rfl)
    | solve rhs =>
        unfold reply afterQuery Session.solve
        by_cases hsize : rhs.size = s.states
        · have hstates : rhs.size = s'.workspace.backend.states :=
            (hsize.trans h.states).trans (hshaped.workspace.backend.factor columns hfactor).1.symm
          have hsolve : (LinearSolver.solve s'.workspace.backend rhs).value =
              .ok (Cholesky.solve columns rhs) := by
            show (s'.workspace.backend.solve rhs).value = _
            unfold CholeskySolver.solve
            simp only [hfactor, hstates, ne_eq, not_true, if_false]
            rfl
          simp only [hsize, ne_eq, not_true, if_false, Logged.value_bind, hmade, hsolve]
          exact .answered hsize hmade hfactor (.inl rfl)
        · simp only [hsize, ne_eq, not_false_eq_true, if_true]
          exact .refused rfl hsize
    | covariance =>
        have hinverse : LinearSolver.covariance s'.workspace.backend = _ :=
          hshaped.workspace.backend.covariance_eq hfactor
        unfold reply afterQuery Session.covariance
        simp only [Logged.value_bind, hmade, hinverse]
        exact .answered trivial hmade hfactor (.inr rfl)
  · cases q with
    | factorize =>
        unfold reply afterQuery
        rw [hmade]
        exact .exhausted trivial hmade
    | solve rhs =>
        unfold reply afterQuery Session.solve
        by_cases hsize : rhs.size = s.states
        · simp only [hsize, ne_eq, not_true, if_false, Logged.value_bind, hmade]
          exact .exhausted hsize hmade
        · simp only [hsize, ne_eq, not_false_eq_true, if_true]
          exact .refused rfl hsize
    | covariance =>
        unfold reply afterQuery Session.covariance
        simp only [Logged.value_bind, hmade]
        exact .exhausted trivial hmade

/-- A question keeps all sizes. -/
theorem afterQuery (h : s.Shaped storage m n) (q : Query α) : (s.afterQuery q).Shaped storage m n := by
  have hanswers := h.answers q
  generalize s.reply q = answer at hanswers
  generalize s.afterQuery q = next at hanswers
  cases hanswers with
  | refused question size => exact h
  | exhausted fits request => exact (h.factorize_cases request).1
  | answered fits request held kept =>
      obtain ⟨⟨⟨hready, hpoint⟩, hstates⟩, -⟩ := h.factorize_cases request
      refine ⟨⟨?_, hpoint⟩, hstates⟩
      rcases kept with rfl | rfl
      · exact hready
      · exact hready.withInverse held

theorem after (h : s.Shaped storage m n) (queries : List (Query α)) :
    (s.after queries).Shaped storage m n := by
  induction queries generalizing s with
  | nil => exact h
  | cons q queries ih => exact ih (h.afterQuery q)

/-- A question keeps everything but the damping and the linear algebra. -/
theorem keeps_afterQuery (h : s.Shaped storage m n) (q : Query α) : s.Keeps (s.afterQuery q) := by
  have hanswers := h.answers q
  generalize s.reply q = answer at hanswers
  generalize s.afterQuery q = next at hanswers
  cases hanswers with
  | refused question size => exact .refl s
  | exhausted fits request => exact keeps_factorize request
  | answered fits request held kept =>
      have hkeeps := keeps_factorize request
      exact ⟨hkeeps.point, hkeeps.settings, hkeeps.radius, hkeeps.states, hkeeps.measurements,
        hkeeps.nextId⟩

theorem keeps_after (h : s.Shaped storage m n) (queries : List (Query α)) :
    s.Keeps (s.after queries) := by
  induction queries generalizing s with
  | nil => exact .refl s
  | cons q queries ih => exact (h.keeps_afterQuery q).trans (ih (h.afterQuery q))

end Shaped

/-- A right-hand side of the wrong length is refused before anything is done. -/
theorem reply_of_wrong_size {rhs : Vec α} (size : rhs.size ≠ s.states) :
    s.reply (.solve rhs) = .error (.dimensionMismatch (.rightHandSide rhs.size s.states)) ∧
      s.afterQuery (.solve rhs) = s := by
  unfold reply afterQuery Session.solve
  simp only [size, ne_eq, not_false_eq_true, if_true]
  exact ⟨rfl, rfl⟩

theorem after_append (s : Session α (CholeskySolver α)) (earlier later : List (Query α)) :
    s.after (earlier ++ later) = (s.after earlier).after later :=
  List.foldl_append

/-! ### Sessions whose factorization is at hand -/

/-- The factorization at hand is the one that the next question needs. -/
structure Served (s : Session α (CholeskySolver α)) : Prop where
  key : s.workspace.backend.key = some ⟨s.point.id, s.lambda⟩
  defined : (s.lambda == s.lambda) = true

namespace Served

/-- Nothing is done to make sure of a factorization that is at hand. -/
theorem factorize_eq (h : s.Served) : s.factorize.value = (.ok (), s) := by
  have hheld : LinearSolver.factorizedFor s.workspace.backend = some ⟨s.point.id, s.lambda⟩ := h.key
  have hsame : ((⟨s.point.id, s.lambda⟩ : FactorizationKey α) ==
      ⟨s.workspace.point.id, s.workspace.damping.lambda⟩) = true := by
    show (s.point.id == s.point.id && s.lambda == s.lambda) = true
    rw [beq_self_eq_true, h.defined, Bool.and_self]
  unfold factorize factorizeDamped
  simp only [Logged.value_bind, hheld, hsame, if_true]
  rfl

/-- A question that fits is answered with the factorization at hand, which stays at hand, and no
question changes the damping or requests another factorization. -/
theorem afterQuery (h : s.Served) (shaped : s.Shaped storage m n) (q : Query α) :
    (s.afterQuery q).Served ∧ (s.afterQuery q).lambda = s.lambda ∧
      (s.afterQuery q).factorizations = s.factorizations ∧
      (q.Fits s.states → ∃ r, s.reply q = .ok r) := by
  have hanswers := shaped.answers q
  generalize s.reply q = answer at hanswers
  generalize s.afterQuery q = next at hanswers
  cases hanswers with
  | refused question size =>
      refine ⟨h, rfl, rfl, fun fits => ?_⟩
      rw [question] at fits
      exact absurd fits size
  | exhausted fits request =>
      rw [h.factorize_eq] at request
      cases request
  | answered fits request held kept =>
      rw [h.factorize_eq] at request
      cases request
      exact ⟨⟨h.key, h.defined⟩, rfl, rfl, fun _ => ⟨_, rfl⟩⟩

theorem after (h : s.Served) (shaped : s.Shaped storage m n) (queries : List (Query α)) :
    (s.after queries).Served ∧ (s.after queries).lambda = s.lambda ∧
      (s.after queries).factorizations = s.factorizations := by
  induction queries generalizing s with
  | nil => exact ⟨h, rfl, rfl⟩
  | cons q queries ih =>
      obtain ⟨hserved, hlambda, hcount, -⟩ := h.afterQuery shaped q
      obtain ⟨hserved', hlambda', hcount'⟩ := ih hserved (shaped.afterQuery q)
      exact ⟨hserved', hlambda'.trans hlambda, hcount'.trans hcount⟩

end Served

/-- Sizes and factorizations of a session are what they should be, and its damping can grow. -/
structure Consistent (points : List (Linearization α)) (storage : Storage) (m n : Nat)
    (s : Session α (CholeskySolver α)) : Prop where
  shaped : s.Shaped storage m n
  fresh : s.workspace.Fresh points
  usable : s.settings.damping.Usable

namespace Consistent

variable [LawfulScalar α] {points : List (Linearization α)}

theorem after (h : s.Consistent points storage m n) (queries : List (Query α)) :
    (s.after queries).Consistent points storage m n := by
  obtain ⟨hfresh, hsettings⟩ := fresh_after h.usable h.fresh queries
  exact ⟨h.shaped.after queries, hfresh, hsettings ▸ h.usable⟩

/-- An answer is computed with the factor of the current Jacobian for the damping that is left, and
the factorization is at hand from then on. -/
theorem of_reply_ok (h : s.Consistent points storage m n) {r : Reply α}
    (answered : s.reply q = .ok r) :
    (s.afterQuery q).Served ∧ ∃ columns,
      (s.afterQuery q).workspace.backend.factor = some columns ∧ r = q.answer columns ∧
        (s.afterQuery q).workspace.backend.Holds s.point.jacobian (s.afterQuery q).lambda := by
  have hanswers := h.shaped.answers q
  rw [answered] at hanswers
  generalize s.afterQuery q = next at hanswers
  cases hanswers with
  | @answered s' columns inverse fits request held kept =>
      obtain ⟨hkey, hholds⟩ := Problem.Run.holds_of_factorize h.fresh h.usable request
      have hpoint : s'.point = s.point := (keeps_factorize request).point
      obtain ⟨damping, backend, hrequest, rfl⟩ := workspace_factorize request
      have hnonneg : 0 ≤ damping.lambda := (h.fresh.factorizeDamped h.usable hrequest).1.nonneg
      refine ⟨⟨hkey, (LawfulScalar.beq_self_of_le hnonneg).2⟩, columns, held, rfl, ?_⟩
      exact ⟨hholds.storage, hholds.states, hholds.factor⟩

end Consistent

end Session

namespace Problem.Run

variable {α : Type} [Scalar α] {p : Problem α} {settings : Settings α} {clock : Clock}
  {state : Vec α} {points : List (Linearization α)} {reason : Option StopReason}
  {s : Search α (CholeskySolver α)}

/-- The session that a run leaves has the sizes of the problem. -/
theorem session_shaped (h : p.Run settings clock state points reason s) :
    s.session.Shaped p.storage p.measurements state.size :=
  ⟨h.shaped, h.session_sizes.1⟩

/-- The session that a run leaves is consistent. -/
theorem consistent [LawfulScalar α] (h : p.Run settings clock state points reason s) :
    s.session.Consistent points p.storage p.measurements state.size where
  shaped := h.session_shaped
  fresh := h.fresh
  usable := by
    rw [h.settings_eq]
    exact h.usable.damping

end Problem.Run

/-! ### Answers without rounding -/

/-- An answer is right for the damped normal matrix of a Jacobian. -/
def Reply.Right (j : Jacobian ℝ) (lambda : ℝ) : Query ℝ → Reply ℝ → Prop
  | .factorize, .done => True
  | .solve rhs, .solution v => j.Solves lambda rhs v
  | .covariance, .inverse c => j.IsInverse lambda c
  | _, _ => False

namespace Session.Consistent

variable {s : Session ℝ (CholeskySolver ℝ)} {points : List (Linearization ℝ)} {storage : Storage}
  {m n : ℕ} {q : Query ℝ}

/-- An answer is right for the damping that is left. -/
theorem right (h : s.Consistent points storage m n) {r : Reply ℝ} (answered : s.reply q = .ok r) :
    r.Right s.point.jacobian (s.afterQuery q).lambda q := by
  obtain ⟨-, columns, hfactor, rfl, hholds⟩ := h.of_reply_ok answered
  cases q with
  | factorize => exact trivial
  | solve rhs => exact hholds.solves hfactor rhs
  | covariance => exact hholds.isInverse hfactor

/-- Making sure of a factorization never lowers the damping, and the count of factorizations goes down
only past the largest word. -/
theorem le_factorize (h : s.Consistent points storage m n) {answer : Except (LinearError ℝ) Unit}
    {s' : Session ℝ (CholeskySolver ℝ)} (request : s.factorize.value = (answer, s')) :
    s.lambda ≤ s'.lambda ∧
      (s.factorizations ≤ s'.factorizations ∨ wordSize ≤ s.factorizations + 2) := by
  obtain ⟨damping, backend, hmade, rfl⟩ := workspace_factorize request
  have hpositive (lambda : ℝ) (hlambda : 0 < lambda) : s.workspace.point.jacobian.Definite lambda :=
    s.workspace.point.jacobian.positiveDefinite_gram_of_pos hlambda
  obtain ⟨s₁, -, hexact⟩ := factorizeDamped_exact s.settings.damping
    h.shaped.workspace.backend.suits h.shaped.workspace.point.storage
    h.shaped.workspace.point.cols s.workspace.point.id s.workspace.damping
  rcases hserve : s.settings.damping.serve s.workspace.point.jacobian.Definite
    s.workspace.backend.key s.workspace.point.id s.workspace.damping with ⟨served, d⟩
  rw [hserve, hmade] at hexact
  cases hexact
  obtain ⟨hle, hcount⟩ := DampingSchedule.serve_le h.usable hpositive h.fresh.nonneg hserve
  refine ⟨hle, ?_⟩
  rcases Nat.lt_or_ge (s.factorizations + 2) wordSize with hroom | hfull
  · have hone := Nat.mod_eq_of_lt (Nat.lt_of_succ_lt hroom)
    have htwo := Nat.mod_eq_of_lt hroom
    left
    rcases hcount with heq | heq | heq
    · exact heq.ge
    · exact (Nat.le_add_right _ 1).trans (hone.symm.trans heq.symm).le
    · exact (Nat.le_add_right _ 2).trans (htwo.symm.trans heq.symm).le
  · exact .inr hfull

/-- A question never lowers the damping, and the count of factorizations goes down only past the
largest word. -/
theorem le_afterQuery (h : s.Consistent points storage m n) (q : Query ℝ) :
    s.lambda ≤ (s.afterQuery q).lambda ∧
      (s.factorizations ≤ (s.afterQuery q).factorizations ∨
        wordSize ≤ s.factorizations + 2) := by
  have hanswers := h.shaped.answers q
  generalize s.reply q = answer at hanswers
  generalize s.afterQuery q = next at hanswers
  cases hanswers with
  | refused question size => exact ⟨le_rfl, .inl le_rfl⟩
  | exhausted fits request => exact h.le_factorize request
  | answered fits request held kept =>
      have hle := h.le_factorize request
      exact hle

/-- If the damping may grow once, every question that fits is answered. -/
theorem exists_reply (h : s.Consistent points storage m n)
    (room : 1 ≤ s.settings.damping.maxAttempts) (fits : q.Fits s.states) :
    ∃ r, s.reply q = .ok r := by
  have hpositive (lambda : ℝ) (hlambda : 0 < lambda) : s.workspace.point.jacobian.Definite lambda :=
    s.workspace.point.jacobian.positiveDefinite_gram_of_pos hlambda
  obtain ⟨s₁, -, hexact⟩ := factorizeDamped_exact s.settings.damping
    h.shaped.workspace.backend.suits h.shaped.workspace.point.storage
    h.shaped.workspace.point.cols s.workspace.point.id s.workspace.damping
  obtain ⟨d, hserve⟩ := DampingSchedule.exists_serve_eq_ok h.usable hpositive h.fresh.nonneg room
  rw [hserve] at hexact
  have hmade : s.factorize.value.1 = .ok () := by
    unfold factorize
    simp only [Logged.value_bind, hexact]
    rfl
  have hanswers := h.shaped.answers q
  generalize s.reply q = answer at hanswers
  generalize s.afterQuery q = next at hanswers
  cases hanswers with
  | refused question size =>
      rw [question] at fits
      exact absurd fits size
  | exhausted fits request =>
      rw [request] at hmade
      cases hmade
  | answered fits request held kept => exact ⟨_, rfl⟩

end Session.Consistent

/-- Without rounding, and for every session that a search ends with: after any questions, whatever is
not damping or linear algebra is as it was. A further question does not lower the damping, nor the
count of factorizations unless that passes the largest word. A right-hand side of the wrong length is
refused and changes nothing. An answer is right for the transposed Jacobian times the Jacobian of the
point, with the damping that the session has then on the diagonal. Once a question has been answered,
no later ones change the damping or the count, every later one that fits is answered, and a solution
and an inverse that are given, in either order, agree: the solution is the inverse times the
right-hand side. -/
theorem Problem.queries_agree (p : Problem ℝ) (settings : Settings ℝ) (clock : Clock)
    (debugHeard : Bool) (state : Vec ℝ) (outcome : Outcome ℝ)
    (session : Session ℝ (CholeskySolver ℝ))
    (h : (p.solve settings clock debugHeard state).value.answer = .ok (outcome, session)) :
    session.point.jacobian.stored.cols = session.states ∧
    (∀ queries,
      session.Keeps (session.after queries) ∧
      (∀ q, (session.after queries).lambda ≤ (session.after (queries ++ [q])).lambda ∧
        ((session.after queries).factorizations ≤ (session.after (queries ++ [q])).factorizations ∨
          wordSize ≤ (session.after queries).factorizations + 2)) ∧
      (∀ rhs : Vec ℝ, rhs.size ≠ session.states →
        (session.after queries).reply (.solve rhs) =
            .error (.dimensionMismatch (.rightHandSide rhs.size session.states)) ∧
          session.after (queries ++ [.solve rhs]) = session.after queries) ∧
      ∀ q r, (session.after queries).reply q = .ok r →
        r.Right session.point.jacobian (session.after (queries ++ [q])).lambda q) ∧
    ∀ earlier q₁ r₁, (session.after earlier).reply q₁ = .ok r₁ → ∀ between,
      (session.after (earlier ++ q₁ :: between)).lambda = (session.after (earlier ++ [q₁])).lambda ∧
      (session.after (earlier ++ q₁ :: between)).factorizations =
        (session.after (earlier ++ [q₁])).factorizations ∧
      (∀ q₂, q₂.Fits session.states →
        ∃ r₂, (session.after (earlier ++ q₁ :: between)).reply q₂ = .ok r₂) ∧
      ∀ q₂ r₂, (session.after (earlier ++ q₁ :: between)).reply q₂ = .ok r₂ → ∀ rhs v c,
        ((q₁ = .solve rhs ∧ r₁ = .solution v ∧ q₂ = .covariance ∧ r₂ = .inverse c) ∨
          (q₁ = .covariance ∧ r₁ = .inverse c ∧ q₂ = .solve rhs ∧ r₂ = .solution v)) →
        ∀ i, i < session.states →
          v.entry i = ∑ k ∈ Finset.range session.states, c.entry i k * rhs.entry k := by
  obtain ⟨points, reason, s, hrun, -, rfl, -⟩ := run_of_solve rfl h
  have hconsistent := hrun.consistent
  have hcols : s.session.point.jacobian.stored.cols = s.session.states :=
    hconsistent.shaped.workspace.point.cols.trans hconsistent.shaped.states.symm
  refine ⟨hcols, fun queries => ?_, fun earlier q₁ r₁ hanswered between => ?_⟩
  · have hafter := hconsistent.after queries
    have hkeeps := hconsistent.shaped.keeps_after queries
    have hnext (q : Query ℝ) : s.session.after (queries ++ [q]) =
        (s.session.after queries).afterQuery q := Session.after_append _ _ _
    refine ⟨hkeeps, fun q => ?_, fun rhs hsize => ?_, fun q r hanswered => ?_⟩
    · rw [hnext]
      exact hafter.le_afterQuery q
    · rw [hnext, ← hkeeps.states]
      exact Session.reply_of_wrong_size (hkeeps.states ▸ hsize)
    · rw [hnext, ← hkeeps.point]
      exact hafter.right hanswered
  · have hafter := hconsistent.after earlier
    have hsecond : s.session.after (earlier ++ q₁ :: between) =
        ((s.session.after earlier).afterQuery q₁).after between := Session.after_append _ _ _
    have hfirst : s.session.after (earlier ++ [q₁]) = (s.session.after earlier).afterQuery q₁ :=
      Session.after_append _ _ _
    have hserved := (hafter.of_reply_ok hanswered).1
    have hshaped := hafter.shaped.afterQuery q₁
    obtain ⟨hserved', hlambda, hcount⟩ := hserved.after hshaped between
    have hlater := hconsistent.after (earlier ++ q₁ :: between)
    have hkeeps := hconsistent.shaped.keeps_after (earlier ++ q₁ :: between)
    rw [← hsecond] at hserved' hlambda hcount
    rw [← hfirst] at hlambda hcount
    refine ⟨hlambda, hcount, fun q₂ hfits => ?_, fun q₂ r₂ hanswered₂ rhs v c hpair i hi => ?_⟩
    · exact (hserved'.afterQuery hlater.shaped q₂).2.2.2 (hkeeps.states ▸ hfits)
    · -- both answers are about the matrix with the damping left by the first
      have hright₁ := hafter.right hanswered
      have hright₂ := hlater.right hanswered₂
      rw [(hserved'.afterQuery hlater.shaped q₂).2.1, hlambda, hkeeps.point] at hright₂
      rw [← hfirst, (hconsistent.shaped.keeps_after earlier).point] at hright₁
      rw [← hcols] at hi ⊢
      rcases hpair with ⟨rfl, rfl, rfl, rfl⟩ | ⟨rfl, rfl, rfl, rfl⟩
      · exact hright₂.solution_eq hright₁ hi
      · exact hright₁.solution_eq hright₂ hi

/-- With the standard settings and over the real numbers, a search that may attempt nothing ends with a
result. -/
theorem Problem.exists_solve_squareIsTwo :
    ∃ result,
      ((squareIsTwo : Problem ℝ).solve { Settings.standard with maxIterations := 0 } Clock.stopped
        false ⟨#[1]⟩).value.answer = .ok result := by
  have hvalid : ({ Settings.standard with maxIterations := 0 } : Settings ℝ).fault? = none :=
    Settings.fault?_standard
  exact exists_solve_of_no_attempts hvalid rfl rfl rfl rfl rfl Clock.stopped

/-- A search that attempts nothing leaves a session that solves and then gives the inverse. -/
theorem Problem.queries_agree_squareIsTwo :
    ∃ outcome session v c,
      ((squareIsTwo : Problem ℝ).solve { Settings.standard with maxIterations := 0 } Clock.stopped
        false ⟨#[1]⟩).value.answer = .ok (outcome, session) ∧
      session.reply (.solve ⟨#[1]⟩) = .ok (.solution v) ∧
      (session.after [.solve ⟨#[1]⟩]).reply .covariance = .ok (.inverse c) ∧
      v.entry 0 =
        ∑ k ∈ Finset.range session.states, c.entry 0 k * (⟨#[1]⟩ : Vec ℝ).entry k := by
  obtain ⟨⟨outcome, session⟩, h⟩ := exists_solve_squareIsTwo
  obtain ⟨points, reason, s, hrun, -, rfl, -⟩ := run_of_solve rfl h
  have hstates : s.session.states = 1 := hrun.session_sizes.1
  have hroom : 1 ≤ s.session.settings.damping.maxAttempts := by
    rw [hrun.settings_eq]
    decide
  have hfits : (Query.solve (⟨#[1]⟩ : Vec ℝ)).Fits s.session.states := hstates.symm
  obtain ⟨r, hsolved⟩ := hrun.consistent.exists_reply hroom hfits
  obtain ⟨-, columns, -, rfl, -⟩ := hrun.consistent.of_reply_ok hsolved
  obtain ⟨-, -, hpair⟩ := queries_agree _ _ _ _ _ _ _ h
  obtain ⟨-, -, hlater, hagree⟩ := hpair [] _ _ hsolved []
  obtain ⟨r, hinverse⟩ := hlater .covariance trivial
  obtain ⟨-, columns', -, rfl, -⟩ := (hrun.consistent.after [.solve ⟨#[1]⟩]).of_reply_ok hinverse
  refine ⟨outcome, s.session, _, _, h, hsolved, hinverse, ?_⟩
  exact hagree _ _ hinverse _ _ _ (.inl ⟨rfl, rfl, rfl, rfl⟩) 0 (hstates ▸ Nat.one_pos)

end TrustRegion
