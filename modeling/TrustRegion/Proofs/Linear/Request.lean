/-
Module: TrustRegion.Proofs.Linear.Request
Purpose: How a request for a factorization ends without rounding. A single request succeeds exactly if
  the damped normal matrix is positive definite, so how often the damping is raised and where that
  ends depends on the matrix and the schedule alone, and neither on the kind of storage nor on the
  order of elimination.
Main exports: CholeskySolver.Suits, CholeskySolver.Admits, CholeskySolver.Takes,
  CholeskySolver.factorize_of_not_admits, CholeskySolver.FactorizesTo.leaves,
  CholeskySolver.factorize_exact, DampingSchedule.settle,
  DampingSchedule.serve, factorizeDamped_exact, Linearization.Newton, gaussNewtonVector_exact
-/
import TrustRegion.Proofs.Linear.Definite

namespace TrustRegion

/-- The damped normal matrix of a Jacobian is positive definite. -/
def Jacobian.Definite (j : Jacobian ℝ) (lambda : ℝ) : Prop :=
  PositiveDefinite j.stored.cols (j.gram lambda)

namespace CholeskySolver

/-! ### Solvers that serve one kind of Jacobian -/

section Suits

variable {α : Type}

/-- A solver for the Jacobians of one kind with a number of states. An analysis that it kept is of
matrices of that size. -/
structure Suits (s : CholeskySolver α) (storage : Storage) (states : Nat) : Prop where
  storage : s.storage = storage
  symbolic : ∀ pattern symbolic, s.symbolic = some (pattern, symbolic) → symbolic.states = states

theorem suits_new (storage : Storage) (states : Nat) :
    (CholeskySolver.new storage : CholeskySolver α).Suits storage states :=
  ⟨rfl, fun _ _ h => nomatch h⟩

variable {s s' s'' : CholeskySolver α} {storage : Storage} {states : Nat} {j : Jacobian α}

/-- An analysis that a solver kept under the pattern of a sparse Jacobian was made for as many states.
The numbers of a sparse matrix can only be factored with an analysis of its own size. -/
def Admits (s : CholeskySolver α) (j : Jacobian α) : Prop :=
  j.storage = .sparse → ∀ symbolic,
    s.symbolic = some (StoredMatrix.positions j.stored, symbolic) → symbolic.states = j.stored.cols

/-- What requests on behalf of a Jacobian leave of a solver: its kind, and the analysis that it kept
or one of this Jacobian. -/
structure Leaves (s : CholeskySolver α) (j : Jacobian α) (s' : CholeskySolver α) : Prop where
  storage : s'.storage = s.storage
  symbolic : s'.symbolic = s.symbolic ∨ ∃ symbolic,
    s'.symbolic = some (StoredMatrix.positions j.stored, symbolic) ∧ symbolic.states = j.stored.cols

theorem Leaves.refl (s : CholeskySolver α) (j : Jacobian α) : s.Leaves j s :=
  ⟨rfl, .inl rfl⟩

theorem Leaves.trans (h : s.Leaves j s') (h' : s'.Leaves j s'') : s.Leaves j s'' := by
  refine ⟨h'.storage.trans h.storage, ?_⟩
  rcases h'.symbolic with hsame | hnew
  · rw [hsame]
    exact h.symbolic
  · exact .inr hnew

theorem Suits.admits (h : s.Suits storage states) (cols : j.stored.cols = states) : s.Admits j := by
  intro _ symbolic hkept
  rw [cols]
  exact h.symbolic _ symbolic hkept

theorem admits_new (storage : Storage) (j : Jacobian α) :
    (CholeskySolver.new storage : CholeskySolver α).Admits j :=
  (suits_new storage j.stored.cols).admits rfl

theorem Leaves.admits (left : s.Leaves j s') (h : s.Admits j) : s'.Admits j := by
  intro hsparse symbolic hkept
  rcases left.symbolic with hsame | ⟨made, hmade, hstates⟩
  · rw [hsame] at hkept
    exact h hsparse symbolic hkept
  · rw [hmade] at hkept
    cases hkept
    exact hstates

theorem Leaves.suits (left : s.Leaves j s') (h : s.Suits storage states)
    (cols : j.stored.cols = states) : s'.Suits storage states := by
  refine ⟨left.storage.trans h.storage, ?_⟩
  intro pattern symbolic hkept
  rcases left.symbolic with hsame | ⟨made, hmade, hstates⟩
  · rw [hsame] at hkept
    exact h.symbolic pattern symbolic hkept
  · rw [hmade] at hkept
    cases hkept
    exact hstates.trans cols

/-- A solver takes a Jacobian of its kind, unless it kept an analysis of another size under the same
pattern. -/
structure Takes (s : CholeskySolver α) (j : Jacobian α) : Prop where
  kind : j.storage = s.storage
  admits : s.Admits j

theorem takes_new (j : Jacobian α) : (CholeskySolver.new j.storage : CholeskySolver α).Takes j :=
  ⟨rfl, admits_new j.storage j⟩

variable [Scalar α]

/-- A Jacobian of its kind that a solver admits is factored with an analysis of its own size. -/
theorem Admits.analysed (h : s.Admits j) (kind : j.storage = s.storage) (lambda : α) :
    s.Analysed j lambda := by
  intro hsparse
  by_cases hkept : ∃ symbolic, s.symbolic = some (StoredMatrix.positions j.stored, symbolic)
  · obtain ⟨symbolic, hsymbolic⟩ := hkept
    rw [analysis_of_kept hsymbolic]
    exact h (kind.trans hsparse) symbolic hsymbolic
  · rw [analysis_of_not_kept (not_exists.mp hkept)]
    rfl

/-- And no other one of its kind is. -/
theorem analysed_iff (kind : j.storage = s.storage) (lambda : α) :
    s.Analysed j lambda ↔ s.Admits j := by
  refine ⟨fun h sparse symbolic kept => ?_, fun h => h.analysed kind lambda⟩
  rw [← analysis_of_kept kept lambda]
  exact h (kind.symm.trans sparse)

/-- A request on behalf of a Jacobian that the solver does not admit breaks off, and nothing is held
after it. -/
theorem factorize_of_not_admits (kind : j.storage = s.storage) (refused : ¬ s.Admits j)
    (key : FactorizationKey α) :
    (s.analysis j key.lambda).states ≠ j.stored.cols ∧
      (LinearSolver.factorize s j key).value =
        (.error (.analysisUnfit (s.analysis j key.lambda).states j.stored.cols),
          s.prepared j key.lambda) := by
  have hsize : ¬ s.Analysed j key.lambda := mt (analysed_iff kind key.lambda).mp refused
  exact ⟨(Classical.not_imp.mp hsize).2, (FactorizesTo.misanalysed kind hsize).value_eq⟩

/-- However a request on behalf of a Jacobian that the solver admits ends, it leaves the analysis that
was kept or one of this Jacobian. -/
theorem FactorizesTo.leaves {key : FactorizationKey α} {answer : Except (LinearError α) Unit}
    (h : s.FactorizesTo j key answer s') (admits : s.Admits j) : s.Leaves j s' := by
  have hprepared (kind : j.storage = s.storage) : s.Leaves j (s.prepared j key.lambda) := by
    refine ⟨storage_prepared s j key.lambda, ?_⟩
    unfold prepared
    cases hstorage : s.storage with
    | dense => exact .inl rfl
    | sparse => exact .inr ⟨_, rfl, admits.analysed kind key.lambda hstorage⟩
  cases h with
  | mismatched kind => exact ⟨rfl, .inl rfl⟩
  | misanalysed kind size => exact absurd (admits.analysed kind key.lambda) size
  | refused kind size made => exact hprepared kind
  | factored kind size made => exact ⟨(hprepared kind).storage, (hprepared kind).symbolic⟩

end Suits

/-! ### Requests without rounding -/

variable {s : CholeskySolver ℝ} {storage : Storage} {states : ℕ} {j : Jacobian ℝ}

/-- Without rounding every positive value serves as a pivot, in full blocks or not. -/
theorem acceptsPivot_iff (inBlocks : Bool) (x : ℝ) : acceptsPivot inBlocks x = true ↔ 0 < x := by
  have hfinite : Scalar.isFinite x = true := rfl
  simp [acceptsPivot, hfinite]

/-- The matrix that is factored for a Jacobian has a factor exactly if it is positive definite. -/
theorem exists_factor_normalMatrix_iff (j : Jacobian ℝ) (lambda : ℝ) (inBlocks : Bool) :
    (∃ columns, Cholesky.factor (acceptsPivot inBlocks) j.stored.cols (normalMatrix j lambda) =
      .ok columns) ↔ j.Definite lambda := by
  rw [Cholesky.exists_factor_iff (acceptsPivot_iff inBlocks)]
  · exact positiveDefinite_congr fun i k hi hk => value_normalMatrix j lambda hi hk
  · intro i k hi hk
    rw [value_normalMatrix j lambda hi hk, value_normalMatrix j lambda hk hi, Jacobian.gram_comm]

/-- Without rounding a request succeeds exactly if the damped normal matrix is positive definite, and
otherwise it says that a larger damping may help. -/
theorem Admits.factorize_exact (h : s.Admits j) (kind : j.storage = s.storage)
    (key : FactorizationKey ℝ) :
    (j.Definite key.lambda ∧ ∃ s' : CholeskySolver ℝ, s.Leaves j s' ∧
        (LinearSolver.factorize s j key).value = (.ok (), s')) ∨
      (¬ j.Definite key.lambda ∧ ∃ (fault : PivotFault) (s' : CholeskySolver ℝ), s.Leaves j s' ∧
          (LinearSolver.factorize s j key).value = (.error (.notPositiveDefinite fault), s')) := by
  rcases hrequest : (LinearSolver.factorize s j key).value with ⟨answer, s'⟩
  have hends := factorizesTo_of_value hrequest
  have hleft := hends.leaves h
  rw [← exists_factor_normalMatrix_iff j key.lambda (s.inBlocks j key.lambda)]
  cases hends with
  | mismatched other => exact absurd kind other
  | misanalysed _ size => exact absurd (h.analysed kind key.lambda) size
  | @refused k _ _ made =>
      refine .inr ⟨?_, _, _, hleft, rfl⟩
      rintro ⟨columns, hcolumns⟩
      rw [made] at hcolumns
      cases hcolumns
  | @factored columns _ _ made => exact .inl ⟨⟨columns, made⟩, _, hleft, rfl⟩

/-- A request to a solver that suits a Jacobian leaves one that does. -/
theorem factorize_exact (h : s.Suits storage states) (kind : j.storage = storage)
    (cols : j.stored.cols = states) (key : FactorizationKey ℝ) :
    (j.Definite key.lambda ∧ ∃ s' : CholeskySolver ℝ, s'.Suits storage states ∧
        (LinearSolver.factorize s j key).value = (.ok (), s')) ∨
      (¬ j.Definite key.lambda ∧ ∃ (fault : PivotFault) (s' : CholeskySolver ℝ),
        s'.Suits storage states ∧
          (LinearSolver.factorize s j key).value = (.error (.notPositiveDefinite fault), s')) := by
  rcases (h.admits cols).factorize_exact (kind.trans h.storage.symm) key with
    ⟨hdefinite, s', hleft, hvalue⟩ | ⟨hnot, fault, s', hleft, hvalue⟩
  · exact .inl ⟨hdefinite, s', hleft.suits h cols, hvalue⟩
  · exact .inr ⟨hnot, fault, s', hleft.suits h cols, hvalue⟩

end CholeskySolver

namespace DampingSchedule

open Classical in
/-- How a request ends, and the damping it ends with, where a factorization can be made exactly for
the numbers that `definite` holds of. The damping may be raised `remaining` more times. -/
noncomputable def settle (schedule : DampingSchedule ℝ) (definite : ℝ → Prop) :
    (remaining : ℕ) → Damping ℝ → Except (LinearError ℝ) Unit × Damping ℝ
  | remaining, damping =>
      let damping := { damping with factorizations := successorWord damping.factorizations }
      if definite damping.lambda then (.ok (), damping)
      else
        match remaining with
        | 0 => (.error (.dampingExhausted schedule.maxAttempts damping.lambda), damping)
        | remaining + 1 =>
            settle schedule definite remaining
              { damping with lambda := schedule.next damping.lambda }

open Classical in
/-- How making sure of a factorization ends, given what is held. -/
noncomputable def serve (schedule : DampingSchedule ℝ) (definite : ℝ → Prop)
    (held : Option (FactorizationKey ℝ)) (point : ℕ) (damping : Damping ℝ) :
    Except (LinearError ℝ) Unit × Damping ℝ :=
  if held = some ⟨point, damping.lambda⟩ then (.ok (), damping)
  else schedule.settle definite schedule.maxAttempts damping

variable {schedule : DampingSchedule ℝ} {definite : ℝ → Prop} {remaining : ℕ}
  {damping : Damping ℝ}

/-- Where a factorization can be made, the damping is not raised. -/
theorem settle_of_definite (h : definite damping.lambda) :
    schedule.settle definite remaining damping =
      (.ok (), { damping with factorizations := successorWord damping.factorizations }) := by
  unfold settle
  exact if_pos h

/-- Where no factorization can be made, the request is repeated with more damping. -/
theorem settle_succ_of_not_definite (h : ¬ definite damping.lambda) :
    schedule.settle definite (remaining + 1) damping =
      schedule.settle definite remaining
        { lambda := schedule.next damping.lambda
          factorizations := successorWord damping.factorizations } := by
  rw [settle]
  exact if_neg h

/-- A request ends with success or with the attempts used up. -/
theorem settle_cases (schedule : DampingSchedule ℝ) (definite : ℝ → Prop) (remaining : ℕ)
    (damping : Damping ℝ) :
    (∃ d, schedule.settle definite remaining damping = (.ok (), d) ∧ definite d.lambda) ∨
      ∃ d, schedule.settle definite remaining damping =
        (.error (.dampingExhausted schedule.maxAttempts d.lambda), d) := by
  induction remaining generalizing damping with
  | zero =>
      by_cases h : definite damping.lambda
      · exact .inl ⟨_, settle_of_definite h, h⟩
      · rw [settle]
        exact .inr ⟨_, if_neg h⟩
  | succ remaining ih =>
      by_cases h : definite damping.lambda
      · exact .inl ⟨_, settle_of_definite h, h⟩
      · rw [settle_succ_of_not_definite h]
        exact ih _

/-- If any positive damping will do, only a damping of zero does not, and the next one is positive. -/
theorem next_of_not_definite (positive : ∀ lambda, 0 < lambda → definite lambda) {lambda : ℝ}
    (nonneg : 0 ≤ lambda) (h : ¬ definite lambda) :
    lambda = 0 ∧ schedule.next lambda = schedule.initial := by
  have hzero : lambda = 0 := le_antisymm (not_lt.mp fun hpos => h (positive lambda hpos)) nonneg
  refine ⟨hzero, ?_⟩
  rw [next, hzero]
  exact if_pos (beq_self_eq_true 0)

/-- If any positive damping will do, a request that may raise it once succeeds. -/
theorem exists_settle_eq_ok (usable : schedule.Usable)
    (positive : ∀ lambda, 0 < lambda → definite lambda)
    (nonneg : 0 ≤ damping.lambda) (room : 1 ≤ remaining) :
    ∃ d, schedule.settle definite remaining damping = (.ok (), d) := by
  by_cases h : definite damping.lambda
  · exact ⟨_, settle_of_definite h⟩
  · obtain ⟨fewer, rfl⟩ := Nat.exists_eq_add_of_le' room
    rw [settle_succ_of_not_definite h]
    refine ⟨_, settle_of_definite ?_⟩
    show definite (schedule.next damping.lambda)
    rw [(next_of_not_definite positive nonneg h).2]
    exact positive _ usable.initial

/-- Where a factorization can be made, making sure of one does not raise the damping. -/
theorem serve_of_definite {held : Option (FactorizationKey ℝ)} {point : ℕ} {d : Damping ℝ}
    {answer : Except (LinearError ℝ) Unit} (h : definite damping.lambda)
    (served : schedule.serve definite held point damping = (answer, d)) :
    d.lambda = damping.lambda := by
  unfold serve at served
  split at served
  · cases served
    rfl
  · rw [settle_of_definite h] at served
    cases served
    rfl

/-- If any positive damping will do, a request never lowers the damping, and it asks at most twice. -/
theorem settle_le {d : Damping ℝ} {answer : Except (LinearError ℝ) Unit} (usable : schedule.Usable)
    (positive : ∀ lambda, 0 < lambda → definite lambda) (nonneg : 0 ≤ damping.lambda)
    (settled : schedule.settle definite remaining damping = (answer, d)) :
    damping.lambda ≤ d.lambda ∧
      (d.factorizations = (damping.factorizations + 1) % wordSize ∨
        d.factorizations = (damping.factorizations + 2) % wordSize) := by
  by_cases h : definite damping.lambda
  · rw [settle_of_definite h] at settled
    cases settled
    exact ⟨le_rfl, .inl rfl⟩
  · cases remaining with
    | zero =>
        rw [settle] at settled
        simp only [h, if_false] at settled
        cases settled
        exact ⟨le_rfl, .inl rfl⟩
    | succ fewer =>
        obtain ⟨hzero, hnext⟩ := next_of_not_definite positive nonneg h
        have hinitial : definite (schedule.next damping.lambda) := by
          rw [hnext]
          exact positive _ usable.initial
        rw [settle_succ_of_not_definite h, settle_of_definite hinitial] at settled
        cases settled
        refine ⟨?_, .inr ?_⟩
        · rw [hnext, hzero]
          exact usable.initial.le
        · show successorWord (successorWord damping.factorizations) = _
          rw [successorWord, successorWord, Nat.mod_add_mod]

/-- If any positive damping will do, making sure of a factorization never lowers the damping, and it
asks at most twice. -/
theorem serve_le {held : Option (FactorizationKey ℝ)} {point : ℕ} {d : Damping ℝ}
    {answer : Except (LinearError ℝ) Unit} (usable : schedule.Usable)
    (positive : ∀ lambda, 0 < lambda → definite lambda) (nonneg : 0 ≤ damping.lambda)
    (served : schedule.serve definite held point damping = (answer, d)) :
    damping.lambda ≤ d.lambda ∧
      (d.factorizations = damping.factorizations ∨
        d.factorizations = (damping.factorizations + 1) % wordSize ∨
        d.factorizations = (damping.factorizations + 2) % wordSize) := by
  unfold serve at served
  split at served
  · cases served
    exact ⟨le_rfl, .inl rfl⟩
  · obtain ⟨hle, hcount⟩ := settle_le usable positive nonneg served
    exact ⟨hle, .inr hcount⟩

/-- If any positive damping will do, making sure of a factorization succeeds. -/
theorem exists_serve_eq_ok {held : Option (FactorizationKey ℝ)} {point : ℕ}
    (usable : schedule.Usable) (positive : ∀ lambda, 0 < lambda → definite lambda)
    (nonneg : 0 ≤ damping.lambda) (room : 1 ≤ schedule.maxAttempts) :
    ∃ d, schedule.serve definite held point damping = (.ok (), d) := by
  unfold serve
  split
  · exact ⟨_, rfl⟩
  · exact exists_settle_eq_ok usable positive nonneg room

/-- Making sure of a factorization fails only with the attempts used up. -/
theorem serve_eq_error {held : Option (FactorizationKey ℝ)} {point : ℕ} {d : Damping ℝ}
    {error : LinearError ℝ} (h : schedule.serve definite held point damping = (.error error, d)) :
    ∃ lambda, error = .dampingExhausted schedule.maxAttempts lambda := by
  unfold serve at h
  split at h
  · cases h
  · rcases settle_cases schedule definite schedule.maxAttempts damping with
      ⟨d', hok, -⟩ | ⟨d', hexhausted⟩
    · rw [hok] at h
      cases h
    · rw [hexhausted] at h
      cases h
      exact ⟨d.lambda, rfl⟩

end DampingSchedule

section Requests

variable {schedule : DampingSchedule ℝ} {s : CholeskySolver ℝ} {storage : Storage} {states : ℕ}
  {j : Jacobian ℝ}

/-- Where a factorization can be made, it is made by the first request. -/
theorem raiseUntilFactored_of_definite (h : s.Admits j) (kind : j.storage = s.storage)
    (point remaining : ℕ) {damping : Damping ℝ} (definite : j.Definite damping.lambda) :
    ∃ s' : CholeskySolver ℝ, s.Leaves j s' ∧
      (raiseUntilFactored schedule j point remaining damping s).value =
        (.ok (), { damping with factorizations := successorWord damping.factorizations }, s') := by
  rcases h.factorize_exact kind ⟨point, damping.lambda⟩ with
    ⟨-, s', hleft, hrequest⟩ | ⟨hnot, -⟩
  · refine ⟨s', hleft, ?_⟩
    unfold raiseUntilFactored
    simp only [Logged.value_bind, hrequest, Logged.value_pure]
  · exact absurd definite hnot

/-- Raising the damping ends as the schedule and the matrix say. -/
theorem raiseUntilFactored_exact (h : s.Admits j) (kind : j.storage = s.storage)
    (point remaining : ℕ) (damping : Damping ℝ) :
    ∃ s' : CholeskySolver ℝ, s.Leaves j s' ∧
      (raiseUntilFactored schedule j point remaining damping s).value =
        ((schedule.settle j.Definite remaining damping).1,
          (schedule.settle j.Definite remaining damping).2, s') := by
  induction remaining generalizing damping s with
  | zero =>
      rcases h.factorize_exact kind ⟨point, damping.lambda⟩ with
        ⟨hdefinite, -⟩ | ⟨hnot, fault, s', hleft, hrequest⟩
      · rw [DampingSchedule.settle_of_definite hdefinite]
        exact raiseUntilFactored_of_definite h kind point 0 hdefinite
      · refine ⟨s', hleft, ?_⟩
        unfold raiseUntilFactored DampingSchedule.settle
        simp only [Logged.value_bind, hrequest, hnot, if_false]
        rfl
  | succ remaining ih =>
      rcases h.factorize_exact kind ⟨point, damping.lambda⟩ with
        ⟨hdefinite, -⟩ | ⟨hnot, fault, s₁, hleft, hrequest⟩
      · rw [DampingSchedule.settle_of_definite hdefinite]
        exact raiseUntilFactored_of_definite h kind point (remaining + 1) hdefinite
      · rw [DampingSchedule.settle_succ_of_not_definite hnot]
        unfold raiseUntilFactored
        simp only [Logged.value_bind, hrequest]
        obtain ⟨s', hrest, hvalue⟩ := ih (hleft.admits h) (kind.trans hleft.storage.symm) _
        exact ⟨s', hleft.trans hrest, hvalue⟩

/-- Making sure of a factorization serves the one that is held under the same key, and otherwise ends
as the schedule and the matrix say. -/
theorem CholeskySolver.Admits.factorizeDamped_exact (schedule : DampingSchedule ℝ) (h : s.Admits j)
    (kind : j.storage = s.storage) (point : ℕ) (damping : Damping ℝ) :
    ∃ s' : CholeskySolver ℝ, s.Leaves j s' ∧
      (factorizeDamped schedule j point damping s).value =
        ((schedule.serve j.Definite s.key point damping).1,
          (schedule.serve j.Definite s.key point damping).2, s') := by
  unfold factorizeDamped DampingSchedule.serve
  cases hkey : s.key with
  | none =>
      have hheld : LinearSolver.factorizedFor s = none := hkey
      simp only [hheld, reduceCtorEq, if_false]
      exact raiseUntilFactored_exact h kind point _ damping
  | some held =>
      have hheld : LinearSolver.factorizedFor s = some held := hkey
      obtain ⟨id, mu⟩ := held
      have hbeq : ((⟨id, mu⟩ : FactorizationKey ℝ) == ⟨point, damping.lambda⟩) =
        (id == point && mu == damping.lambda) := rfl
      simp only [hheld, hbeq, Bool.and_eq_true, beq_iff_eq, Option.some.injEq,
        FactorizationKey.mk.injEq]
      by_cases hsame : id = point ∧ mu = damping.lambda
      · simp only [hsame, and_self, if_true]
        exact ⟨s, .refl s j, rfl⟩
      · simp only [hsame, if_false]
        exact raiseUntilFactored_exact h kind point _ damping

/-- Making sure of a factorization leaves a solver that suits. -/
theorem factorizeDamped_exact (schedule : DampingSchedule ℝ) (h : s.Suits storage states)
    (kind : j.storage = storage) (cols : j.stored.cols = states) (point : ℕ)
    (damping : Damping ℝ) :
    ∃ s' : CholeskySolver ℝ, s'.Suits storage states ∧
      (factorizeDamped schedule j point damping s).value =
        ((schedule.serve j.Definite s.key point damping).1,
          (schedule.serve j.Definite s.key point damping).2, s') := by
  obtain ⟨s', hleft, hvalue⟩ := (h.admits cols).factorizeDamped_exact schedule
    (kind.trans h.storage.symm) point damping
  exact ⟨s', hleft.suits h cols, hvalue⟩

end Requests

/-- The end of the path from a point at a damping: the solution of the damped normal equations, which
is the only one. -/
structure Linearization.Newton (q : Linearization ℝ) (lambda : ℝ) (v : Vec ℝ) : Prop where
  definite : q.jacobian.Definite lambda
  size : v.size = q.jacobian.stored.cols
  solves : ∀ i, i < q.jacobian.stored.cols →
    ∑ k ∈ Finset.range q.jacobian.stored.cols, q.jacobian.gram lambda i k * v.entry k =
      -q.gradient.entry i

/-- There is one end of the path. -/
theorem Linearization.Newton.eq {q : Linearization ℝ} {lambda : ℝ} {v w : Vec ℝ}
    (hv : q.Newton lambda v) (hw : q.Newton lambda w) : v = w := by
  apply Vec.ext_entry (hv.size.trans hw.size.symm)
  intro i hi
  rw [hv.size] at hi
  exact hv.definite.eq_of_sum_eq (fun k hk => (hv.solves k hk).trans (hw.solves k hk).symm) hi

/-- A factorization of a Jacobian exists only if its damped normal matrix is positive definite. -/
theorem CholeskySolver.Holds.definite {s : CholeskySolver ℝ} {j : Jacobian ℝ} {lambda : ℝ}
    (h : s.Holds j lambda) : j.Definite lambda := by
  obtain ⟨columns, inBlocks, -, hfactor⟩ := h.factor
  exact (exists_factor_normalMatrix_iff j lambda inBlocks).mp ⟨columns, hfactor⟩

/-- A factorization of the Jacobian of a point solves for the end of the path. -/
theorem CholeskySolver.Holds.newton {s : CholeskySolver ℝ} {q : Linearization ℝ} {lambda : ℝ}
    {columns : Cholesky.Factor ℝ} (h : s.Holds q.jacobian lambda) (held : s.factor = some columns)
    (size : q.gradient.size = q.jacobian.stored.cols) :
    q.Newton lambda (Cholesky.solve columns q.gradient.neg) := by
  refine ⟨h.definite, ?_, fun i hi => ?_⟩
  · rw [Cholesky.size_solve, (h.product_eq held).2.1]
  · rw [h.sum_gram_mul_solve held _ hi]
    exact Vec.entry_ofFn (size ▸ hi)

/-- A solver that holds a factorization of the Jacobian of a point computes the end of the path. -/
theorem CholeskySolver.Holds.exists_solve {s : CholeskySolver ℝ} {q : Linearization ℝ} {lambda : ℝ}
    (h : s.Holds q.jacobian lambda) (size : q.gradient.size = q.jacobian.stored.cols) :
    ∃ v, (LinearSolver.solve s q.gradient.neg).value = .ok v ∧ q.Newton lambda v := by
  obtain ⟨columns, inBlocks, hfactor, -⟩ := h.factor
  refine ⟨Cholesky.solve columns q.gradient.neg, ?_, h.newton hfactor size⟩
  show (s.solve q.gradient.neg).value = _
  unfold CholeskySolver.solve
  simp only [hfactor, Vec.size_neg, h.states, size, ne_eq, not_true, if_false]
  rfl

/-- Computing the end of the path ends like the request for the factorization, and if that succeeds
with the solution of the damped normal equations. -/
theorem gaussNewtonVector_exact {schedule : DampingSchedule ℝ} (usable : schedule.Usable)
    {s : CholeskySolver ℝ} {storage : Storage} {states : ℕ} {q : Linearization ℝ}
    {damping : Damping ℝ} (h : s.Suits storage states) (kind : q.jacobian.storage = storage)
    (cols : q.jacobian.stored.cols = states) (size : q.gradient.size = states)
    (nonneg : 0 ≤ damping.lambda)
    (held : ∀ mu, s.key = some ⟨q.id, mu⟩ → s.Holds q.jacobian mu) :
    ∃ s' : CholeskySolver ℝ, s'.Suits storage states ∧
      ((∃ v d, schedule.serve q.jacobian.Definite s.key q.id damping = (.ok (), d) ∧
          q.Newton d.lambda v ∧ s'.key = some ⟨q.id, d.lambda⟩ ∧
          (gaussNewtonVector schedule q damping s).value = (.ok v, d, s')) ∨
        ∃ e d, schedule.serve q.jacobian.Definite s.key q.id damping = (.error e, d) ∧
          (gaussNewtonVector schedule q damping s).value = (.error e, d, s')) := by
  obtain ⟨s', hsuits, hmade⟩ := factorizeDamped_exact schedule h kind cols q.id damping
  refine ⟨s', hsuits, ?_⟩
  unfold gaussNewtonVector
  simp only [Logged.value_bind, hmade]
  rcases hserve : schedule.serve q.jacobian.Definite s.key q.id damping with ⟨answer, d⟩
  rw [hserve] at hmade
  cases answer with
  | error e => exact .inr ⟨e, d, rfl, rfl⟩
  | ok _ =>
      have hholds : s'.key = some ⟨q.id, d.lambda⟩ ∧ s'.Holds q.jacobian d.lambda := by
        rcases factorizeDamped_cases usable nonneg hmade with
          ⟨-, rfl, rfl, mu, hkey, hmu⟩ | ⟨-, -, ⟨-, hkey, hholds⟩ | ⟨⟨e, he⟩, -⟩⟩
        · obtain rfl := beq_iff_eq.mp hmu
          exact ⟨hkey, held _ hkey⟩
        · exact ⟨hkey, hholds⟩
        · cases he
      obtain ⟨hkey, hholds⟩ := hholds
      obtain ⟨v, hsolve, hnewton⟩ := hholds.exists_solve (size.trans cols.symm)
      refine .inl ⟨v, d, rfl, hnewton, hkey, ?_⟩
      simp only [Logged.value_bind, hsolve, Logged.value_pure]

end TrustRegion
