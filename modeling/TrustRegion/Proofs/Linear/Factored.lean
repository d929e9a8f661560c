/-
Module: TrustRegion.Proofs.Linear.Factored
Purpose: What a request for a factorization leaves behind. It either fails and leaves no factorization,
  or it leaves the factor of the damped normal matrix of the Jacobian it was made for, under the key it
  was made for. A request that raises the damping ends in one of the two.
Main exports: CholeskySolver.factorize_cases, DampingSchedule.Usable, Requested,
  raiseUntilFactored_step, factorizeDamped_cases, gaussNewtonVector_eq_ok
-/
import TrustRegion.Linear.Damping
import TrustRegion.Step
import TrustRegion.Proofs.Linear.Answer
import TrustRegion.Proofs.Scalar.Lawful

namespace TrustRegion

namespace CholeskySolver

variable {α : Type} [Scalar α]

/-- A request for a factorization fails and leaves none, or leaves the one that was asked for. -/
theorem factorize_cases {s s' : CholeskySolver α} {j : Jacobian α} {key : FactorizationKey α}
    {answer : Except (LinearError α) Unit} (h : (s.factorize j key).value = (answer, s')) :
    (answer = .ok () ∧ s'.key = some key ∧ s'.Holds j key.lambda) ∨
      ((∃ error, answer = .error error) ∧ s'.key = none) := by
  have hends := factorizesTo_of_value h
  cases answer with
  | ok _ => exact .inl ⟨rfl, hends.serves.key, hends.serves.holds⟩
  | error e =>
      refine .inr ⟨⟨e, rfl⟩, ?_⟩
      rw [← hends.invalidate_eq]
      rfl

/-- A product with the transposed Jacobian is computed only where the storage and the size are right. -/
theorem gradient_eq {s : CholeskySolver α} {j : Jacobian α}
    {x g : Vec α} (h : (s.gradient j x).value = .ok g) :
    j.storage = s.storage ∧ x.size = j.stored.rows ∧ g = StoredMatrix.transposeMulVec j.stored x := by
  unfold gradient matrixOf at h
  by_cases hs : j.storage = s.storage
  · simp only [hs, if_true, Logged.value_bind, Logged.value_pure] at h
    split at h
    · cases h
    · rename_i hsize
      cases h
      exact ⟨hs, Decidable.not_not.mp hsize, rfl⟩
  · simp only [hs, if_false, Logged.value_bind] at h
    cases h

/-- A product with the Jacobian is computed where the storage and the size are right. -/
theorem jacobianMul_eq {s : CholeskySolver α} {j : Jacobian α} {v : Vec α}
    (kind : j.storage = s.storage) (size : v.size = j.stored.cols) :
    (LinearSolver.jacobianMul s j v).value = .ok (StoredMatrix.mulVec j.stored v) := by
  show (s.jacobianMul j v).value = _
  unfold CholeskySolver.jacobianMul CholeskySolver.matrixOf
  simp only [kind, size, if_true, Logged.value_bind, Logged.value_pure, ne_eq, not_true, if_false]

/-- Asking for the inverse changes nothing but the inverse that is kept. -/
theorem covariance_frame (s : CholeskySolver α) :
    ∃ inverse, s.covariance.2 = { s with inverse } := by
  obtain ⟨storage, factor, key, states, symbolic, inverse⟩ := s
  cases inverse with
  | some inverse => exact ⟨some inverse, rfl⟩
  | none =>
      cases factor with
      | none => exact ⟨none, rfl⟩
      | some columns => exact ⟨_, rfl⟩

/-- A solution is computed with the factor that is held, for a right-hand side of its size. -/
theorem solve_eq_ok {s : CholeskySolver α} {rhs v : Vec α} (h : (s.solve rhs).value = .ok v) :
    ∃ columns, s.factor = some columns ∧ rhs.size = s.states ∧ v = Cholesky.solve columns rhs := by
  unfold solve at h
  cases hfactor : s.factor with
  | none =>
      simp only [hfactor] at h
      cases h
  | some columns =>
      simp only [hfactor] at h
      split at h
      · cases h
      · rename_i hsize
        cases h
        exact ⟨columns, rfl, Decidable.not_not.mp hsize, rfl⟩

end CholeskySolver

section Damping

variable {α : Type} [Scalar α]

/-- A schedule by which the damping grows from a positive number by a factor above one. -/
structure DampingSchedule.Usable (schedule : DampingSchedule α) : Prop where
  initial : 0 < schedule.initial
  factor : 1 < schedule.factor
  isFinite_factor : Scalar.isFinite schedule.factor = true

/-- How a request for a factorization of a Jacobian ends: with the factorization under the key of
the damping that was reached, or with an error and without a factorization. -/
def Requested (j : Jacobian α) (point : Nat) (answer : Except (LinearError α) Unit)
    (damping : Damping α) (s : CholeskySolver α) : Prop :=
  (answer = .ok () ∧ s.key = some ⟨point, damping.lambda⟩ ∧ s.Holds j damping.lambda) ∨
    ((∃ error, answer = .error error) ∧ s.key = none)

/-- One request either ends the attempts or is followed by the others, with more damping. -/
theorem raiseUntilFactored_step {schedule : DampingSchedule α} {j : Jacobian α}
    {point remaining : Nat} {damping damping' : Damping α} {s s' : CholeskySolver α}
    {answer : Except (LinearError α) Unit}
    (h : (raiseUntilFactored schedule j point remaining damping s).value =
      (answer, damping', s')) :
    (damping'.lambda = damping.lambda ∧ Requested j point answer damping' s') ∨
      ∃ fewer raised s₁, remaining = fewer + 1 ∧ raised.lambda = schedule.next damping.lambda ∧
        (raiseUntilFactored schedule j point fewer raised s₁).value = (answer, damping', s') := by
  rcases hrequest : (LinearSolver.factorize s j ⟨point, damping.lambda⟩).value with ⟨first, s₁⟩
  unfold raiseUntilFactored at h
  simp only [Logged.value_bind, hrequest] at h
  rcases CholeskySolver.factorize_cases hrequest with ⟨rfl, hkey, hholds⟩ | ⟨⟨e, rfl⟩, hnone⟩
  · cases h
    exact .inl ⟨rfl, .inl ⟨rfl, hkey, hholds⟩⟩
  · cases e with
    | notPositiveDefinite fault =>
        cases remaining with
        | zero =>
            cases h
            exact .inl ⟨rfl, .inr ⟨⟨_, rfl⟩, hnone⟩⟩
        | succ fewer => exact .inr ⟨fewer, _, s₁, rfl, rfl, h⟩
    | _ =>
        cases h
        exact .inl ⟨rfl, .inr ⟨⟨_, rfl⟩, hnone⟩⟩

variable [LawfulScalar α]

/-- The damping stays at least zero when it grows. -/
theorem DampingSchedule.Usable.next_nonneg {schedule : DampingSchedule α} (h : schedule.Usable)
    {lambda : α} (nonneg : 0 ≤ lambda) : 0 ≤ schedule.next lambda := by
  unfold DampingSchedule.next
  split
  · exact LawfulScalar.le_of_lt h.initial
  · exact LawfulScalar.mul_nonneg nonneg h.factor h.isFinite_factor

/-- Raising the damping keeps it at least zero and ends like a single request. -/
theorem raiseUntilFactored_cases {schedule : DampingSchedule α} (usable : schedule.Usable)
    {j : Jacobian α} {point remaining : Nat} {damping damping' : Damping α}
    {s s' : CholeskySolver α} {answer : Except (LinearError α) Unit}
    (nonneg : 0 ≤ damping.lambda)
    (h : (raiseUntilFactored schedule j point remaining damping s).value =
      (answer, damping', s')) :
    0 ≤ damping'.lambda ∧ Requested j point answer damping' s' := by
  induction remaining generalizing damping s with
  | zero =>
      obtain ⟨hlambda, hrequested⟩ | ⟨fewer, -, -, hzero, -⟩ := raiseUntilFactored_step h
      · exact ⟨hlambda ▸ nonneg, hrequested⟩
      · cases hzero
  | succ remaining ih =>
      obtain ⟨hlambda, hrequested⟩ | ⟨fewer, raised, s₁, hfewer, hraised, hrest⟩ :=
        raiseUntilFactored_step h
      · exact ⟨hlambda ▸ nonneg, hrequested⟩
      · cases hfewer
        have hnonneg : 0 ≤ raised.lambda := by
          rw [hraised]
          exact usable.next_nonneg nonneg
        exact ih hnonneg hrest

/-- Making sure of a factorization serves the one that is held, if that was made for the same point
and the same damping, and otherwise requests one. -/
theorem factorizeDamped_cases {schedule : DampingSchedule α} (usable : schedule.Usable)
    {j : Jacobian α} {point : Nat} {damping damping' : Damping α} {s s' : CholeskySolver α}
    {answer : Except (LinearError α) Unit} (nonneg : 0 ≤ damping.lambda)
    (h : (factorizeDamped schedule j point damping s).value = (answer, damping', s')) :
    (answer = .ok () ∧ damping' = damping ∧ s' = s ∧
      ∃ mu, s.key = some ⟨point, mu⟩ ∧ (mu == damping.lambda) = true) ∨
    ((∀ mu, s.key = some ⟨point, mu⟩ → (mu == damping.lambda) = false) ∧
      0 ≤ damping'.lambda ∧ Requested j point answer damping' s') := by
  unfold factorizeDamped at h
  cases hkey : s.key with
  | none =>
      have hheld : LinearSolver.factorizedFor s = none := hkey
      simp only [hheld] at h
      obtain ⟨hnonneg, hrequested⟩ := raiseUntilFactored_cases usable nonneg h
      exact .inr ⟨fun _ hmu => (nomatch hmu), hnonneg, hrequested⟩
  | some held =>
      have hheld : LinearSolver.factorizedFor s = some held := hkey
      obtain ⟨id, mu⟩ := held
      have hbeq : ((⟨id, mu⟩ : FactorizationKey α) == ⟨point, damping.lambda⟩) =
        (id == point && mu == damping.lambda) := rfl
      simp only [hheld, hbeq] at h
      split at h
      · rename_i hsame
        rw [Bool.and_eq_true, beq_iff_eq] at hsame
        obtain ⟨rfl, hsame⟩ := hsame
        cases h
        exact .inl ⟨rfl, rfl, rfl, mu, rfl, hsame⟩
      · rename_i hdiffer
        obtain ⟨hnonneg, hrequested⟩ := raiseUntilFactored_cases usable nonneg h
        refine .inr ⟨fun nu hnu => ?_, hnonneg, hrequested⟩
        cases hnu
        rwa [beq_self_eq_true, Bool.true_and, Bool.not_eq_true] at hdiffer

omit [LawfulScalar α] in
/-- The end of the path is what solving for the negative gradient gives, once a factorization has
been made sure of. -/
theorem gaussNewtonVector_eq_ok {schedule : DampingSchedule α} {q : Linearization α}
    {damping damping' : Damping α} {s s' : CholeskySolver α} {v : Vec α}
    (h : (gaussNewtonVector schedule q damping s).value = (.ok v, damping', s')) :
    (factorizeDamped schedule q.jacobian q.id damping s).value = (.ok (), damping', s') ∧
      (s'.solve q.gradient.neg).value = .ok v := by
  unfold gaussNewtonVector at h
  rcases hmade : (factorizeDamped schedule q.jacobian q.id damping s).value with ⟨answer, d, b⟩
  simp only [Logged.value_bind, hmade] at h
  cases answer with
  | error e => cases h
  | ok _ =>
      simp only [Logged.value_bind, Logged.value_pure, Prod.mk.injEq] at h
      obtain ⟨hsolve, rfl, rfl⟩ := h
      exact ⟨rfl, hsolve⟩

end Damping

end TrustRegion
