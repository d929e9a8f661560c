/-
Module: TrustRegion.Proofs.Linear.Recovery
Purpose: When damping helps, and how much of it. Without rounding the normal matrix can be factored
  exactly if the damping is positive or the columns of the Jacobian are independent, so a request that
  fails without damping succeeds with the first number of the schedule, and a request that is damped
  does not fail at all. Damping does not help where the analysis that is found is for another number of
  states.
Main exports: Jacobian.FullColumnRank, Jacobian.definite_zero_iff, Jacobian.definite_iff, Recovered,
  factorizeDamped_recovered, factorizeDamped_of_not_admits
-/
import TrustRegion.Proofs.Linear.Ready

namespace TrustRegion

open Finset

namespace Jacobian

/-- The columns of a Jacobian are linearly independent. -/
def FullColumnRank (j : Jacobian ℝ) : Prop :=
  LinearIndependent ℝ fun (i : Fin j.stored.cols) (r : Fin j.stored.rows) => j.slope r i

variable {j : Jacobian ℝ} {lambda : ℝ}

/-- The columns are independent if only the zero vector is lost. -/
theorem fullColumnRank_iff :
    j.FullColumnRank ↔ ∀ v : Fin j.stored.cols → ℝ,
      (∀ r : Fin j.stored.rows, ∑ i : Fin j.stored.cols, j.slope r i * v i = 0) → ∀ i, v i = 0 := by
  rw [FullColumnRank, Fintype.linearIndependent_iff]
  refine forall_congr' fun v => imp_congr_left ?_
  rw [funext_iff]
  refine forall_congr' fun r => ?_
  rw [Finset.sum_apply]
  simp only [Pi.smul_apply, smul_eq_mul, Pi.zero_apply, mul_comm]

/-- Without damping the normal matrix is positive definite exactly if the columns are independent. -/
theorem definite_zero_iff : j.Definite 0 ↔ j.FullColumnRank := by
  rw [fullColumnRank_iff]
  constructor
  · intro hdefinite v himage i
    by_contra hne
    -- a vector that is lost, with zeros behind it, makes the form vanish
    have hpos := hdefinite (fun k => if h : k < j.stored.cols then v ⟨k, h⟩ else 0)
      ⟨i, i.isLt, by rwa [dif_pos i.isLt]⟩
    rw [quadraticForm_gram, zero_mul, add_zero] at hpos
    apply hpos.ne'
    apply sum_eq_zero
    intro r hr
    rw [sum_range]
    simp only [Fin.is_lt, dif_pos]
    rw [himage ⟨r, mem_range.mp hr⟩, zero_pow two_ne_zero]
  · intro hinjective
    apply positiveDefinite_gram_zero
    intro v himage i hi
    refine hinjective (fun i => v i) ?_ ⟨i, hi⟩
    intro r
    rw [← himage r r.isLt, sum_range]

/-- A damping that is positive serves every Jacobian, and none serves those with independent
columns. -/
theorem definite_iff (nonneg : 0 ≤ lambda) : j.Definite lambda ↔ 0 < lambda ∨ j.FullColumnRank := by
  constructor
  · intro hdefinite
    rcases nonneg.eq_or_lt with rfl | hpos
    · exact .inr (definite_zero_iff.mp hdefinite)
    · exact .inl hpos
  · rintro (hpos | hrank)
    · exact j.positiveDefinite_gram_of_pos hpos
    · rcases nonneg.eq_or_lt with rfl | hpos
      · exact definite_zero_iff.mpr hrank
      · exact j.positiveDefinite_gram_of_pos hpos

end Jacobian

/-- The damping after a request for a Jacobian that raised it so often. It is kept if it is positive or
the columns are independent, and raised once, from zero to the first number of the schedule,
otherwise. Every raise is one request more. -/
inductive Recovered (schedule : DampingSchedule ℝ) (j : Jacobian ℝ) (before : Damping ℝ) :
    (raises : ℕ) → Damping ℝ → Prop where
  | kept (enough : 0 < before.lambda ∨ j.FullColumnRank) :
      Recovered schedule j before 0
        { before with factorizations := successorWord before.factorizations }
  | raised (undamped : before.lambda = 0) (dependent : ¬ j.FullColumnRank) :
      Recovered schedule j before 1
        { lambda := schedule.initial
          factorizations := successorWord (successorWord before.factorizations) }

section Recovery

variable {schedule : DampingSchedule ℝ} {j : Jacobian ℝ} {s : CholeskySolver ℝ} {point : ℕ}
  {damping : Damping ℝ}

/-- A request that succeeds leaves the factorization under its key, and no warning is emitted. -/
theorem raiseUntilFactored_of_ok (schedule : DampingSchedule ℝ) (damping : Damping ℝ)
    {s' : CholeskySolver ℝ} (remaining : ℕ)
    (request : (LinearSolver.factorize s j ⟨point, damping.lambda⟩).value = (.ok (), s')) :
    (raiseUntilFactored schedule j point remaining damping s).value =
        (.ok (), { damping with factorizations := successorWord damping.factorizations }, s') ∧
      (raiseUntilFactored schedule j point remaining damping s).raises = 0 ∧
      s'.key = some ⟨point, damping.lambda⟩ ∧ s'.Holds j damping.lambda := by
  have hcalm : (LinearSolver.factorize s j ⟨point, damping.lambda⟩).raises = 0 :=
    CholeskySolver.raises_factorize s j _
  obtain ⟨-, hkey, hholds⟩ | ⟨⟨e, he⟩, -⟩ := CholeskySolver.factorize_cases request
  · refine ⟨?_, ?_, hkey, hholds⟩
    · unfold raiseUntilFactored
      simp only [Logged.value_bind, request, Logged.value_pure]
    · unfold raiseUntilFactored
      simp only [Logged.raises_bind, request, hcalm, Logged.raises_pure]
  · cases he

/-- A request that is refused is repeated with the next damping, after one warning. -/
theorem raiseUntilFactored_of_refused (schedule : DampingSchedule ℝ) (damping : Damping ℝ)
    {s' : CholeskySolver ℝ} {fault : PivotFault} (fewer : ℕ)
    (request : (LinearSolver.factorize s j ⟨point, damping.lambda⟩).value =
      (.error (.notPositiveDefinite fault), s')) :
    (raiseUntilFactored schedule j point (fewer + 1) damping s).value =
        (raiseUntilFactored schedule j point fewer
          ⟨schedule.next damping.lambda, successorWord damping.factorizations⟩ s').value ∧
      (raiseUntilFactored schedule j point (fewer + 1) damping s).raises =
        1 + (raiseUntilFactored schedule j point fewer
          ⟨schedule.next damping.lambda, successorWord damping.factorizations⟩ s').raises := by
  have hcalm : (LinearSolver.factorize s j ⟨point, damping.lambda⟩).raises = 0 :=
    CholeskySolver.raises_factorize s j _
  constructor
  · rw [raiseUntilFactored]
    simp only [Logged.value_bind, request]
  · rw [raiseUntilFactored]
    simp only [Logged.raises_bind, request, hcalm, Logged.raises_emit, Event.isRaise, if_true,
      zero_add]

/-- A request that may raise the damping once recovers. -/
theorem raiseUntilFactored_recovered (admits : s.Admits j) (kind : j.storage = s.storage)
    (initial : 0 < schedule.initial) (nonneg : 0 ≤ damping.lambda) (point fewer : ℕ) :
    ∃ d s', (raiseUntilFactored schedule j point (fewer + 1) damping s).value = (.ok (), d, s') ∧
      Recovered schedule j damping
        (raiseUntilFactored schedule j point (fewer + 1) damping s).raises d ∧
      s'.key = some ⟨point, d.lambda⟩ ∧ s'.Holds j d.lambda := by
  rcases admits.factorize_exact kind ⟨point, damping.lambda⟩ with
    ⟨hdefinite, s', -, hrequest⟩ | ⟨hnot, fault, s₁, hleft, hrequest⟩
  · obtain ⟨hvalue, hraises, hkey, hholds⟩ :=
      raiseUntilFactored_of_ok schedule damping (fewer + 1) hrequest
    rw [hraises]
    exact ⟨_, s', hvalue, .kept ((Jacobian.definite_iff nonneg).mp hdefinite), hkey, hholds⟩
  · -- only no damping at all can fail, and the next one is the first of the schedule
    have hpositive (lambda : ℝ) (hlambda : 0 < lambda) : j.Definite lambda :=
      j.positiveDefinite_gram_of_pos hlambda
    obtain ⟨hzero, hnext⟩ := DampingSchedule.next_of_not_definite hpositive nonneg hnot
    have hdependent : ¬ j.FullColumnRank := (not_or.mp (mt (Jacobian.definite_iff nonneg).mpr hnot)).2
    obtain ⟨hrest, hraised⟩ := raiseUntilFactored_of_refused schedule damping fewer hrequest
    rw [hrest, hraised, hnext]
    rcases (hleft.admits admits).factorize_exact (kind.trans hleft.storage.symm)
      ⟨point, schedule.initial⟩ with ⟨-, s', -, hagain⟩ | ⟨hnever, -⟩
    · obtain ⟨hvalue, hraises, hkey, hholds⟩ := raiseUntilFactored_of_ok schedule
        ⟨schedule.initial, successorWord damping.factorizations⟩ fewer hagain
      rw [hraises]
      exact ⟨_, s', hvalue, .raised hzero hdependent, hkey, hholds⟩
    · exact absurd (hpositive schedule.initial initial) hnever

/-- Where nothing is held for a point, making sure of a factorization is a request for one. -/
theorem factorizeDamped_of_unheld {α : Type} [Scalar α] (schedule : DampingSchedule α)
    {s : CholeskySolver α} (j : Jacobian α) {point : ℕ} (damping : Damping α)
    (unheld : ∀ mu, s.key ≠ some ⟨point, mu⟩) :
    factorizeDamped schedule j point damping s =
      raiseUntilFactored schedule j point schedule.maxAttempts damping s := by
  unfold factorizeDamped
  cases hkey : s.key with
  | none =>
      have hheld : LinearSolver.factorizedFor s = none := hkey
      simp only [hheld]
  | some held =>
      have hheld : LinearSolver.factorizedFor s = some held := hkey
      obtain ⟨id, mu⟩ := held
      have hother : (id == point) = false := by
        apply beq_false_of_ne
        rintro rfl
        exact unheld mu hkey
      have hbeq : ((⟨id, mu⟩ : FactorizationKey α) == ⟨point, damping.lambda⟩) = false := by
        show (id == point && mu == damping.lambda) = false
        rw [hother, Bool.false_and]
      simp only [hheld, hbeq, Bool.false_eq_true, if_false]

/-- Making sure of a factorization at a point for which none is held succeeds, with the damping there
is or with the first of the schedule. -/
theorem factorizeDamped_recovered (admits : s.Admits j) (kind : j.storage = s.storage)
    (unheld : ∀ mu, s.key ≠ some ⟨point, mu⟩) (initial : 0 < schedule.initial)
    (room : 1 ≤ schedule.maxAttempts) (nonneg : 0 ≤ damping.lambda) :
    ∃ d s', (factorizeDamped schedule j point damping s).value = (.ok (), d, s') ∧
      Recovered schedule j damping (factorizeDamped schedule j point damping s).raises d ∧
      s'.key = some ⟨point, d.lambda⟩ ∧ s'.Holds j d.lambda := by
  obtain ⟨fewer, hfewer⟩ := Nat.exists_eq_add_of_le' room
  rw [factorizeDamped_of_unheld schedule j damping unheld, hfewer]
  exact raiseUntilFactored_recovered admits kind initial nonneg point fewer

/-- If the solver does not admit the Jacobian, making sure of a factorization breaks off with the first
request, however often the damping may be raised. -/
theorem factorizeDamped_of_not_admits {α : Type} [Scalar α] (schedule : DampingSchedule α)
    {s : CholeskySolver α} {j : Jacobian α} {point : ℕ} (damping : Damping α)
    (kind : j.storage = s.storage) (refused : ¬ s.Admits j)
    (unheld : ∀ mu, s.key ≠ some ⟨point, mu⟩) :
    ∃ analysed s', analysed ≠ j.stored.cols ∧ s'.key = none ∧
      (factorizeDamped schedule j point damping s).value =
        (.error (.analysisUnfit analysed j.stored.cols),
          { damping with factorizations := successorWord damping.factorizations }, s') ∧
      (factorizeDamped schedule j point damping s).raises = 0 := by
  obtain ⟨hsize, hrequest⟩ :=
    CholeskySolver.factorize_of_not_admits kind refused ⟨point, damping.lambda⟩
  have hcalm : (LinearSolver.factorize s j ⟨point, damping.lambda⟩).raises = 0 :=
    CholeskySolver.raises_factorize s j _
  have hkey : (s.prepared j damping.lambda).key = none := by
    rw [← CholeskySolver.invalidate_prepared]
    rfl
  refine ⟨_, _, hsize, hkey, ?_⟩
  rw [factorizeDamped_of_unheld schedule j damping unheld, raiseUntilFactored.eq_def]
  simp only [Logged.value_bind, Logged.raises_bind, hrequest, hcalm, Logged.value_pure,
    Logged.raises_pure, Nat.add_zero, and_self]

end Recovery

end TrustRegion
