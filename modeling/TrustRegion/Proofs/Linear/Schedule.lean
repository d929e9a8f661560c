/-
Module: TrustRegion.Proofs.Linear.Schedule
Purpose: How the damping is raised, whatever does the linear algebra. The requests for one point are
  made with the numbers of the schedule in order and stop at the first answer that is not a refusal, or
  when the attempts are used up. The number left behind is the one of the last request, and the requests
  are counted.
Main exports: FaithfulSolver, DampingSchedule.solverAfter, DampingSchedule.reply,
  DampingSchedule.Concludes, DampingSchedule.Raised, raiseUntilFactored_raised,
  DampingSchedule.Usable.strictMono_iterate_next, factorizeDamped_requests
-/
import TrustRegion.Proofs.Scalar.Growth
import TrustRegion.Linear.ThresholdSolver
import TrustRegion.Proofs.Linear.Factored

namespace TrustRegion

/-! ### Solvers that report what they hold -/

/-- Linear algebra that knows what it holds: after a request that succeeded it reports the key of that
request, and after one that failed it reports nothing. -/
class FaithfulSolver (α : outParam Type) (β : Type) [LinearSolver α β] : Prop where
  factorizedFor_of_ok {s s' : β} {j : Jacobian α} {key : FactorizationKey α} :
    (LinearSolver.factorize s j key).value = (.ok (), s') →
      LinearSolver.factorizedFor s' = some key
  factorizedFor_of_error {s s' : β} {j : Jacobian α} {key : FactorizationKey α}
      {error : LinearError α} :
    (LinearSolver.factorize s j key).value = (.error error, s') →
      LinearSolver.factorizedFor s' = none

instance {α : Type} [Scalar α] : FaithfulSolver α (CholeskySolver α) where
  factorizedFor_of_ok h := by
    obtain ⟨-, hkey, -⟩ | ⟨⟨e, he⟩, -⟩ := CholeskySolver.factorize_cases h
    · exact hkey
    · cases he
  factorizedFor_of_error h := by
    obtain ⟨he, -, -⟩ | ⟨-, hnone⟩ := CholeskySolver.factorize_cases h
    · cases he
    · exact hnone

namespace ThresholdSolver

variable {α : Type} [Scalar α]

/-- A request fails for good, succeeds with enough on the diagonal, or is refused. -/
theorem factorize_cases {s s' : ThresholdSolver α} {key : FactorizationKey α}
    {answer : Except (LinearError α) Unit} (h : s.factorize key = (answer, s')) :
    (answer = .ok () ∧ s'.key = some key) ∨ ((∃ error, answer = .error error) ∧ s'.key = none) := by
  unfold factorize at h
  split at h
  · cases h
    exact .inr ⟨⟨_, rfl⟩, rfl⟩
  · split at h
    · cases h
      exact .inl ⟨rfl, rfl⟩
    · cases h
      exact .inr ⟨⟨_, rfl⟩, rfl⟩

instance : FaithfulSolver α (ThresholdSolver α) where
  factorizedFor_of_ok h := by
    obtain ⟨-, hkey⟩ | ⟨⟨e, he⟩, -⟩ := factorize_cases h
    · exact hkey
    · cases he
  factorizedFor_of_error h := by
    obtain ⟨he, -⟩ | ⟨-, hnone⟩ := factorize_cases h
    · cases he
    · exact hnone

end ThresholdSolver

namespace DampingSchedule

variable {α β : Type} [Scalar α] [LinearSolver α β]

/-! ### Requests in order -/

/-- What the request that comes after `i` others is made for. -/
def keyAt (schedule : DampingSchedule α) (point : Nat) (lambda : α) (i : Nat) :
    FactorizationKey α :=
  ⟨point, schedule.next^[i] lambda⟩

/-- A solver after the first `i` requests. -/
def solverAfter (schedule : DampingSchedule α) (j : Jacobian α) (point : Nat) (lambda : α)
    (backend : β) : Nat → β
  | 0 => backend
  | i + 1 =>
      (LinearSolver.factorize (solverAfter schedule j point lambda backend i) j
        (schedule.keyAt point lambda i)).value.2

/-- What a solver answers to the request that comes after `i` others. -/
def reply (schedule : DampingSchedule α) (j : Jacobian α) (point : Nat) (lambda : α)
    (backend : β) (i : Nat) : Except (LinearError α) Unit :=
  (LinearSolver.factorize (schedule.solverAfter j point lambda backend i) j
    (schedule.keyAt point lambda i)).value.1

variable (schedule : DampingSchedule α) (j : Jacobian α) (point : Nat) (lambda : α) (backend : β)

/-- The requests after the first are those of the solver that the first one leaves, with the next
number. -/
theorem solverAfter_next (i : Nat) :
    schedule.solverAfter j point (schedule.next lambda)
        (LinearSolver.factorize backend j ⟨point, lambda⟩).value.2 i =
      schedule.solverAfter j point lambda backend (i + 1) := by
  induction i with
  | zero => rfl
  | succ i ih =>
      rw [solverAfter, ih]
      rfl

theorem reply_next (i : Nat) :
    schedule.reply j point (schedule.next lambda)
        (LinearSolver.factorize backend j ⟨point, lambda⟩).value.2 i =
      schedule.reply j point lambda backend (i + 1) := by
  rw [reply, solverAfter_next]
  rfl

/-- The request that comes after `i` others, with its answer and what it leaves. -/
theorem factorize_solverAfter (i : Nat) :
    (LinearSolver.factorize (schedule.solverAfter j point lambda backend i) j
        (schedule.keyAt point lambda i)).value =
      (schedule.reply j point lambda backend i,
        schedule.solverAfter j point lambda backend (i + 1)) :=
  rfl

/-! ### The end of the requests -/

/-- The answer to the request after `k` others that ends the requests, and what is made of it. A
factorization and a fatal error are handed on. A refusal ends them if the damping was raised as often as
it may be, and then the error says how often that is and what the last request was made with. -/
inductive Concludes (remaining k : Nat) (lambda : α) :
    (last answer : Except (LinearError α) Unit) → Prop where
  | factored : Concludes remaining k lambda (.ok ()) (.ok ())
  | fatal {error : LinearError α} (unrefused : ∀ fault, error ≠ .notPositiveDefinite fault) :
      Concludes remaining k lambda (.error error) (.error error)
  | exhausted {fault : PivotFault} (spent : k = remaining) :
      Concludes remaining k lambda (.error (.notPositiveDefinite fault))
        (.error (.dampingExhausted schedule.maxAttempts lambda))

/-- The requests that begin with a damping and may raise it so often end with the one after `k` others:
those were refused, and it is the one that the answer, the number left behind, the count and the solver
come from. -/
structure Raised (remaining : Nat) (damping : Damping α) (k : Nat)
    (answer : Except (LinearError α) Unit) (damping' : Damping α) (backend' : β) : Prop where
  within : k ≤ remaining
  refused : ∀ i < k, ∃ fault,
    schedule.reply j point damping.lambda backend i = .error (.notPositiveDefinite fault)
  concludes : schedule.Concludes remaining k damping'.lambda
    (schedule.reply j point damping.lambda backend k) answer
  lambda : damping'.lambda = schedule.next^[k] damping.lambda
  factorizations : damping'.factorizations = (damping.factorizations + (k + 1)) % wordSize
  solver : backend' = schedule.solverAfter j point damping.lambda backend (k + 1)

variable {schedule j point lambda backend}

section Conclusion

omit [Scalar α] [LinearSolver α β]

variable {last answer : Except (LinearError α) Unit} {remaining k : Nat}

/-- The first answer ends the requests, or it is a refusal and the damping may be raised. -/
theorem concludes_or_refused (schedule : DampingSchedule α) (remaining : Nat) (lambda : α)
    (last : Except (LinearError α) Unit) :
    (∃ answer, schedule.Concludes remaining 0 lambda last answer) ∨
      ∃ fewer fault, remaining = fewer + 1 ∧ last = .error (.notPositiveDefinite fault) := by
  cases last with
  | ok _ => exact .inl ⟨_, .factored⟩
  | error error =>
      by_cases h : ∃ fault, error = .notPositiveDefinite fault
      · obtain ⟨fault, rfl⟩ := h
        cases remaining with
        | zero => exact .inl ⟨_, .exhausted rfl⟩
        | succ fewer => exact .inr ⟨fewer, fault, rfl, rfl⟩
      · exact .inl ⟨_, .fatal (not_exists.mp h)⟩

/-- One more request before all others changes nothing about the end. -/
theorem Concludes.succ (h : schedule.Concludes remaining k lambda last answer) :
    schedule.Concludes (remaining + 1) (k + 1) lambda last answer := by
  cases h with
  | factored => exact .factored
  | fatal unrefused => exact .fatal unrefused
  | exhausted spent => exact .exhausted (congrArg (· + 1) spent)

/-- Success is the success of the last request. -/
theorem Concludes.last_of_ok (h : schedule.Concludes remaining k lambda last (.ok ())) :
    last = .ok () := by
  cases h
  rfl

/-- A failure is made of the failure of the last request. -/
theorem Concludes.last_of_error {error : LinearError α}
    (h : schedule.Concludes remaining k lambda last (.error error)) :
    ∃ cause, last = .error cause := by
  cases h with
  | fatal => exact ⟨error, rfl⟩
  | exhausted => exact ⟨_, rfl⟩

end Conclusion

variable {remaining : Nat} {damping damping' : Damping α} {backend' : β}
  {answer : Except (LinearError α) Unit}

/-- The first request ends the requests. -/
theorem raised_zero (concludes : schedule.Concludes remaining 0 damping.lambda
      (schedule.reply j point damping.lambda backend 0) answer) :
    schedule.Raised j point backend remaining damping 0 answer
      { damping with factorizations := successorWord damping.factorizations }
      (schedule.solverAfter j point damping.lambda backend 1) where
  within := Nat.zero_le _
  refused _ hi := absurd hi (Nat.not_lt_zero _)
  concludes := concludes
  lambda := rfl
  factorizations := rfl
  solver := rfl

/-- The first request is refused, and the others end. -/
theorem Raised.succ {k : Nat} {fault : PivotFault}
    (refused : schedule.reply j point damping.lambda backend 0 =
      .error (.notPositiveDefinite fault))
    (rest : schedule.Raised j point (schedule.solverAfter j point damping.lambda backend 1)
      remaining ⟨schedule.next damping.lambda, successorWord damping.factorizations⟩ k answer
      damping' backend') :
    schedule.Raised j point backend (remaining + 1) damping (k + 1) answer damping' backend' where
  within := Nat.succ_le_succ rest.within
  refused := by
    intro i hi
    cases i with
    | zero => exact ⟨fault, refused⟩
    | succ i =>
        rw [← reply_next]
        exact rest.refused i (Nat.lt_of_succ_lt_succ hi)
  concludes := by
    rw [← reply_next]
    exact rest.concludes.succ
  lambda := rest.lambda
  factorizations := by
    rw [rest.factorizations, successorWord, Nat.mod_add_mod]
    congr 1
    omega
  solver := by
    rw [← solverAfter_next]
    exact rest.solver

end DampingSchedule

/-! ### The loop -/

section Loop

open DampingSchedule

variable {α β : Type} [Scalar α] [LinearSolver α β] {schedule : DampingSchedule α}
  {j : Jacobian α} {point : Nat} {damping : Damping α} {backend : β}

/-- An answer that ends the requests is what the loop returns. -/
theorem raiseUntilFactored_of_concludes {remaining : Nat} {answer : Except (LinearError α) Unit}
    (concludes : schedule.Concludes remaining 0 damping.lambda
      (schedule.reply j point damping.lambda backend 0) answer) :
    (raiseUntilFactored schedule j point remaining damping backend).value =
      (answer, { damping with factorizations := successorWord damping.factorizations },
        schedule.solverAfter j point damping.lambda backend 1) := by
  have hrequest := schedule.factorize_solverAfter j point damping.lambda backend 0
  generalize schedule.reply j point damping.lambda backend 0 = last at concludes hrequest
  have hfirst : (LinearSolver.factorize backend j ⟨point, damping.lambda⟩).value =
    (last, schedule.solverAfter j point damping.lambda backend 1) := hrequest
  rw [raiseUntilFactored.eq_def]
  simp only [Logged.value_bind, hfirst]
  cases concludes with
  | factored => rfl
  | @fatal error unrefused =>
      cases error with
      | notPositiveDefinite fault => exact absurd rfl (unrefused fault)
      | _ => rfl
  | exhausted spent =>
      subst spent
      rfl

/-- After a refusal the loop goes on with the next number of the schedule. -/
theorem raiseUntilFactored_of_reply {fewer : Nat} {fault : PivotFault}
    (refused : schedule.reply j point damping.lambda backend 0 =
      .error (.notPositiveDefinite fault)) :
    (raiseUntilFactored schedule j point (fewer + 1) damping backend).value =
      (raiseUntilFactored schedule j point fewer
        ⟨schedule.next damping.lambda, successorWord damping.factorizations⟩
        (schedule.solverAfter j point damping.lambda backend 1)).value := by
  have hfirst : (LinearSolver.factorize backend j ⟨point, damping.lambda⟩).value =
      (.error (.notPositiveDefinite fault),
        schedule.solverAfter j point damping.lambda backend 1) := by
    rw [← refused]
    rfl
  rw [raiseUntilFactored]
  simp only [Logged.value_bind, hfirst]

/-- The loop makes the requests in order and ends with the one that ends them. -/
theorem raiseUntilFactored_raised (schedule : DampingSchedule α) (j : Jacobian α) (point : Nat)
    (remaining : Nat) (damping : Damping α) (backend : β) :
    ∃ k answer damping' backend',
      (raiseUntilFactored schedule j point remaining damping backend).value =
        (answer, damping', backend') ∧
      schedule.Raised j point backend remaining damping k answer damping' backend' := by
  induction remaining generalizing damping backend with
  | zero =>
      obtain ⟨answer, hends⟩ | ⟨fewer, -, hzero, -⟩ := concludes_or_refused schedule 0 damping.lambda
        (schedule.reply j point damping.lambda backend 0)
      · exact ⟨0, _, _, _, raiseUntilFactored_of_concludes hends, raised_zero hends⟩
      · cases hzero
  | succ remaining ih =>
      obtain ⟨answer, hends⟩ | ⟨fewer, fault, hfewer, hrefused⟩ := concludes_or_refused schedule
        (remaining + 1) damping.lambda (schedule.reply j point damping.lambda backend 0)
      · exact ⟨0, _, _, _, raiseUntilFactored_of_concludes hends, raised_zero hends⟩
      · cases hfewer
        obtain ⟨k, answer, damping', backend', hvalue, hraised⟩ :=
          ih ⟨schedule.next damping.lambda, successorWord damping.factorizations⟩
            (schedule.solverAfter j point damping.lambda backend 1)
        rw [← raiseUntilFactored_of_reply hrefused] at hvalue
        exact ⟨k + 1, answer, damping', backend', hvalue, hraised.succ hrefused⟩

/-- Where a factorization is reported that was made for the point and the damping, nothing is done. -/
theorem factorizeDamped_of_reported
    (reported : (LinearSolver.factorizedFor backend == some ⟨point, damping.lambda⟩) = true) :
    factorizeDamped schedule j point damping backend = pure (.ok (), damping, backend) := by
  unfold factorizeDamped
  cases hheld : LinearSolver.factorizedFor backend with
  | none =>
      rw [hheld] at reported
      cases reported
  | some held =>
      rw [hheld, Option.some_beq_some] at reported
      simp only [reported, if_true]

/-- Otherwise the requests begin. -/
theorem factorizeDamped_of_unreported
    (unreported : (LinearSolver.factorizedFor backend == some ⟨point, damping.lambda⟩) = false) :
    factorizeDamped schedule j point damping backend =
      raiseUntilFactored schedule j point schedule.maxAttempts damping backend := by
  unfold factorizeDamped
  cases hheld : LinearSolver.factorizedFor backend with
  | none => rfl
  | some held =>
      rw [hheld, Option.some_beq_some] at unreported
      simp only [unreported, Bool.false_eq_true, if_false]

variable [FaithfulSolver α β]

/-- After a success the solver reports the point and the damping left behind. -/
theorem DampingSchedule.Raised.factorizedFor_of_ok {remaining k : Nat} {damping' : Damping α}
    {backend' : β}
    (h : schedule.Raised j point backend remaining damping k (.ok ()) damping' backend') :
    LinearSolver.factorizedFor backend' = some ⟨point, damping'.lambda⟩ := by
  have hrequest := schedule.factorize_solverAfter j point damping.lambda backend k
  rw [h.concludes.last_of_ok, ← h.solver] at hrequest
  rw [FaithfulSolver.factorizedFor_of_ok hrequest, h.lambda]
  rfl

/-- After a failure the solver reports nothing. -/
theorem DampingSchedule.Raised.factorizedFor_of_error {remaining k : Nat} {damping' : Damping α}
    {backend' : β} {error : LinearError α}
    (h : schedule.Raised j point backend remaining damping k (.error error) damping' backend') :
    LinearSolver.factorizedFor backend' = none := by
  have hrequest := schedule.factorize_solverAfter j point damping.lambda backend k
  obtain ⟨cause, hcause⟩ := h.concludes.last_of_error
  rw [hcause, ← h.solver] at hrequest
  exact FaithfulSolver.factorizedFor_of_error hrequest

end Loop

/-! ### The numbers requested -/

namespace DampingSchedule

/-- Without rounding the next number is larger. -/
theorem Usable.lt_next {s : DampingSchedule ℝ} (h : s.Usable) {lambda : ℝ} (nonneg : 0 ≤ lambda) :
    lambda < s.next lambda := by
  rcases nonneg.eq_or_lt with rfl | hpos
  · rw [next, if_pos (beq_self_eq_true 0)]
    exact h.initial
  · rw [next, GrowingScalar.beq_zero_of_pos hpos, if_neg Bool.false_ne_true]
    exact lt_mul_of_one_lt_right hpos h.factor

/-- Without rounding the numbers requested grow strictly. -/
theorem Usable.strictMono_iterate_next {s : DampingSchedule ℝ} (h : s.Usable) {lambda : ℝ}
    (nonneg : 0 ≤ lambda) : StrictMono fun i => s.next^[i] lambda := by
  have hnonneg (i : ℕ) : 0 ≤ s.next^[i] lambda := by
    induction i with
    | zero => exact nonneg
    | succ i ih =>
        rw [Function.iterate_succ_apply']
        exact h.next_nonneg ih
  apply strictMono_nat_of_lt_succ
  intro i
  rw [Function.iterate_succ_apply']
  exact h.lt_next (hnonneg i)

end DampingSchedule

/-- Making sure of a factorization, whatever does the linear algebra. If the solver reports one for the
point and the damping, nothing is done. Otherwise the requests are made for the point in the order of
the schedule until one is not refused or no raise is left, and each is counted. After a success the
solver reports the point and the damping left behind, and unless that is a value that differs from
itself there is nothing to do the second time. Without rounding the dampings grow strictly. -/
theorem factorizeDamped_requests {α β : Type} [Scalar α] [LinearSolver α β] [FaithfulSolver α β]
    (schedule : DampingSchedule α) (j : Jacobian α) (point : Nat) (damping : Damping α)
    (backend : β) :
    ((LinearSolver.factorizedFor backend == some ⟨point, damping.lambda⟩) = true →
      factorizeDamped schedule j point damping backend = pure (.ok (), damping, backend)) ∧
    ((LinearSolver.factorizedFor backend == some ⟨point, damping.lambda⟩) = false →
      ∃ k answer damping' backend',
        (factorizeDamped schedule j point damping backend).value = (answer, damping', backend') ∧
        schedule.Raised j point backend schedule.maxAttempts damping k answer damping' backend' ∧
        (answer = .ok () →
          LinearSolver.factorizedFor backend' = some ⟨point, damping'.lambda⟩ ∧
          ((damping'.lambda == damping'.lambda) = true →
            factorizeDamped schedule j point damping' backend' =
              pure (.ok (), damping', backend'))) ∧
        ∀ error, answer = .error error → LinearSolver.factorizedFor backend' = none) ∧
    ∀ s : DampingSchedule ℝ, s.Usable → ∀ lambda, 0 ≤ lambda →
      StrictMono fun i => s.next^[i] lambda := by
  refine ⟨factorizeDamped_of_reported, ?_, fun s usable lambda nonneg =>
    usable.strictMono_iterate_next nonneg⟩
  intro hunreported
  obtain ⟨k, answer, damping', backend', hvalue, hraised⟩ :=
    raiseUntilFactored_raised schedule j point schedule.maxAttempts damping backend
  rw [← factorizeDamped_of_unreported hunreported] at hvalue
  refine ⟨k, answer, damping', backend', hvalue, hraised, ?_, ?_⟩
  · rintro rfl
    have hkey := hraised.factorizedFor_of_ok
    refine ⟨hkey, fun hself => factorizeDamped_of_reported ?_⟩
    rw [hkey, Option.some_beq_some]
    show (point == point && damping'.lambda == damping'.lambda) = true
    rw [beq_self_eq_true, hself]
    rfl
  · rintro error rfl
    exact hraised.factorizedFor_of_error

/-- With a threshold of five the requests are made with zero, one and ten, and the third succeeds. -/
theorem factorizeDamped_threshold_five :
    ∃ backend : ThresholdSolver ℝ,
      (factorizeDamped ⟨1, 10, 3⟩ (.sparse ⟨0, 0, [], .empty 0 0⟩) 7 ⟨0, 0⟩
          (ThresholdSolver.new (5 : ℝ) none)).value = (.ok (), ⟨10, 3⟩, backend) ∧
      backend.requests = [⟨7, 0⟩, ⟨7, 1⟩, ⟨7, 10⟩] ∧
      LinearSolver.factorizedFor backend = some ⟨7, 10⟩ ∧
      factorizeDamped ⟨1, 10, 3⟩ (.sparse ⟨0, 0, [], .empty 0 0⟩) 7 ⟨10, 3⟩ backend =
        pure (.ok (), ⟨10, 3⟩, backend) := by
  have hzero : ¬ (5 : ℝ) ≤ 0 := by norm_num
  have hone : ¬ (5 : ℝ) ≤ 1 := by norm_num
  have hten : (5 : ℝ) ≤ 10 := by norm_num
  have hcomputed : (factorizeDamped (⟨1, 10, 3⟩ : DampingSchedule ℝ)
      (.sparse ⟨0, 0, [], .empty 0 0⟩) 7 ⟨0, 0⟩ (ThresholdSolver.new (5 : ℝ) none)).value =
      (.ok (), ⟨10, 3⟩,
        ⟨5, none, [⟨7, 0⟩, ⟨7, 1⟩, ⟨7, 10⟩], some ⟨7, 10⟩⟩) := by
    simp [-bind_pure_comp, factorizeDamped, raiseUntilFactored, LinearSolver.factorize,
      ThresholdSolver.factorize, ThresholdSolver.new, LinearSolver.factorizedFor,
      DampingSchedule.next, successorWord, wordSize, hzero, hone, hten]
  obtain ⟨k, answer, damping', backend', hvalue, -, hok, -⟩ :=
    (factorizeDamped_requests (⟨1, 10, 3⟩ : DampingSchedule ℝ) (.sparse ⟨0, 0, [], .empty 0 0⟩) 7
      ⟨0, 0⟩ (ThresholdSolver.new (5 : ℝ) none)).2.1 rfl
  rw [hcomputed] at hvalue
  cases hvalue
  obtain ⟨hkey, hagain⟩ := hok rfl
  exact ⟨_, hcomputed, rfl, hkey, hagain (beq_self_eq_true _)⟩

end TrustRegion
