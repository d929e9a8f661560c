/-
Module: TrustRegion.Proofs.Linear.History
Purpose: What a solver answers after any calls in any order. A request or an invalidation replaces what is
  held, also when it fails, and questions leave it alone. So the answers depend on the last request or
  invalidation only: if that was a request that succeeded they are those of its matrix, and otherwise
  there are none.
Main exports: CholeskySolver.Call, CholeskySolver.after, CholeskySolver.LastFactored,
  CholeskySolver.LastFactored.serves, CholeskySolver.lastFactored_or_empty,
  CholeskySolver.answers_after
-/
import TrustRegion.Proofs.Linear.NormalEquations

namespace TrustRegion

namespace CholeskySolver

/-! ### Calls -/

/-- One use of a solver. -/
inductive Call (α : Type) where
  | factorize (jacobian : Jacobian α) (key : FactorizationKey α)
  | invalidate
  | solve (rhs : Vec α)
  | covariance
  | standardErrors
  | gradient (jacobian : Jacobian α) (x : Vec α)
  | jacobianMul (jacobian : Jacobian α) (v : Vec α)

/-- Everything but a request for a factorization and an invalidation is a question. -/
def Call.isQuestion {α : Type} : Call α → Bool
  | .factorize _ _ | .invalidate => false
  | .solve _ | .covariance | .standardErrors | .gradient _ _ | .jacobianMul _ _ => true

variable {α : Type} [Scalar α]

/-- What a call leaves of a solver. Solutions and products are computed without a trace. -/
def afterCall (s : CholeskySolver α) : Call α → CholeskySolver α
  | .factorize j key => (LinearSolver.factorize s j key).value.2
  | .invalidate => LinearSolver.invalidate s
  | .covariance => (LinearSolver.covariance s).2
  | .standardErrors => s.standardErrors.2
  | .solve _ | .gradient _ _ | .jacobianMul _ _ => s

/-- What some calls leave of a new solver. -/
def after (storage : Storage) (calls : List (Call α)) : CholeskySolver α :=
  calls.foldl afterCall (new storage)

/-- The last request or invalidation among some calls is a request that succeeded. -/
def LastFactored (storage : Storage) (calls : List (Call α)) (j : Jacobian α)
    (key : FactorizationKey α) : Prop :=
  ∃ before questions, calls = before ++ .factorize j key :: questions ∧
    (∀ question ∈ questions, question.isQuestion = true) ∧
    (LinearSolver.factorize (after storage before) j key).value.1 = .ok ()

variable {storage : Storage} {calls : List (Call α)} {s : CholeskySolver α} {j : Jacobian α}
  {key : FactorizationKey α} {call : Call α}

@[simp] theorem after_concat (storage : Storage) (calls : List (Call α)) (call : Call α) :
    after storage (calls ++ [call]) = (after storage calls).afterCall call := by
  simp only [after, List.foldl_append, List.foldl_cons, List.foldl_nil]

/-! ### Questions -/

/-- The standard errors leave what the inverse they are computed from leaves. -/
theorem standardErrors_snd (s : CholeskySolver α) : s.standardErrors.2 = s.covariance.2 := by
  unfold standardErrors
  obtain ⟨inverse, s'⟩ := s.covariance
  cases inverse with
  | none => rfl
  | some inverse =>
      dsimp only
      split <;> rfl

/-- A question leaves a solver as it is, or as looking for the inverse leaves it. -/
theorem afterCall_question (s : CholeskySolver α) (question : call.isQuestion = true) :
    s.afterCall call = s ∨ s.afterCall call = s.covariance.2 := by
  cases call with
  | factorize j' key' => cases question
  | invalidate => cases question
  | covariance => exact .inr rfl
  | standardErrors => exact .inr s.standardErrors_snd
  | solve rhs | gradient j' x | jacobianMul j' v => exact .inl rfl

/-- No question changes what a solver reports to be factored for. -/
theorem key_afterCall (s : CholeskySolver α) (question : call.isQuestion = true) :
    (s.afterCall call).key = s.key := by
  rcases s.afterCall_question question with hsame | hcovariance
  · rw [hsame]
  · obtain ⟨inverse, hframe⟩ := s.covariance_frame
    rw [hcovariance, hframe]

/-- A question keeps what is held. -/
theorem Serves.afterCall (h : s.Serves j key) (question : call.isQuestion = true) :
    (s.afterCall call).Serves j key := by
  rcases s.afterCall_question question with hsame | hcovariance
  · rw [hsame]
    exact h
  · rw [hcovariance]
    exact h.covariance.2

theorem Serves.foldl (h : s.Serves j key) {questions : List (Call α)}
    (asked : ∀ question ∈ questions, question.isQuestion = true) :
    (questions.foldl CholeskySolver.afterCall s).Serves j key := by
  induction questions generalizing s with
  | nil => exact h
  | cons question questions ih =>
      exact ih (h.afterCall (asked question List.mem_cons_self))
        fun other hother => asked other (List.mem_cons_of_mem question hother)

/-- The covariance of a solver that holds nothing is not known, and looking for it leaves nothing. -/
theorem covariance_of_empty (h : s.invalidate = s) : s.covariance = (none, s) := by
  rw [← h]
  rfl

/-- A question leaves a solver that holds nothing as it is. -/
theorem afterCall_of_empty (h : s.invalidate = s) (question : call.isQuestion = true) :
    s.afterCall call = s := by
  rcases s.afterCall_question question with hsame | hcovariance
  · exact hsame
  · rw [hcovariance, covariance_of_empty h]

/-! ### Histories -/

/-- After a request that succeeded and any questions the solver serves its Jacobian. -/
theorem LastFactored.serves (h : LastFactored storage calls j key) :
    (after storage calls).Serves j key := by
  obtain ⟨before, questions, rfl, hquestions, hmade⟩ := h
  have hrequest := (after storage before).factorizesTo j key
  rw [hmade] at hrequest
  show ((before ++ Call.factorize j key :: questions).foldl CholeskySolver.afterCall _).Serves j key
  rw [List.foldl_append, List.foldl_cons]
  exact hrequest.serves.foldl hquestions

/-- A question after a request that succeeded is one more. -/
theorem LastFactored.concat (h : LastFactored storage calls j key)
    (question : call.isQuestion = true) : LastFactored storage (calls ++ [call]) j key := by
  obtain ⟨before, questions, rfl, hquestions, hmade⟩ := h
  refine ⟨before, questions ++ [call], by rw [List.append_assoc, List.cons_append], ?_, hmade⟩
  intro other hother
  rcases List.mem_append.mp hother with hbefore | hlast
  · exact hquestions other hbefore
  · rw [List.mem_singleton.mp hlast]
    exact question

/-- After any calls the last request succeeded and nothing but questions followed, or nothing is
held. -/
theorem lastFactored_or_empty (storage : Storage) (calls : List (Call α)) :
    (∃ j key, LastFactored storage calls j key) ∨
      (after storage calls).invalidate = after storage calls := by
  induction calls using List.reverseRecOn with
  | nil => exact .inr rfl
  | append_singleton calls call ih =>
      rw [after_concat]
      cases hquestion : call.isQuestion with
      | true =>
          rcases ih with ⟨j, key, hlast⟩ | hempty
          · exact .inl ⟨j, key, hlast.concat hquestion⟩
          · rw [afterCall_of_empty hempty hquestion]
            exact .inr hempty
      | false =>
          cases call with
          | factorize j key =>
              have hrequest := (after storage calls).factorizesTo j key
              cases hanswer : (LinearSolver.factorize (after storage calls) j key).value.1 with
              | ok => exact .inl ⟨j, key, calls, [], rfl, List.forall_mem_nil _, hanswer⟩
              | error error =>
                  rw [hanswer] at hrequest
                  exact .inr hrequest.invalidate_eq
          | invalidate => exact .inr rfl
          | _ => cases hquestion

/-- A solver reports what its last request was made for if that succeeded, and otherwise nothing. -/
theorem key_after_iff (storage : Storage) (calls : List (Call α)) (key : FactorizationKey α) :
    (after storage calls).key = some key ↔ ∃ j, LastFactored storage calls j key := by
  constructor
  · intro hkey
    rcases lastFactored_or_empty storage calls with ⟨j, other, hlast⟩ | hempty
    · rw [hlast.serves.key] at hkey
      cases hkey
      exact ⟨j, hlast⟩
    · rw [← hempty] at hkey
      cases hkey
  · rintro ⟨j, hlast⟩
    exact hlast.serves.key

/-! ### Answers -/

/-- What is held does not solve for a right-hand side of another size. -/
theorem Holds.solve_mismatch {lambda : α} (h : s.Holds j lambda) {rhs : Vec α}
    (size : rhs.size ≠ j.stored.cols) :
    (LinearSolver.solve s rhs).value =
      .error (.dimensionMismatch (.factored j.stored.cols rhs.size)) := by
  obtain ⟨columns, -, hfactor, -⟩ := h.factor
  show (s.solve rhs).value = _
  unfold CholeskySolver.solve
  simp only [hfactor, h.states, size, ne_eq, not_false_iff, if_true]
  rfl

/-- A solver that holds nothing does not solve. -/
theorem solve_of_empty (h : s.invalidate = s) (rhs : Vec α) :
    (LinearSolver.solve s rhs).value = .error .notFactorized := by
  rw [← h]
  rfl

/-- What a solver answers after any calls in any order. It reports the key of the last request, unless
that failed or was followed by an invalidation, and no question changes the report. While there is a
report, every right-hand side with as many entries as the Jacobian of that request has columns gets the
solution of its damped normal equations, every other one is refused for its size, and the covariance is
the inverse of that matrix. Without a report nothing is solved and there is no covariance. -/
theorem answers_after (storage : Storage) (calls : List (Call ℝ)) :
    (∀ key, LinearSolver.factorizedFor (after storage calls) = some key ↔
      ∃ j, LastFactored storage calls j key) ∧
    (∀ call : Call ℝ, call.isQuestion = true →
      LinearSolver.factorizedFor (after storage (calls ++ [call])) =
        LinearSolver.factorizedFor (after storage calls)) ∧
    (∀ j key, LastFactored storage calls j key →
      (∀ rhs : Vec ℝ, rhs.size = j.stored.cols →
        ∃ v, (LinearSolver.solve (after storage calls) rhs).value = .ok v ∧
          j.Solves key.lambda rhs v ∧ ∀ w, j.Solves key.lambda rhs w → w = v) ∧
      (∀ rhs : Vec ℝ, rhs.size ≠ j.stored.cols →
        (LinearSolver.solve (after storage calls) rhs).value =
          .error (.dimensionMismatch (.factored j.stored.cols rhs.size))) ∧
      ∃ c, (LinearSolver.covariance (after storage calls)).1 = some c ∧
        j.IsInverse key.lambda c) ∧
    (LinearSolver.factorizedFor (after storage calls) = none →
      (∀ rhs : Vec ℝ,
        (LinearSolver.solve (after storage calls) rhs).value = .error .notFactorized) ∧
      (LinearSolver.covariance (after storage calls)).1 = none) := by
  refine ⟨key_after_iff storage calls, ?_, ?_, ?_⟩
  · intro call question
    rw [after_concat]
    exact key_afterCall _ question
  · intro j key hlast
    have hserves := hlast.serves
    exact ⟨fun rhs size => hserves.holds.solve_eq size,
      fun rhs size => hserves.holds.solve_mismatch size, hserves.covariance_eq⟩
  · intro hnone
    rcases lastFactored_or_empty storage calls with ⟨j, key, hlast⟩ | hempty
    · have hkey : (after storage calls).key = none := hnone
      rw [hlast.serves.key] at hkey
      cases hkey
    · exact ⟨solve_of_empty hempty, congrArg Prod.fst (covariance_of_empty hempty)⟩

end CholeskySolver

end TrustRegion
