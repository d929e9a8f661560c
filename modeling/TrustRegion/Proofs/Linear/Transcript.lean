/-
Module: TrustRegion.Proofs.Linear.Transcript
Purpose: What a solver answers to calls in order. The answers to questions depend on what is held only:
  neither the analysis that is kept nor the size of an earlier factorization shows in them.
Main exports: CholeskySolver.Reply, CholeskySolver.reply, CholeskySolver.transcript,
  CholeskySolver.Alike, CholeskySolver.Alike.transcript_eq
-/
import TrustRegion.Proofs.Linear.History

namespace TrustRegion

namespace CholeskySolver

variable {α : Type} [Scalar α] {s t : CholeskySolver α} {call : Call α}

/-- What a call is answered. -/
inductive Reply (α : Type) where
  | requested (answer : Except (LinearError α) Unit)
  | invalidated
  | vector (answer : Except (LinearError α) (Vec α))
  | covariance (answer : Option (Matrix α))
  | standardErrors (answer : Option (Vec α))

/-- The answer of a solver to a call. -/
def reply (s : CholeskySolver α) : Call α → Reply α
  | .factorize j key => .requested (LinearSolver.factorize s j key).value.1
  | .invalidate => .invalidated
  | .solve rhs => .vector (LinearSolver.solve s rhs).value
  | .covariance => .covariance (LinearSolver.covariance s).1
  | .standardErrors => .standardErrors s.standardErrors.1
  | .gradient j x => .vector (LinearSolver.gradient s j x).value
  | .jacobianMul j v => .vector (LinearSolver.jacobianMul s j v).value

/-- The answers to calls in order, each with what is reported to be factored after it. -/
def transcript (s : CholeskySolver α) :
    List (Call α) → List (Reply α × Option (FactorizationKey α))
  | [] => []
  | call :: calls =>
      (s.reply call, LinearSolver.factorizedFor (s.afterCall call)) ::
        transcript (s.afterCall call) calls

/-- A request and the calls after it. -/
theorem transcript_factorize (s : CholeskySolver α) (j : Jacobian α) (key : FactorizationKey α)
    (calls : List (Call α)) :
    s.transcript (.factorize j key :: calls) =
      (.requested (LinearSolver.factorize s j key).value.1,
        (LinearSolver.factorize s j key).value.2.key) ::
          (LinearSolver.factorize s j key).value.2.transcript calls := rfl

/-! ### Solvers that hold the same -/

/-- Two solvers hold the same. They may keep different analyses, and if they hold nothing they may have
factored matrices of different sizes before. -/
structure Alike (s t : CholeskySolver α) : Prop where
  storage : s.storage = t.storage
  factor : s.factor = t.factor
  key : s.key = t.key
  inverse : s.inverse = t.inverse
  states : s.factor ≠ none → s.states = t.states

/-- Solvers that hold the same know the same inverse, and then still hold the same. -/
theorem Alike.covariance (h : s.Alike t) :
    s.covariance.1 = t.covariance.1 ∧ s.covariance.2.Alike t.covariance.2 := by
  obtain ⟨storage, factor, key, states, symbolic, inverse⟩ := s
  obtain ⟨storage', factor', key', states', symbolic', inverse'⟩ := t
  obtain ⟨rfl, rfl, rfl, rfl, hstates⟩ := h
  cases inverse with
  | some c => exact ⟨rfl, rfl, rfl, rfl, rfl, hstates⟩
  | none =>
      cases factor with
      | none => exact ⟨rfl, rfl, rfl, rfl, rfl, hstates⟩
      | some columns => exact ⟨rfl, rfl, rfl, rfl, rfl, hstates⟩

/-- Solvers that hold the same give the same solutions. -/
theorem Alike.solve_eq (h : s.Alike t) (rhs : Vec α) : s.solve rhs = t.solve rhs := by
  unfold CholeskySolver.solve
  rw [← h.factor]
  cases hfactor : s.factor with
  | none => rfl
  | some columns =>
      have hstates : s.states = t.states := h.states (by rw [hfactor]; exact Option.some_ne_none _)
      simp only [hstates]

/-- The standard errors are those of the inverse. -/
theorem standardErrors_fst (s : CholeskySolver α) :
    s.standardErrors.1 = s.covariance.1.bind fun inverse =>
      if (List.range inverse.cols).any fun i => decide (inverse.entry i i < 0) then none
      else some (Vec.ofFn inverse.cols fun i => Scalar.sqrt (inverse.entry i i)) := by
  unfold standardErrors
  obtain ⟨inverse, s'⟩ := s.covariance
  cases inverse with
  | none => rfl
  | some inverse =>
      simp only [Option.bind_some]
      split <;> rfl

/-- Solvers that hold the same answer every question alike. -/
theorem Alike.reply_eq (h : s.Alike t) (question : call.isQuestion = true) :
    s.reply call = t.reply call := by
  have hmatrix (j : Jacobian α) : s.matrixOf j = t.matrixOf j := by
    unfold matrixOf
    rw [h.storage]
  cases call with
  | factorize j key => cases question
  | invalidate => rfl
  | solve rhs => exact congrArg (fun answer => Reply.vector answer.value) (h.solve_eq rhs)
  | covariance => exact congrArg Reply.covariance h.covariance.1
  | standardErrors =>
      show Reply.standardErrors _ = Reply.standardErrors _
      rw [standardErrors_fst, standardErrors_fst, h.covariance.1]
  | gradient j x =>
      show Reply.vector (s.gradient j x).value = Reply.vector (t.gradient j x).value
      rw [gradient, gradient, hmatrix]
  | jacobianMul j v =>
      show Reply.vector (s.jacobianMul j v).value = Reply.vector (t.jacobianMul j v).value
      rw [jacobianMul, jacobianMul, hmatrix]

/-- After every question they still hold the same. -/
theorem Alike.afterCall (h : s.Alike t) (question : call.isQuestion = true) :
    (s.afterCall call).Alike (t.afterCall call) := by
  cases call with
  | factorize j key => cases question
  | invalidate => cases question
  | covariance => exact h.covariance.2
  | standardErrors =>
      show s.standardErrors.2.Alike t.standardErrors.2
      rw [standardErrors_snd, standardErrors_snd]
      exact h.covariance.2
  | _ => exact h

theorem Alike.transcript_eq (h : s.Alike t) {questions : List (Call α)}
    (asked : ∀ question ∈ questions, question.isQuestion = true) :
    s.transcript questions = t.transcript questions := by
  induction questions generalizing s t with
  | nil => rfl
  | cons question questions ih =>
      have hquestion := asked question List.mem_cons_self
      have hafter := h.afterCall hquestion
      unfold transcript
      rw [h.reply_eq hquestion, ih hafter fun other hother =>
        asked other (List.mem_cons_of_mem question hother)]
      exact congrArg (fun key => (t.reply question, key) :: _) hafter.key

end CholeskySolver

end TrustRegion
