/-
Module: TrustRegion.Proofs.Linear.Answer
Purpose: How a single request for a factorization ends, whatever the scalars are and whatever the solver
  has done before, with one case for each way to end and all that each leaves behind. Everything else
  that is known of a request follows from these cases.
Main exports: CholeskySolver.Holds, CholeskySolver.analysis, CholeskySolver.prepared,
  CholeskySolver.FactorizesTo, CholeskySolver.factorizesTo, CholeskySolver.Serves,
  CholeskySolver.FactorizesTo.serves
-/
import Mathlib.Logic.Basic
import TrustRegion.Linear.CholeskySolver

namespace TrustRegion

open StoredMatrix

namespace CholeskySolver

variable {α : Type} [Scalar α]

/-- The matrix that is factored for a Jacobian: the transposed Jacobian times the Jacobian, with
`lambda` on the diagonal. A full Jacobian gives a full matrix. -/
def normalMatrix (j : Jacobian α) (lambda : α) : StoredMatrix α :=
  match j.storage with
  | .dense => StoredMatrix.filled (StoredMatrix.normal j.stored lambda)
  | .sparse => StoredMatrix.normal j.stored lambda

/-- A solver whose factorization is the one of a Jacobian's normal matrix with `lambda` on the
diagonal. -/
structure Holds (s : CholeskySolver α) (j : Jacobian α) (lambda : α) : Prop where
  storage : j.storage = s.storage
  states : s.states = j.stored.cols
  factor : ∃ columns inBlocks, s.factor = some columns ∧
    Cholesky.factor (acceptsPivot inBlocks) j.stored.cols (normalMatrix j lambda) = .ok columns

@[simp] theorem rows_normalMatrix (j : Jacobian α) (lambda : α) :
    (normalMatrix j lambda).rows = j.stored.cols := by
  unfold normalMatrix
  cases j.storage <;> rfl

/-- The analysis with which a solver factors the numbers of a sparse Jacobian. -/
def analysis (s : CholeskySolver α) (j : Jacobian α) (lambda : α) : Symbolic :=
  (s.symbolicFor (positions j.stored) (normal j.stored lambda)).value.1

/-- What a request leaves of a solver before the numbers are factored: what was held is forgotten, and
the analysis of a sparse Jacobian is kept under its pattern. -/
def prepared (s : CholeskySolver α) (j : Jacobian α) (lambda : α) : CholeskySolver α :=
  match s.storage with
  | .dense => s.invalidate
  | .sparse =>
      { s.invalidate with symbolic := some (positions j.stored, s.analysis j lambda) }

/-- Whether the numbers of a Jacobian are factored in full blocks. -/
def inBlocks (s : CholeskySolver α) (j : Jacobian α) (lambda : α) : Bool :=
  match s.storage with
  | .dense => true
  | .sparse => (s.analysis j lambda).inBlocks

/-- A sparse Jacobian is factored with an analysis of its own size. -/
def Analysed (s : CholeskySolver α) (j : Jacobian α) (lambda : α) : Prop :=
  s.storage = .sparse → (s.analysis j lambda).states = j.stored.cols

/-- How a request ends and what it leaves. A Jacobian of the other kind is refused before anything is
analysed, and any other if a pivot is not accepted. A sparse one for which the analysis is of another
size breaks the request off. -/
inductive FactorizesTo (s : CholeskySolver α) (j : Jacobian α) (key : FactorizationKey α) :
    Except (LinearError α) Unit → CholeskySolver α → Prop where
  | mismatched (kind : j.storage ≠ s.storage) :
      FactorizesTo s j key (.error (.jacobianMismatch s.storage)) s.invalidate
  | misanalysed (kind : j.storage = s.storage) (size : ¬ s.Analysed j key.lambda) :
      FactorizesTo s j key
        (.error (.analysisUnfit (s.analysis j key.lambda).states j.stored.cols))
        (s.prepared j key.lambda)
  | refused {k : Nat} (kind : j.storage = s.storage) (size : s.Analysed j key.lambda)
      (made : Cholesky.factor (acceptsPivot (s.inBlocks j key.lambda)) j.stored.cols
        (normalMatrix j key.lambda) = .error k) :
      FactorizesTo s j key (.error (.notPositiveDefinite (pivotFault s.storage k)))
        (s.prepared j key.lambda)
  | factored {columns : Cholesky.Factor α} (kind : j.storage = s.storage)
      (size : s.Analysed j key.lambda)
      (made : Cholesky.factor (acceptsPivot (s.inBlocks j key.lambda)) j.stored.cols
        (normalMatrix j key.lambda) = .ok columns) :
      FactorizesTo s j key (.ok ())
        { s.prepared j key.lambda with
          factor := some columns, key := some key, states := j.stored.cols }

variable {s s' : CholeskySolver α} {j : Jacobian α} {key : FactorizationKey α}
  {answer : Except (LinearError α) Unit}

@[simp] theorem storage_prepared (s : CholeskySolver α) (j : Jacobian α) (lambda : α) :
    (s.prepared j lambda).storage = s.storage := by
  unfold prepared
  split <;> rfl

/-- Before the numbers are factored nothing is held. -/
@[simp] theorem invalidate_prepared (s : CholeskySolver α) (j : Jacobian α) (lambda : α) :
    (s.prepared j lambda).invalidate = s.prepared j lambda := by
  unfold prepared
  split <;> rfl

theorem inverse_prepared (s : CholeskySolver α) (j : Jacobian α) (lambda : α) :
    (s.prepared j lambda).inverse = none := by
  rw [← invalidate_prepared]
  rfl

/-- An analysis that was kept under the pattern serves. -/
theorem analysis_of_kept {symbolic : Symbolic} (h : s.symbolic = some (positions j.stored, symbolic))
    (lambda : α) : s.analysis j lambda = symbolic := by
  unfold analysis symbolicFor
  simp only [h, if_true]
  rfl

/-- If none was kept under the pattern, a new one is made. -/
theorem analysis_of_not_kept (h : ∀ symbolic, s.symbolic ≠ some (positions j.stored, symbolic))
    (lambda : α) : s.analysis j lambda = Symbolic.ofNormal (normal j.stored lambda) := by
  unfold analysis symbolicFor symbolicFor.analyse
  cases hkept : s.symbolic with
  | none => rfl
  | some found =>
      obtain ⟨pattern, symbolic⟩ := found
      have hother : pattern ≠ positions j.stored := by
        rintro rfl
        exact h symbolic hkept
      simp only [hother, if_false]
      rfl

/-- The analysis that is found is kept under the pattern. -/
theorem symbolicFor_eq (sparse : s.storage = .sparse) (j : Jacobian α) (lambda : α) :
    (s.invalidate.symbolicFor (positions j.stored) (normal j.stored lambda)).value =
      (s.analysis j lambda, s.prepared j lambda) := by
  have hprepared : s.prepared j lambda =
      { s.invalidate with symbolic := some (positions j.stored, s.analysis j lambda) } := by
    unfold prepared
    rw [sparse]
  rw [hprepared]
  unfold analysis symbolicFor symbolicFor.analyse
  cases hkept : s.symbolic with
  | none =>
      have hempty : s.invalidate.symbolic = none := hkept
      simp only [hempty]
      rfl
  | some found =>
      obtain ⟨pattern, symbolic⟩ := found
      have hfound : s.invalidate.symbolic = some (pattern, symbolic) := hkept
      simp only [hfound]
      by_cases hpattern : pattern = positions j.stored
      · subst hpattern
        simp only [if_true, Logged.value_pure, ← hfound]
      · simp only [hpattern, if_false]
        rfl

/-- The numbers of a Jacobian end a request with a factor or with the pivot that is not accepted. -/
theorem factorizesTo_factorNormal (kind : j.storage = s.storage) (size : s.Analysed j key.lambda) :
    s.FactorizesTo j key
      ((s.prepared j key.lambda).factorNormal (s.inBlocks j key.lambda)
        (normalMatrix j key.lambda) key).value.1
      ((s.prepared j key.lambda).factorNormal (s.inBlocks j key.lambda)
        (normalMatrix j key.lambda) key).value.2 := by
  unfold factorNormal
  rw [rows_normalMatrix]
  cases hmade : Cholesky.factor (acceptsPivot (s.inBlocks j key.lambda)) j.stored.cols
    (normalMatrix j key.lambda) with
  | ok columns => exact .factored kind size hmade
  | error k =>
      simp only [storage_prepared]
      exact .refused kind size hmade

/-- Every request ends in one of these ways. -/
theorem factorizesTo (s : CholeskySolver α) (j : Jacobian α) (key : FactorizationKey α) :
    s.FactorizesTo j key (LinearSolver.factorize s j key).value.1
      (LinearSolver.factorize s j key).value.2 := by
  show s.FactorizesTo j key (s.factorize j key).value.1 (s.factorize j key).value.2
  have hstays : s.invalidate.storage = s.storage := rfl
  unfold factorize matrixOf
  by_cases hkind : j.storage = s.storage
  · have hnumbers (size : s.Analysed j key.lambda) := factorizesTo_factorNormal hkind size
    simp only [hstays, hkind, if_true, Logged.value_bind, Logged.value_pure]
    cases hstorage : s.storage with
    | dense =>
        have hanalysed : s.Analysed j key.lambda := by
          intro hsparse
          rw [hstorage] at hsparse
          cases hsparse
        have hnumbers := hnumbers hanalysed
        unfold prepared inBlocks normalMatrix at hnumbers
        simp only [hkind, hstorage] at hnumbers
        exact hnumbers
    | sparse =>
        simp only [Logged.value_bind, symbolicFor_eq hstorage]
        split
        · rename_i hsize
          exact .misanalysed hkind fun hanalysed => hsize (hanalysed hstorage)
        · rename_i hsize
          have hnumbers := hnumbers fun _ => not_not.mp hsize
          unfold inBlocks normalMatrix at hnumbers
          simp only [hkind, hstorage] at hnumbers
          exact hnumbers
  · simp only [hstays, hkind, if_false]
    exact .mismatched hkind

theorem factorizesTo_of_value (h : (LinearSolver.factorize s j key).value = (answer, s')) :
    s.FactorizesTo j key answer s' := by
  have hends := s.factorizesTo j key
  rwa [h] at hends

/-- The ways to end exclude each other, so a request ends in the one that is possible. -/
theorem FactorizesTo.value_eq (h : s.FactorizesTo j key answer s') :
    (LinearSolver.factorize s j key).value = (answer, s') := by
  rcases hvalue : (LinearSolver.factorize s j key).value with ⟨answer', s''⟩
  have hends := factorizesTo_of_value hvalue
  -- of every two different ways, one needs what the other one rules out
  cases h with
  | mismatched kind =>
      cases hends with
      | mismatched _ => rfl
      | misanalysed other | refused other | factored other => exact absurd other kind
  | misanalysed kind size =>
      cases hends with
      | mismatched other => exact absurd kind other
      | misanalysed => rfl
      | refused _ other | factored _ other => exact absurd other size
  | refused kind size made =>
      cases hends with
      | mismatched other => exact absurd kind other
      | misanalysed _ other => exact absurd size other
      | refused _ _ other =>
          cases made.symm.trans other
          rfl
      | factored _ _ other => cases made.symm.trans other
  | factored kind size made =>
      cases hends with
      | mismatched other => exact absurd kind other
      | misanalysed _ other => exact absurd size other
      | refused _ _ other => cases made.symm.trans other
      | factored _ _ other =>
          cases made.symm.trans other
          rfl

/-! ### What is left of a request -/

/-- A request that does not succeed leaves nothing of what was held. -/
theorem FactorizesTo.invalidate_eq {error : LinearError α}
    (h : s.FactorizesTo j key (.error error) s') : s'.invalidate = s' := by
  cases h with
  | mismatched kind => rfl
  | misanalysed kind size => exact invalidate_prepared s j key.lambda
  | refused kind size made => exact invalidate_prepared s j key.lambda

/-- The inverse is that of the factor that is held, unless another one is kept, and asking for it changes
nothing else. -/
theorem covariance_eq_of_factor {columns : Cholesky.Factor α} (held : s.factor = some columns)
    (known : ∀ c, s.inverse = some c → c = Cholesky.inverse columns) :
    s.covariance =
      (some (Cholesky.inverse columns), { s with inverse := some (Cholesky.inverse columns) }) := by
  unfold CholeskySolver.covariance
  cases hkept : s.inverse with
  | none => simp only [held]
  | some kept =>
      cases known kept hkept
      simp only
      rw [← hkept]

/-- What a solver holds is the factorization of a Jacobian under a key. If an inverse is kept, it is that
of the factor. -/
structure Serves (s : CholeskySolver α) (j : Jacobian α) (key : FactorizationKey α) : Prop where
  holds : s.Holds j key.lambda
  inverse : ∀ c, s.inverse = some c → s.factor.map Cholesky.inverse = some c
  key : s.key = some key

/-- The inverse of what is held is known or is computed now, and then it is kept. -/
theorem Serves.covariance (h : s.Serves j key) :
    s.covariance.1 = s.factor.map Cholesky.inverse ∧ s.covariance.2.Serves j key := by
  obtain ⟨columns, inBlocks, hfactor, hmade⟩ := h.holds.factor
  have hknown (c : Matrix α) (hc : s.inverse = some c) : c = Cholesky.inverse columns := by
    have hinverse := h.inverse c hc
    rw [hfactor] at hinverse
    exact (Option.some.inj hinverse).symm
  rw [covariance_eq_of_factor hfactor hknown, hfactor]
  exact ⟨rfl, ⟨h.holds.storage, h.holds.states, columns, inBlocks, rfl, hmade⟩, fun c hc => hc, h.key⟩

/-- A request that succeeds leaves the factorization that was asked for, under its key, and no
inverse. -/
theorem FactorizesTo.serves (h : s.FactorizesTo j key (.ok ()) s') : s'.Serves j key := by
  cases h with
  | @factored columns kind size made =>
      have hkind : j.storage = (s.prepared j key.lambda).storage :=
        kind.trans (storage_prepared s j key.lambda).symm
      refine ⟨⟨hkind, rfl, columns, _, rfl, made⟩, ?_, rfl⟩
      intro c hc
      cases (inverse_prepared s j key.lambda).symm.trans hc

end CholeskySolver

end TrustRegion
