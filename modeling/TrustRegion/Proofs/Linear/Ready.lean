/-
Module: TrustRegion.Proofs.Linear.Ready
Purpose: How a request for a factorization ends whatever the scalars are. If the Jacobian is of the kind
  and the size that a solver serves, a request can only find that the matrix is not positive definite;
  then the damping is raised and the request repeated, until it succeeds or may not be repeated. The
  damping, the number of requests and the warnings emitted on the way all count the same raises.
Main exports: Cholesky.Triangular, CholeskySolver.Ready, CholeskySolver.Suits.factorize_ready,
  Logged.raises, Settled, raiseUntilFactored_settled, factorizeDamped_settled,
  factorizeDamped_ready
-/
import TrustRegion.Proofs.Linear.Request

namespace TrustRegion

/-! ### Warnings that the damping is raised -/

/-- Whether an event says that the damping is raised. -/
def Event.isRaise {α : Type} : Event α → Bool
  | .dampingRaised .. => true
  | _ => false

namespace Logged

variable {α γ δ : Type}

/-- How often the damping was raised on the way to a value. -/
def raises (x : Logged α γ) : Nat :=
  x.events.countP Event.isRaise

@[simp] theorem raises_pure (x : γ) : (pure x : Logged α γ).raises = 0 := rfl

@[simp] theorem raises_bind (x : Logged α γ) (f : γ → Logged α δ) :
    (x >>= f).raises = x.raises + (f x.value).raises := by
  rw [raises, events_bind, List.countP_append]
  rfl

@[simp] theorem raises_emit (e : Event α) : (emit e).raises = if e.isRaise then 1 else 0 := by
  rw [raises, events_emit, List.countP_singleton]

end Logged

/-! ### Factors as they are made -/

namespace Cholesky

variable {α : Type}

/-- Every column of a factor reaches down to the last row. -/
def Triangular : Factor α → Prop
  | [] => True
  | c :: columns => c.below.size = columns.length ∧ Triangular columns

/-- A factor is a triangle. -/
theorem triangular_factor [Scalar α] {accepts : α → Bool} {n : Nat} {a : StoredMatrix α}
    {columns : Factor α} (h : factor accepts n a = .ok columns) : Triangular columns := by
  induction n generalizing a columns with
  | zero =>
      cases h
      exact trivial
  | succ n ih =>
      obtain ⟨-, rest, hrest, rfl⟩ := factor_succ_eq_ok h
      refine ⟨?_, ih hrest⟩
      rw [length_factor hrest, firstColumn, Array.size_ofFn]

end Cholesky

namespace CholeskySolver

variable {α : Type} [Scalar α] {s : CholeskySolver α} {storage : Storage} {states : Nat}
  {j : Jacobian α}

/-- A solver that can be asked at any time about Jacobians of one kind with a number of states. A key
says that a factor is held, a factor is a triangle of the right size, and an inverse that is kept is
the one of the factor. -/
structure Ready (s : CholeskySolver α) (storage : Storage) (states : Nat) : Prop where
  suits : s.Suits storage states
  keyed : s.key.isSome = true → s.factor.isSome = true
  factor : ∀ columns, s.factor = some columns →
    s.states = states ∧ columns.length = states ∧ Cholesky.Triangular columns
  inverse : ∀ kept, s.inverse = some kept →
    ∃ columns, s.factor = some columns ∧ kept = Cholesky.inverse columns

/-- A solver that holds nothing is ready as soon as it suits. -/
theorem Suits.ready_of_empty (h : s.Suits storage states) (empty : s.invalidate = s) :
    s.Ready storage states := by
  rw [← empty]
  exact
    { suits := ⟨h.storage, h.symbolic⟩
      keyed := nofun
      factor := nofun
      inverse := nofun }

theorem ready_new (storage : Storage) (states : Nat) :
    (CholeskySolver.new storage : CholeskySolver α).Ready storage states :=
  (suits_new storage states).ready_of_empty rfl

/-- A single request succeeds or finds that the matrix is not positive definite. -/
theorem Suits.factorize_ready (h : s.Suits storage states) (kind : j.storage = storage)
    (cols : j.stored.cols = states) (key : FactorizationKey α) :
    (∃ s' : CholeskySolver α, (LinearSolver.factorize s j key).value = (.ok (), s') ∧
        s'.Ready storage states ∧ s'.key = some key ∧ s'.inverse = none) ∨
      ∃ (fault : PivotFault) (s' : CholeskySolver α),
        (LinearSolver.factorize s j key).value = (.error (.notPositiveDefinite fault), s') ∧
          s'.Ready storage states ∧ s'.key = none ∧ s'.inverse = none := by
  have hkind : j.storage = s.storage := kind.trans h.storage.symm
  rcases hrequest : (LinearSolver.factorize s j key).value with ⟨answer, s'⟩
  have hends := factorizesTo_of_value hrequest
  have hsuits := (hends.leaves (h.admits cols)).suits h cols
  cases hends with
  | mismatched other => exact absurd hkind other
  | misanalysed _ size => exact absurd ((h.admits cols).analysed hkind key.lambda) size
  | refused _ _ made =>
      have hempty := invalidate_prepared s j key.lambda
      refine .inr ⟨_, _, rfl, hsuits.ready_of_empty hempty, ?_, inverse_prepared s j key.lambda⟩
      rw [← hempty]
      rfl
  | @factored columns _ _ made =>
      have hnone := inverse_prepared s j key.lambda
      refine .inl ⟨_, rfl, ⟨hsuits, fun _ => rfl, ?_, ?_⟩, rfl, hnone⟩
      · intro columns' hcolumns
        cases hcolumns
        exact ⟨cols, (Cholesky.length_factor made).trans cols, Cholesky.triangular_factor made⟩
      · intro kept hkept
        cases hnone.symm.trans hkept

/-- A single request emits no warning that the damping is raised. -/
@[simp] theorem raises_factorize (s : CholeskySolver α) (j : Jacobian α) (key : FactorizationKey α) :
    (s.factorize j key).raises = 0 := by
  have hfactor (s : CholeskySolver α) (inBlocks : Bool) (normal : StoredMatrix α) :
      (s.factorNormal inBlocks normal key).raises = 0 := by
    unfold factorNormal
    split <;> rfl
  have hanalysis (s : CholeskySolver α) (pattern : List (Nat × Nat)) (normal : StoredMatrix α) :
      (s.symbolicFor pattern normal).raises = 0 := by
    unfold symbolicFor symbolicFor.analyse
    split
    · split <;> rfl
    · rfl
  unfold factorize matrixOf
  rw [Logged.raises_bind]
  split
  · simp only [Logged.raises_pure, Logged.value_pure, Nat.zero_add]
    split
    · exact hfactor _ _ _
    · rw [Logged.raises_bind, hanalysis]
      split
      · rfl
      · rw [hfactor]
  · rfl

end CholeskySolver

/-! ### Requests that raise the damping -/

variable {α : Type} [Scalar α]

/-- How a request at a point that raised the damping so often ended: the damping went up the schedule
once for every raise, the requests were counted as a word, and there is either a factorization with
the last damping or the damping may not be raised any more. -/
structure Settled (schedule : DampingSchedule α) (point remaining : Nat) (storage : Storage)
    (states : Nat) (before : Damping α) (raises : Nat) (answer : Except (LinearError α) Unit)
    (after : Damping α) (s : CholeskySolver α) : Prop where
  ready : s.Ready storage states
  raises_le : raises ≤ remaining
  lambda : after.lambda = schedule.next^[raises] before.lambda
  factorizations : after.factorizations = (before.factorizations + (raises + 1)) % wordSize
  inverse : s.inverse = none
  ending : (answer = .ok () ∧ s.key = some ⟨point, after.lambda⟩) ∨
    (answer = .error (.dampingExhausted schedule.maxAttempts after.lambda) ∧ s.key = none ∧
      raises = remaining)

variable {schedule : DampingSchedule α} {j : Jacobian α} {point remaining : Nat} {storage : Storage}
  {states : Nat} {before after : Damping α} {s s' : CholeskySolver α}
  {answer : Except (LinearError α) Unit}

/-- A request that is not repeated settles without a raise. -/
theorem Settled.single (ready : s.Ready storage states) (inverse : s.inverse = none)
    (ending : (answer = .ok () ∧ s.key = some ⟨point, before.lambda⟩) ∨
      (answer = .error (.dampingExhausted schedule.maxAttempts before.lambda) ∧ s.key = none ∧
        remaining = 0)) :
    Settled schedule point remaining storage states before 0 answer
      { before with factorizations := successorWord before.factorizations } s where
  ready := ready
  raises_le := Nat.zero_le remaining
  lambda := rfl
  factorizations := rfl
  inverse := inverse
  ending := ending.imp_right fun ⟨herror, hkey, hzero⟩ => ⟨herror, hkey, hzero.symm⟩

/-- A request that is repeated settles with one raise more than the next one. -/
theorem Settled.again {raises : Nat}
    (h : Settled schedule point remaining storage states
      { lambda := schedule.next before.lambda
        factorizations := successorWord before.factorizations } raises answer after s) :
    Settled schedule point (remaining + 1) storage states before (1 + raises) answer after s where
  ready := h.ready
  raises_le := by
    have hle := h.raises_le
    omega
  lambda := by rw [h.lambda, Nat.add_comm, Function.iterate_succ_apply]
  factorizations := by
    rw [h.factorizations, successorWord, Nat.mod_add_mod]
    congr 1
    omega
  inverse := h.inverse
  ending := h.ending.imp_right fun ⟨herror, hkey, hraises⟩ => ⟨herror, hkey, by omega⟩

/-- A request is repeated with more damping until it settles. -/
theorem raiseUntilFactored_settled (h : s.Suits storage states) (kind : j.storage = storage)
    (cols : j.stored.cols = states)
    (request : (raiseUntilFactored schedule j point remaining before s).value =
      (answer, after, s')) :
    Settled schedule point remaining storage states before
      (raiseUntilFactored schedule j point remaining before s).raises answer after s' := by
  induction remaining generalizing before s with
  | zero =>
      have hcalm : (LinearSolver.factorize s j ⟨point, before.lambda⟩).raises = 0 :=
        s.raises_factorize j _
      unfold raiseUntilFactored at request ⊢
      rcases h.factorize_ready kind cols ⟨point, before.lambda⟩ with
        ⟨s₁, hfirst, hready, hkey, hinverse⟩ | ⟨fault, s₁, hfirst, hready, hkey, hinverse⟩
      · simp only [Logged.value_bind, Logged.raises_bind, hcalm, hfirst] at request ⊢
        cases request
        exact .single hready hinverse (.inl ⟨rfl, hkey⟩)
      · simp only [Logged.value_bind, Logged.raises_bind, hcalm, hfirst] at request ⊢
        cases request
        exact .single hready hinverse (.inr ⟨rfl, hkey, rfl⟩)
  | succ fewer ih =>
      have hcalm : (LinearSolver.factorize s j ⟨point, before.lambda⟩).raises = 0 :=
        s.raises_factorize j _
      unfold raiseUntilFactored at request ⊢
      rcases h.factorize_ready kind cols ⟨point, before.lambda⟩ with
        ⟨s₁, hfirst, hready, hkey, hinverse⟩ | ⟨fault, s₁, hfirst, hready, hkey, hinverse⟩
      · simp only [Logged.value_bind, Logged.raises_bind, hcalm, hfirst] at request ⊢
        cases request
        exact .single hready hinverse (.inl ⟨rfl, hkey⟩)
      · simp only [Logged.value_bind, Logged.raises_bind, hcalm, hfirst] at request ⊢
        have hrest := (ih hready.suits request).again
        rwa [Logged.raises_emit, Event.isRaise, if_pos rfl, Nat.zero_add]

/-- Making sure of a factorization serves the one at hand, if its key is the one asked for, and then
nothing changes; otherwise it is requested. -/
theorem factorizeDamped_settled (h : s.Ready storage states) (kind : j.storage = storage)
    (cols : j.stored.cols = states)
    (request : (factorizeDamped schedule j point before s).value = (answer, after, s')) :
    (∃ held, s.key = some held ∧ (held == ⟨point, before.lambda⟩) = true ∧ answer = .ok () ∧
        after = before ∧ s' = s ∧ (factorizeDamped schedule j point before s).raises = 0) ∨
      ((∀ held, s.key = some held → (held == ⟨point, before.lambda⟩) = false) ∧
        Settled schedule point schedule.maxAttempts storage states before
          (factorizeDamped schedule j point before s).raises answer after s') := by
  unfold factorizeDamped at request ⊢
  cases hkey : s.key with
  | none =>
      have hheld : LinearSolver.factorizedFor s = none := hkey
      simp only [hheld] at request ⊢
      exact .inr ⟨nofun, raiseUntilFactored_settled h.suits kind cols request⟩
  | some held =>
      have hheld : LinearSolver.factorizedFor s = some held := hkey
      simp only [hheld] at request ⊢
      cases hsame : held == ⟨point, before.lambda⟩ with
      | true =>
          simp only [hsame, if_true] at request ⊢
          cases request
          exact .inl ⟨held, rfl, hsame, rfl, rfl, rfl, rfl⟩
      | false =>
          simp only [hsame, Bool.false_eq_true, if_false] at request ⊢
          refine .inr ⟨fun held' hheld' => ?_, raiseUntilFactored_settled h.suits kind cols request⟩
          cases hheld'
          exact hsame

/-- Making sure of a factorization leaves a solver that is ready, and either there is a factor or the
damping may not be raised any more. -/
theorem factorizeDamped_ready (h : s.Ready storage states) (kind : j.storage = storage)
    (cols : j.stored.cols = states)
    (request : (factorizeDamped schedule j point before s).value = (answer, after, s')) :
    s'.Ready storage states ∧
      ((answer = .ok () ∧ s'.factor.isSome = true) ∨
        answer = .error (.dampingExhausted schedule.maxAttempts after.lambda)) := by
  rcases factorizeDamped_settled h kind cols request with
    ⟨held, hkey, -, rfl, -, rfl, -⟩ | ⟨-, hsettled⟩
  · exact ⟨h, .inl ⟨rfl, h.keyed (by rw [hkey]; rfl)⟩⟩
  · refine ⟨hsettled.ready, ?_⟩
    rcases hsettled.ending with ⟨rfl, hkey⟩ | ⟨rfl, -⟩
    · exact .inl ⟨rfl, hsettled.ready.keyed (by rw [hkey]; rfl)⟩
    · exact .inr rfl

/-- The inverse that is kept or computed is the one of the factor that is held, and asking for it
changes nothing else. -/
theorem CholeskySolver.Ready.covariance_eq (h : s.Ready storage states)
    {columns : Cholesky.Factor α} (held : s.factor = some columns) :
    s.covariance =
      (some (Cholesky.inverse columns), { s with inverse := some (Cholesky.inverse columns) }) := by
  apply CholeskySolver.covariance_eq_of_factor held
  intro kept hkept
  obtain ⟨columns', hheld, rfl⟩ := h.inverse kept hkept
  rw [held] at hheld
  cases hheld
  rfl

/-- Keeping the inverse of the factor keeps a solver ready. -/
theorem CholeskySolver.Ready.withInverse (h : s.Ready storage states)
    {columns : Cholesky.Factor α} (held : s.factor = some columns) :
    CholeskySolver.Ready { s with inverse := some (Cholesky.inverse columns) } storage states :=
  { suits := ⟨h.suits.storage, h.suits.symbolic⟩
    keyed := h.keyed
    factor := h.factor
    inverse := fun kept hkept => by
      cases hkept
      exact ⟨columns, held, rfl⟩ }

/-- A factor that is held solves for every right-hand side of the right size. -/
theorem CholeskySolver.Ready.exists_solve (h : s.Ready storage states)
    (held : s.factor.isSome = true) {rhs : Vec α} (size : rhs.size = states) :
    ∃ v, (LinearSolver.solve s rhs).value = .ok v ∧ v.size = states := by
  obtain ⟨columns, hfactor⟩ := Option.isSome_iff_exists.mp held
  obtain ⟨hstates, hlength, -⟩ := h.factor columns hfactor
  refine ⟨Cholesky.solve columns rhs, ?_, (Cholesky.size_solve _ _).trans hlength⟩
  show (s.solve rhs).value = _
  unfold CholeskySolver.solve
  simp only [hfactor, size, hstates, ne_eq, not_true, if_false]
  rfl

end TrustRegion
