/-
Module: TrustRegion.Proofs.Search.Reads
Purpose: What a search reads by place. Where an operation walks along one vector and reads another, the
  other one is long enough, so that nothing beyond its end could change the result; the places that a
  sparse Jacobian names lie in its matrix, the buffer of a dense one has every place of the matrix, and
  every column of a factor reaches down to the last row.
Main exports: Vec.Suffices, Linearization.Readable, Linearization.Admits, Workspace.Readable,
  Evaluator.Readable, Workspace.Shaped.readable, Problem.Made.readable, Problem.Run.readable
-/
import TrustRegion.Proofs.Search.Shape

namespace TrustRegion

variable {α : Type} [Scalar α]

/-! ### Operations that read along something else -/

/-- A vector holds every entry that is read to compute something from it: whatever agrees with it in
its entries, and may be longer, gives the same. -/
def Vec.Suffices {γ : Type} (v : Vec α) (f : Vec α → γ) : Prop :=
  ∀ w : Vec α, (∀ i, i < v.size → w.entry i = v.entry i) → f w = f v

namespace Vec

variable {v : Vec α}

theorem suffices_ofFn {n : Nat} (h : n ≤ v.size) (f : Nat → α → α) :
    v.Suffices fun v => ofFn n fun i => f i (v.entry i) := fun w agree =>
  ofFn_congr fun i hi => by rw [agree i (hi.trans_le h)]

theorem suffices_add {a : Vec α} (h : a.size ≤ v.size) : v.Suffices a.add :=
  suffices_ofFn h fun i x => a.entry i + x

theorem suffices_sub {a : Vec α} (h : a.size ≤ v.size) : v.Suffices a.sub :=
  suffices_ofFn h fun i x => a.entry i - x

theorem suffices_dot {a : Vec α} (h : a.size ≤ v.size) : v.Suffices a.dot := fun w agree =>
  Scalar.total_congr fun i hi => by rw [agree i (hi.trans_le h)]

end Vec

/-- A sum of entries depends only on those that are added. -/
theorem Entry.total_congr {f g : Nat → Entry α} {n : Nat} (h : ∀ i, i < n → f i = g i) :
    total f n = total g n := by
  induction n with
  | zero => rfl
  | succ n ih =>
      rw [total, total, ih fun i hi => h i (Nat.lt_succ_of_lt hi), h n (Nat.lt_succ_self n)]

namespace StoredMatrix

variable {m : StoredMatrix α} {v : Vec α}

theorem suffices_mulVec (h : m.cols ≤ v.size) : v.Suffices (mulVec m) := fun w agree => by
  unfold mulVec
  congr 1
  funext i
  rw [Entry.total_congr fun j hj => by rw [agree j (hj.trans_le h)]]

theorem suffices_transposeMulVec (h : m.rows ≤ v.size) : v.Suffices (transposeMulVec m) :=
  fun w agree => by
    unfold transposeMulVec
    congr 1
    funext j
    rw [Entry.total_congr fun i hi => by rw [agree i (hi.trans_le h)]]

end StoredMatrix

namespace Cholesky

/-- A right-hand side with an entry for each column of the factor holds all that is read to solve for
it. -/
theorem suffices_solve {columns : Factor α} {rhs : Vec α} (h : columns.length ≤ rhs.size) :
    rhs.Suffices (solve columns) := by
  intro w agree
  cases columns with
  | nil => rfl
  | cons c columns =>
      rw [List.length_cons] at h
      unfold solve
      dsimp only
      rw [agree 0 (by omega)]
      refine congrArg
        (fun rest => Vec.cons
          ((rhs.entry 0 / c.diagonal - (Entry.total
            (fun i => (c.entry i).scale ((solve columns rest).entry i)) columns.length).value) /
              c.diagonal)
          (solve columns rest))
        (Vec.ofFn_congr fun i hi => ?_)
      rw [agree (i + 1) (by omega)]

/-- A matrix holds every place that is read to factor it: whatever agrees with it in its places has the
same factor. -/
def SufficesToFactor (a : StoredMatrix α) : Prop :=
  ∀ (accepts : α → Bool) (b : StoredMatrix α),
    (∀ i j, i < a.rows → j < a.cols → StoredMatrix.stored b i j = StoredMatrix.stored a i j) →
    factor accepts a.rows b = factor accepts a.rows a

/-- Factoring a matrix of `n` rows reads no place beyond the first `n` rows and columns. -/
theorem factor_congr {accepts : α → Bool} {n : Nat} {a b : StoredMatrix α}
    (agree : ∀ i j, i < n → j < n → StoredMatrix.stored b i j = StoredMatrix.stored a i j) :
    factor accepts n b = factor accepts n a := by
  induction n generalizing a b with
  | zero => rfl
  | succ n ih =>
      have hcolumn (pivot : α) : firstColumn n b pivot = firstColumn n a pivot := by
        have hbelow : (fun i : Fin n =>
              (StoredMatrix.stored b (i + 1) 0).map (· / Scalar.sqrt pivot)) =
            fun i : Fin n => (StoredMatrix.stored a (i + 1) 0).map (· / Scalar.sqrt pivot) := by
          funext i
          rw [agree (i + 1) 0 (by omega) (by omega)]
        exact congrArg (fun f => Column.mk (Scalar.sqrt pivot) (Array.ofFn f)) hbelow
      have hremainder (c : Column α) : factor accepts n (remainder n b c) =
          factor accepts n (remainder n a c) := by
        refine ih fun i j hi hj => ?_
        unfold remainder
        rw [StoredMatrix.stored_ofFn hi hj, StoredMatrix.stored_ofFn hi hj,
          agree (i + 1) (j + 1) (by omega) (by omega)]
      unfold factor
      rw [agree 0 0 (by omega) (by omega)]
      simp only [hcolumn, hremainder]

end Cholesky

/-- A buffer whose length is the product of the sizes holds every place of the matrix that is read from
it by rows. -/
theorem suffices_matrixOfBuffer {buffer : Vec α} {m n : Nat} (h : n * m ≤ buffer.size) :
    buffer.Suffices (matrixOfBuffer m n) := by
  intro w agree
  unfold matrixOfBuffer
  refine Matrix.ext_cell? rfl rfl fun i j hi hj => ?_
  have hi : i < m := hi
  have hj : j < n := hj
  have hplace : i * n + j < buffer.size :=
    calc i * n + j
      _ < i * n + n := Nat.add_lt_add_left hj _
      _ = (i + 1) * n := (Nat.succ_mul i n).symm
      _ ≤ m * n := Nat.mul_le_mul_right n hi
      _ = n * m := Nat.mul_comm m n
      _ ≤ buffer.size := h
  rw [Matrix.cell?_ofFn hi hj, Matrix.cell?_ofFn hi hj, agree _ hplace]

/-! ### Points, factors and buffers -/

omit [Scalar α] in
/-- Every entry that was reported for a sparse Jacobian lies in its matrix. -/
def Jacobian.Within : Jacobian α → Prop
  | .sparse j => ∀ e ∈ j.entries, e.row < j.matrix.rows ∧ e.col < j.matrix.cols
  | .dense _ => True

/-- What is computed at a point reads no place that is not there: the products of its Jacobian, the
factorization of a normal matrix and the way along a path whose legs are known. -/
structure Linearization.Readable (q : Linearization α) : Prop where
  entries : q.jacobian.Within
  residuals : q.residuals.Suffices (StoredMatrix.transposeMulVec q.jacobian.stored)
  gradient : q.gradient.Suffices (StoredMatrix.mulVec q.jacobian.stored)
  normal : ∀ lambda, Cholesky.SufficesToFactor (CholeskySolver.normalMatrix q.jacobian lambda)
  legs : ∀ c g, q.cauchy = some c → q.gaussNewton = some g →
    c.vector.Suffices g.vector.sub ∧ (g.vector.sub c.vector).Suffices c.vector.dot ∧
      ∀ f : Nat → α → α, (g.vector.sub c.vector).Suffices fun v =>
        Vec.ofFn c.vector.size fun i => f i (v.entry i)

/-- An update from a point has an entry wherever one is read: for the product with the Jacobian, for the
improvement that is promised and for the state where it leads. -/
structure Linearization.Admits (q : Linearization α) (update : Vec α) : Prop where
  image : update.Suffices (StoredMatrix.mulVec q.jacobian.stored)
  slope : update.Suffices q.gradient.dot
  sum : update.Suffices q.state.add

/-- What is computed with a workspace reads no place that is not there; a factor that is held has every
entry below its diagonal and solves for right-hand sides with as many entries as there are states. -/
structure Workspace.Readable (w : Workspace α (CholeskySolver α)) (states : Nat) : Prop where
  point : w.point.Readable
  factor : ∀ columns, w.backend.factor = some columns →
    Cholesky.Triangular columns ∧
      ∀ rhs : Vec α, rhs.size = states → rhs.Suffices (Cholesky.solve columns)

/-- The buffer of a dense callback has every place of the matrix that is read from it. -/
def Evaluator.Readable : Evaluator α → Prop
  | .sparse _ => True
  | .dense e => e.buffer.Suffices (matrixOfBuffer e.measurements e.states)

/-- With the right sizes nothing is read at a point that is not there. -/
theorem Linearization.Shaped.readable {storage : Storage} {m n : Nat} {q : Linearization α}
    (h : q.Shaped storage m n) (entries : q.jacobian.Within) : q.Readable where
  entries := entries
  residuals := StoredMatrix.suffices_transposeMulVec (h.rows.trans h.residuals.symm).le
  gradient := StoredMatrix.suffices_mulVec (h.cols.trans h.gradient.symm).le
  normal lambda accepts b agree := by
    have hsquare : (CholeskySolver.normalMatrix q.jacobian lambda).cols =
        (CholeskySolver.normalMatrix q.jacobian lambda).rows := by
      unfold CholeskySolver.normalMatrix
      split <;> rfl
    exact Cholesky.factor_congr fun i j hi hj => agree i j hi (hsquare ▸ hj)
  legs c g hc hg := by
    have hc := h.cauchy c hc
    have hg := h.gaussNewton g hg
    have hdifference : c.vector.size ≤ (g.vector.sub c.vector).size := by
      rw [Vec.size_sub, hc, hg]
    exact ⟨Vec.suffices_sub (hg.trans hc.symm).le, Vec.suffices_dot hdifference,
      Vec.suffices_ofFn hdifference⟩

namespace Workspace.Shaped

variable {storage : Storage} {m n : Nat} {w : Workspace α (CholeskySolver α)}

/-- With the right sizes nothing is read that is not there. -/
theorem readable (h : w.Shaped storage m n) (entries : w.point.jacobian.Within) : w.Readable n where
  point := h.point.readable entries
  factor columns hfactor := by
    obtain ⟨-, hlength, htriangular⟩ := h.backend.factor columns hfactor
    exact ⟨htriangular, fun rhs hrhs => Cholesky.suffices_solve (hlength.trans hrhs.symm).le⟩

/-- An update of the size of the state has an entry wherever one is read. -/
theorem admits (h : w.Shaped storage m n) {update : Vec α} (size : update.size = n) :
    w.point.Admits update where
  image := StoredMatrix.suffices_mulVec (h.point.cols.trans size.symm).le
  slope := Vec.suffices_dot (h.point.gradient.trans size.symm).le
  sum := Vec.suffices_add (h.point.state.trans size.symm).le

end Workspace.Shaped

namespace Problem

variable {p : Problem α} {states calls : Nat}

/-- A callback cannot report an entry outside its Jacobian. -/
theorem within_of_report {state : Vec α} {evaluation : Evaluation α}
    (h : p.report states calls state = some evaluation) : evaluation.jacobian.Within := by
  cases p with
  | sparse callback measurements capacity =>
      have hinBounds := Writing.inBounds_run (callback calls state measurements)
        (w := JacobianWriter.new measurements states capacity) fun e he => nomatch he
      unfold report at h
      dsimp only at h
      split at h
      · cases h
      · rename_i residuals writer hrun
        rw [hrun] at hinBounds
        cases h
        intro e he
        have hentry := hinBounds e he
        simp only [JacobianEntry.inBounds, Bool.and_eq_true, decide_eq_true_eq] at hentry
        obtain ⟨hrows, hcols⟩ :=
          SparseJacobian.shape_assemble measurements states writer.entries.toList
        exact ⟨hrows.symm ▸ hentry.1, hcols.symm ▸ hentry.2⟩
  | dense callback measurements =>
      unfold report at h
      dsimp only at h
      split at h
      · cases h
      · cases h
        exact trivial

/-- Nothing is read that is not there at any point that is made from what a callback reports. -/
theorem Made.readable {q : Linearization α} (h : p.Made states calls q) (size : q.state.size = states) :
    q.Readable :=
  (h.shaped size).readable (within_of_report h.reported)

/-- If the number of places of a dense Jacobian is a word, its buffer has them all. -/
theorem Serves.readable {e : Evaluator α} (h : p.Serves states calls e)
    (fits : states * p.measurements < wordSize) : e.Readable := by
  cases h with
  | sparse => exact trivial
  | dense length => exact suffices_matrixOfBuffer (length.trans (Nat.mod_eq_of_lt fits)).ge

namespace Run

variable {settings : Settings α} {clock : Clock} {state : Vec α} {points : List (Linearization α)}
  {reason : Option StopReason} {s : Search α (CholeskySolver α)}

/-- No entry of the Jacobian at the current point lies outside it. -/
theorem within (h : p.Run settings clock state points reason s) :
    s.session.point.jacobian.Within :=
  within_of_report (h.made h.current).reported

/-- Nothing is read in a search that is not there. -/
theorem readable (h : p.Run settings clock state points reason s) :
    s.session.workspace.Readable state.size :=
  h.shaped.readable h.within

/-- A step has the sizes of the problem, and nothing is read for it that is not there. -/
theorem readable_of_stepsTo (h : p.Run settings clock state points reason s) {step : Step α}
    {w' : Workspace α (CholeskySolver α)}
    (hstep : s.session.workspace.StepsTo s.session.settings.damping s.session.radius step w') :
    w'.Shaped p.storage p.measurements state.size ∧ w'.Readable state.size ∧
      w'.point.Admits step.update := by
  obtain ⟨hsize, hshaped⟩ := h.shaped.stepsTo hstep
  have hjacobian : w'.point.jacobian = s.session.point.jacobian :=
    (Linearization.parts_of_bare_eq hstep.bare_eq).2.2.2.2.1
  exact ⟨hshaped, hshaped.readable (hjacobian ▸ h.within), hshaped.admits hsize⟩

end Run

end Problem

end TrustRegion
