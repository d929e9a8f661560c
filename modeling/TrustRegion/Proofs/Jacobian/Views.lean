/-
Module: TrustRegion.Proofs.Jacobian.Views
Purpose: A sparse Jacobian is kept as its entries, as a matrix and as a pattern, and each operation reads
  one of them. They show the same: without rounding every view is that of the matrix whose entries are the
  sums of what was reported, so that the order of the reports makes no difference, and the products are
  those of the full matrix.
Main exports: entrySum, SparseJacobian.value_assemble, SparseJacobian.Shows, SparseJacobian.shows,
  SparseJacobian.Alike, SparseJacobian.alike_of_perm, SparseJacobian.views_agree
-/
import TrustRegion.Proofs.Linear.Exact
import TrustRegion.Proofs.Jacobian.Assembly

namespace TrustRegion

open Finset

/-- The values that are reported at a place, added up. -/
noncomputable def entrySum (row col : ℕ) (entries : List (JacobianEntry ℝ)) : ℝ :=
  (entries.map fun e => if e.row = row ∧ e.col = col then e.value else 0).sum

@[simp] theorem entrySum_nil (row col : ℕ) : entrySum row col [] = 0 := rfl

@[simp] theorem entrySum_cons (row col : ℕ) (e : JacobianEntry ℝ)
    (entries : List (JacobianEntry ℝ)) :
    entrySum row col (e :: entries) =
      (if e.row = row ∧ e.col = col then e.value else 0) + entrySum row col entries := by
  rw [entrySum, List.map_cons, List.sum_cons]
  rfl

/-! ### Sums without rounding -/

namespace JacobianEntry

theorem sum_valuesAt (row col : ℕ) (entries : List (JacobianEntry ℝ)) :
    (valuesAt row col entries).sum = entrySum row col entries := by
  induction entries with
  | nil => rfl
  | cons e entries ih =>
      rw [entrySum_cons]
      by_cases hplace : e.row = row ∧ e.col = col
      · rw [valuesAt_cons_of_eq hplace, List.sum_cons, ih, if_pos hplace]
      · rw [valuesAt_cons_of_ne hplace, ih, if_neg hplace, zero_add]

theorem sumAt_eq (row col : ℕ) (entries : List (JacobianEntry ℝ)) :
    sumAt row col entries = entrySum row col entries := by
  rw [sumAt, ← List.sum_eq_foldl, sum_valuesAt]

theorem value_entryAt (row col : ℕ) (entries : List (JacobianEntry ℝ)) :
    (entryAt row col entries).value = entrySum row col entries := by
  have hfold (xs : List ℝ) (a : Entry ℝ) :
      Entry.value (xs.foldl (fun sum x => Entry.plus sum (some x)) a) = Entry.value a + xs.sum := by
    induction xs generalizing a with
    | nil => simp
    | cons x xs ih => rw [List.foldl_cons, ih, Entry.value_plus, Entry.value_some, List.sum_cons,
        add_assoc]
  rw [entryAt, hfold, Entry.value_none, zero_add, sum_valuesAt]

/-- What is stored at a place does not see the order of the entries. -/
theorem entryAt_perm (row col : ℕ) {entries entries' : List (JacobianEntry ℝ)}
    (perm : entries.Perm entries') : entryAt row col entries = entryAt row col entries' := by
  have : RightCommutative fun (sum : Entry ℝ) (x : ℝ) => Entry.plus sum (some x) := by
    refine ⟨fun sum x y => ?_⟩
    cases sum with
    | none => exact congrArg some (add_comm x y)
    | some a => exact congrArg some (add_right_comm a x y)
  exact (valuesAt_perm row col perm).foldl_eq none

end JacobianEntry

open JacobianEntry

/-! ### Products -/

namespace CholeskySolver

variable {α : Type} [Scalar α] {s : CholeskySolver α} {j : Jacobian α}

/-- A product with the transposed Jacobian, computed or refused, where the storage is right. -/
theorem gradient_of_storage (kind : j.storage = s.storage) (x : Vec α) :
    s.gradient j x =
      if x.size ≠ j.stored.rows then refuseShape (.rows j.stored.rows x.size)
      else pure (.ok (StoredMatrix.transposeMulVec j.stored x)) := by
  unfold gradient matrixOf
  rw [if_pos kind]
  rfl

/-- A product with the Jacobian, computed or refused, where the storage is right. -/
theorem jacobianMul_of_storage (kind : j.storage = s.storage) (v : Vec α) :
    s.jacobianMul j v =
      if v.size ≠ j.stored.cols then refuseShape (.columns j.stored.cols v.size)
      else pure (.ok (StoredMatrix.mulVec j.stored v)) := by
  unfold jacobianMul matrixOf
  rw [if_pos kind]
  rfl

/-- The products depend on the storage of a Jacobian and on what is stored. -/
theorem gradient_congr {j' : Jacobian α} (stored : j.stored = j'.stored)
    (kind : j.storage = j'.storage) (s : CholeskySolver α) (x : Vec α) :
    s.gradient j x = s.gradient j' x := by
  unfold gradient matrixOf
  rw [kind, stored]

theorem jacobianMul_congr {j' : Jacobian α} (stored : j.stored = j'.stored)
    (kind : j.storage = j'.storage) (s : CholeskySolver α) (v : Vec α) :
    s.jacobianMul j v = s.jacobianMul j' v := by
  unfold jacobianMul matrixOf
  rw [kind, stored]

end CholeskySolver

namespace Jacobian

variable {j j' : Jacobian ℝ}

/-- Jacobians with the same shape and the same derivatives have the same products. -/
theorem products_congr (rows : j.stored.rows = j'.stored.rows) (cols : j.stored.cols = j'.stored.cols)
    (slopes : ∀ r i, r < j.stored.rows → i < j.stored.cols → j.slope r i = j'.slope r i) :
    StoredMatrix.transposeMulVec j.stored = StoredMatrix.transposeMulVec j'.stored ∧
      StoredMatrix.mulVec j.stored = StoredMatrix.mulVec j'.stored := by
  constructor
  · funext x
    apply Vec.ext_entry
    · rw [StoredMatrix.size_transposeMulVec, StoredMatrix.size_transposeMulVec, cols]
    · intro i hi
      rw [StoredMatrix.size_transposeMulVec] at hi
      rw [entry_transposeMulVec j x hi, entry_transposeMulVec j' x (cols ▸ hi), ← rows]
      exact sum_congr rfl fun r hr => by rw [slopes r i (mem_range.mp hr) hi]
  · funext v
    apply Vec.ext_entry
    · rw [StoredMatrix.size_mulVec, StoredMatrix.size_mulVec, rows]
    · intro r hr
      rw [StoredMatrix.size_mulVec] at hr
      rw [entry_mulVec j v hr, entry_mulVec j' v (rows ▸ hr), ← cols]
      exact sum_congr rfl fun i hi => by rw [slopes r i hr (mem_range.mp hi)]

/-- The two products are adjoint. -/
theorem dot_mulVec (j : Jacobian ℝ) {v x : Vec ℝ} (columns : v.size = j.stored.cols) :
    (StoredMatrix.mulVec j.stored v).dot x = v.dot (StoredMatrix.transposeMulVec j.stored x) := by
  rw [Vec.dot_eq, Vec.dot_eq, StoredMatrix.size_mulVec, columns]
  calc ∑ r ∈ range j.stored.rows, (StoredMatrix.mulVec j.stored v).entry r * x.entry r
      = ∑ r ∈ range j.stored.rows, ∑ i ∈ range j.stored.cols,
          v.entry i * (j.slope r i * x.entry r) := by
        refine sum_congr rfl fun r hr => ?_
        rw [entry_mulVec j v (mem_range.mp hr), sum_mul]
        exact sum_congr rfl fun i _ => by ring
    _ = ∑ i ∈ range j.stored.cols, ∑ r ∈ range j.stored.rows,
          v.entry i * (j.slope r i * x.entry r) := sum_comm
    _ = ∑ i ∈ range j.stored.cols,
          v.entry i * (StoredMatrix.transposeMulVec j.stored x).entry i := by
        refine sum_congr rfl fun i hi => ?_
        rw [entry_transposeMulVec j x (mem_range.mp hi), mul_sum]

end Jacobian

/-! ### The views -/

namespace SparseJacobian

variable {measurements states : ℕ}

/-- A matrix assembled from entries holds at each place what is reported there. -/
theorem value_assemble (entries : List (JacobianEntry ℝ)) {row col : ℕ} (hrow : row < measurements)
    (hcol : col < states) :
    Entry.value (StoredMatrix.stored (assemble measurements states entries) row col) =
      entrySum row col entries := by
  rw [stored_assemble hrow hcol, value_entryAt]

/-- A sparse Jacobian all of whose views are those of the matrix `M`: what is stored, the full matrix,
the partial derivatives, and the products, which are refused only for a vector of another size. -/
structure Shows (j : SparseJacobian ℝ) (measurements states : ℕ) (M : ℕ → ℕ → ℝ) : Prop where
  matrix : j.matrix.rows = measurements ∧ j.matrix.cols = states ∧
    ∀ r i, r < measurements → i < states → (StoredMatrix.stored j.matrix r i).value = M r i
  full : Jacobian.toDense (.sparse j) = Matrix.ofFn measurements states M
  column : ∀ i, i < states →
    Jacobian.partialDerivatives (.sparse j) i = Vec.ofFn measurements fun r => M r i
  beyond : ∀ i, states ≤ i → Jacobian.partialDerivatives (.sparse j) i = Vec.zeros measurements
  gradient : ∀ (backend : CholeskySolver ℝ) (x : Vec ℝ), backend.storage = .sparse →
    x.size = measurements → backend.gradient (.sparse j) x =
      pure (.ok (Vec.ofFn states fun i => ∑ r ∈ range measurements, M r i * x.entry r))
  jacobianMul : ∀ (backend : CholeskySolver ℝ) (v : Vec ℝ), backend.storage = .sparse →
    v.size = states → backend.jacobianMul (.sparse j) v =
      pure (.ok (Vec.ofFn measurements fun r => ∑ i ∈ range states, M r i * v.entry i))

variable {entries entries' : List (JacobianEntry ℝ)}

/-- The full matrix is that of the sums of what was reported. -/
theorem toDense_assembled :
    Jacobian.toDense (.sparse (assembled measurements states entries)) =
      Matrix.ofFn measurements states fun r i => entrySum r i entries := by
  obtain ⟨hrows, hcols⟩ := Jacobian.shape_toDense (assembled measurements states entries)
  refine Matrix.ext_cell? hrows hcols fun r i hr hi => ?_
  have hrow : r < measurements := hr.trans_eq hrows
  have hcol : i < states := hi.trans_eq hcols
  rw [Matrix.cell?_ofFn hrow hcol, ← sumAt_eq]
  exact Jacobian.cell?_toDense (j := assembled measurements states entries) hrow hcol

/-- The partial derivatives by a state are its column of the sums of what was reported. -/
theorem partialDerivatives_assembled {i : ℕ} (hi : i < states) :
    Jacobian.partialDerivatives (.sparse (assembled measurements states entries)) i =
      Vec.ofFn measurements fun r => entrySum r i entries := by
  have hsize : (Jacobian.partialDerivatives (.sparse (assembled measurements states entries)) i).size =
      measurements := Jacobian.size_partialDerivatives _ i
  apply Vec.ext_entry (hsize.trans (Vec.size_ofFn _ _).symm)
  intro r hr
  have hrow : r < measurements := hr.trans_eq hsize
  rw [Vec.entry_ofFn hrow, ← sumAt_eq]
  exact Jacobian.entry_partialDerivatives (j := assembled measurements states entries) hrow hi

/-- The products are those with the sums of what was reported. -/
theorem products_assembled (x : Vec ℝ) :
    StoredMatrix.transposeMulVec (assemble measurements states entries) x =
        Vec.ofFn states (fun i => ∑ r ∈ range measurements, entrySum r i entries * x.entry r) ∧
      StoredMatrix.mulVec (assemble measurements states entries) x =
        Vec.ofFn measurements fun r => ∑ i ∈ range states, entrySum r i entries * x.entry i := by
  obtain ⟨hrows, hcols⟩ := shape_assemble measurements states entries
  have hslope (r i : ℕ) (hr : r < measurements) (hi : i < states) :
      Jacobian.slope (.sparse (assembled measurements states entries)) r i = entrySum r i entries :=
    value_assemble entries hr hi
  constructor
  · apply Vec.ext_entry
    · rw [StoredMatrix.size_transposeMulVec, Vec.size_ofFn, hcols]
    · intro i hi
      rw [StoredMatrix.size_transposeMulVec] at hi
      have hcol : i < states := hi.trans_eq hcols
      have hentry := Jacobian.entry_transposeMulVec
        (.sparse (assembled measurements states entries)) x hi
      rw [Vec.entry_ofFn hcol]
      refine hentry.trans (sum_congr (congrArg range hrows) fun r hr => ?_)
      rw [hslope r i (mem_range.mp hr) hcol]
  · apply Vec.ext_entry
    · rw [StoredMatrix.size_mulVec, Vec.size_ofFn, hrows]
    · intro r hr
      rw [StoredMatrix.size_mulVec] at hr
      have hrow : r < measurements := hr.trans_eq hrows
      have hentry := Jacobian.entry_mulVec (.sparse (assembled measurements states entries)) x hr
      rw [Vec.entry_ofFn hrow]
      refine hentry.trans (sum_congr (congrArg range hcols) fun i hi => ?_)
      rw [hslope r i hrow (mem_range.mp hi)]

/-- What is assembled from entries shows the sums of what was reported. -/
theorem shows (measurements states : ℕ) (entries : List (JacobianEntry ℝ)) :
    (assembled measurements states entries).Shows measurements states
      fun r i => entrySum r i entries := by
  obtain ⟨hrows, hcols⟩ := shape_assemble measurements states entries
  refine
    { matrix := ⟨hrows, hcols, fun r i => value_assemble entries⟩
      full := toDense_assembled
      column := fun i => partialDerivatives_assembled
      beyond := fun i hi => Jacobian.partialDerivatives_of_le hi
      gradient := fun backend x kind size => ?_
      jacobianMul := fun backend v kind size => ?_ }
  · have hkind : (Jacobian.sparse (assembled measurements states entries)).storage =
        backend.storage := kind.symm
    have hsize : ¬ x.size ≠ (assemble measurements states entries).rows :=
      not_not.mpr (size.trans hrows.symm)
    rw [← (products_assembled x).1]
    exact (CholeskySolver.gradient_of_storage hkind x).trans (if_neg hsize)
  · have hkind : (Jacobian.sparse (assembled measurements states entries)).storage =
        backend.storage := kind.symm
    have hsize : ¬ v.size ≠ (assemble measurements states entries).cols :=
      not_not.mpr (size.trans hcols.symm)
    rw [← (products_assembled v).2]
    exact (CholeskySolver.jacobianMul_of_storage hkind v).trans (if_neg hsize)

/-- The full matrix has the same products, computed or refused, in dense storage. -/
theorem Shows.products_toDense {j : SparseJacobian ℝ} {M : ℕ → ℕ → ℝ} (h : j.Shows measurements states M)
    {sparse dense : CholeskySolver ℝ} (kind : sparse.storage = .sparse)
    (kind' : dense.storage = .dense) (x : Vec ℝ) :
    dense.gradient (.dense (Jacobian.toDense (.sparse j))) x = sparse.gradient (.sparse j) x ∧
      dense.jacobianMul (.dense (Jacobian.toDense (.sparse j))) x =
        sparse.jacobianMul (.sparse j) x := by
  have hsparse : (Jacobian.sparse j).storage = sparse.storage := kind.symm
  have hdense : (Jacobian.dense (Jacobian.toDense (.sparse j))).storage = dense.storage := kind'.symm
  obtain ⟨hrows, hcols, hstored⟩ := h.matrix
  have hfull : (Jacobian.dense (Jacobian.toDense (.sparse j))).stored =
      StoredMatrix.ofFull (Matrix.ofFn measurements states M) :=
    congrArg StoredMatrix.ofFull h.full
  have hrows' : (Jacobian.dense (Jacobian.toDense (.sparse j))).stored.rows =
      (Jacobian.sparse j).stored.rows := by
    rw [hfull]
    exact hrows.symm
  have hcols' : (Jacobian.dense (Jacobian.toDense (.sparse j))).stored.cols =
      (Jacobian.sparse j).stored.cols := by
    rw [hfull]
    exact hcols.symm
  obtain ⟨htransposed, hproduct⟩ := Jacobian.products_congr hrows' hcols' fun r i hr hi => by
    have hrow : r < measurements := (hr.trans_eq hrows').trans_eq hrows
    have hcol : i < states := (hi.trans_eq hcols').trans_eq hcols
    rw [Jacobian.slope, Jacobian.slope, hfull, StoredMatrix.stored_ofFull,
      Matrix.cell?_ofFn hrow hcol]
    exact (hstored r i hrow hcol).symm
  rw [CholeskySolver.gradient_of_storage hdense, CholeskySolver.gradient_of_storage hsparse,
    CholeskySolver.jacobianMul_of_storage hdense, CholeskySolver.jacobianMul_of_storage hsparse,
    htransposed, hproduct, hrows', hcols']
  exact ⟨rfl, rfl⟩

/-- Two sparse Jacobians with the same views. -/
structure Alike {α : Type} [Scalar α] (j j' : SparseJacobian α) : Prop where
  matrix : j.matrix = j'.matrix
  pattern : j.pattern = j'.pattern
  nonZeros : j.nonZeros = j'.nonZeros
  full : Jacobian.toDense (.sparse j) = Jacobian.toDense (.sparse j')
  columns : Jacobian.partialDerivatives (.sparse j) = Jacobian.partialDerivatives (.sparse j')
  gradient : ∀ (backend : CholeskySolver α) (x : Vec α),
    backend.gradient (.sparse j) x = backend.gradient (.sparse j') x
  jacobianMul : ∀ (backend : CholeskySolver α) (v : Vec α),
    backend.jacobianMul (.sparse j) v = backend.jacobianMul (.sparse j') v

/-- Reordering the entries changes no view. -/
theorem alike_of_perm {entries entries' : List (JacobianEntry ℝ)} (perm : entries.Perm entries') :
    (assembled measurements states entries).Alike (assembled measurements states entries') := by
  obtain ⟨hrows, hcols⟩ := shape_assemble measurements states entries
  obtain ⟨hrows', hcols'⟩ := shape_assemble measurements states entries'
  have hmatrix : assemble measurements states entries = assemble measurements states entries' := by
    refine Matrix.ext_cell? (hrows.trans hrows'.symm) (hcols.trans hcols'.symm) fun r i hr hi => ?_
    rw [hrows] at hr
    rw [hcols] at hi
    rw [cell?_assemble hr hi, cell?_assemble hr hi, entryAt_perm r i perm]
  have hstored : (Jacobian.sparse (assembled measurements states entries)).stored =
      (Jacobian.sparse (assembled measurements states entries')).stored := hmatrix
  have hsum (r i : ℕ) : entrySum r i entries = entrySum r i entries' :=
    (perm.map _).sum_eq
  refine
    { matrix := hmatrix
      pattern := congrArg StoredMatrix.positions hmatrix
      nonZeros := congrArg (fun m => (StoredMatrix.positions m).length) hmatrix
      full := ?_
      columns := funext fun i => ?_
      gradient := fun backend x => ?_
      jacobianMul := fun backend v => ?_ }
  · rw [toDense_assembled, toDense_assembled]
    simp only [hsum]
  · rcases Nat.lt_or_ge i states with hi | hi
    · rw [partialDerivatives_assembled hi, partialDerivatives_assembled hi]
      simp only [hsum]
    · have hbeyond (entries : List (JacobianEntry ℝ)) :
          Jacobian.partialDerivatives (.sparse (assembled measurements states entries)) i =
            Vec.zeros measurements := Jacobian.partialDerivatives_of_le hi
      rw [hbeyond, hbeyond]
  · exact CholeskySolver.gradient_congr hstored rfl backend x
  · exact CholeskySolver.jacobianMul_congr hstored rfl backend v

/-- What a list of entries is seen as, however addition rounds: the pattern is the increasing list of the
places that occur, and the full matrix has the same partial derivatives. -/
structure ShowsPlaces {α : Type} [Scalar α] (j : SparseJacobian α) (entries : List (JacobianEntry α)) :
    Prop where
  increasing : j.pattern.Pairwise fun p q => toLex p < toLex q
  mem_pattern : ∀ r i, (r, i) ∈ j.pattern ↔ ∃ e, e ∈ entries ∧ e.row = r ∧ e.col = i
  nonZeros : j.nonZeros = j.pattern.length ∧
    j.nonZeros = (entries.map fun e => (e.row, e.col)).toFinset.card
  columns : ∀ i, Jacobian.partialDerivatives (.dense (Jacobian.toDense (.sparse j))) i =
    Jacobian.partialDerivatives (.sparse j) i

/-- The pattern is as long as there are different places among the entries. -/
theorem nonZeros_eq {α : Type} [Scalar α] {entries : List (JacobianEntry α)}
    (inBounds : ∀ e, e ∈ entries → e.inBounds measurements states = true) :
    (assembled measurements states entries).nonZeros =
      (entries.map fun e => (e.row, e.col)).toFinset.card := by
  have hnodup : (assembled measurements states entries).pattern.Nodup := by
    refine (StoredMatrix.pairwise_positions _).imp ?_
    rintro p _ hlt rfl
    exact lt_irrefl _ hlt
  rw [nonZeros, ← List.toFinset_card_of_nodup hnodup]
  congr 1
  ext ⟨r, i⟩
  rw [List.mem_toFinset, List.mem_toFinset, mem_pattern inBounds, List.mem_map]
  simp only [Prod.mk.injEq]

/-- All views of a sparse Jacobian agree. Entries that lie in the grid, in any order and with places that
occur more than once, are a Jacobian, whose pattern and partial derivatives are as they should be for
any scalars. Without rounding its views show the sums of what was reported, its products are those of
the full matrix and adjoint to each other, and reordering the entries changes nothing. -/
theorem views_agree :
    (∀ (α : Type) [Scalar α] (measurements states : ℕ) (entries : List (JacobianEntry α)),
      (∀ e, e ∈ entries → e.inBounds measurements states = true) →
      ofEntries measurements states entries = pure (.ok (assembled measurements states entries)) ∧
        (assembled measurements states entries).ShowsPlaces entries) ∧
    ∀ (measurements states : ℕ) (entries : List (JacobianEntry ℝ)),
      (∀ e, e ∈ entries → e.inBounds measurements states = true) →
      (assembled measurements states entries).Shows measurements states
          (fun r i => entrySum r i entries) ∧
        (∀ (sparse dense : CholeskySolver ℝ) (x : Vec ℝ), sparse.storage = .sparse →
          dense.storage = .dense →
          sparse.gradient (.sparse (assembled measurements states entries)) x =
              dense.gradient
                (.dense (Jacobian.toDense (.sparse (assembled measurements states entries)))) x ∧
            sparse.jacobianMul (.sparse (assembled measurements states entries)) x =
              dense.jacobianMul
                (.dense (Jacobian.toDense (.sparse (assembled measurements states entries)))) x) ∧
        (∀ (sparse : CholeskySolver ℝ) (v x : Vec ℝ), sparse.storage = .sparse → v.size = states →
          x.size = measurements →
          ∃ product transposed,
            sparse.jacobianMul (.sparse (assembled measurements states entries)) v =
              pure (.ok product) ∧
            sparse.gradient (.sparse (assembled measurements states entries)) x =
              pure (.ok transposed) ∧
            product.dot x = v.dot transposed) ∧
        ∀ entries' : List (JacobianEntry ℝ), entries.Perm entries' →
          ofEntries measurements states entries' =
              pure (.ok (assembled measurements states entries')) ∧
            (assembled measurements states entries).Alike
              (assembled measurements states entries') := by
  constructor
  · intro α _ measurements states entries inBounds
    exact ⟨ofEntries_eq inBounds,
      { increasing := StoredMatrix.pairwise_positions _
        mem_pattern := fun r i => mem_pattern inBounds
        nonZeros := ⟨rfl, nonZeros_eq inBounds⟩
        columns := Jacobian.partialDerivatives_toDense _ }⟩
  · intro measurements states entries inBounds
    have hshows := shows measurements states entries
    refine ⟨hshows, ?_, ?_, ?_⟩
    · intro sparse dense x kind kind'
      obtain ⟨hgradient, hproduct⟩ := hshows.products_toDense kind kind' x
      exact ⟨hgradient.symm, hproduct.symm⟩
    · intro sparse v x kind columns rows
      refine ⟨_, _, hshows.jacobianMul sparse v kind columns, hshows.gradient sparse x kind rows, ?_⟩
      obtain ⟨-, hcols⟩ := shape_assemble measurements states entries
      rw [← (products_assembled v).2, ← (products_assembled x).1]
      exact Jacobian.dot_mulVec (.sparse (assembled measurements states entries))
        (columns.trans hcols.symm)
    · intro entries' perm
      exact ⟨ofEntries_eq fun e he => inBounds e (perm.mem_iff.mpr he), alike_of_perm perm⟩

/-- Three entries at two places, one of them reported twice. -/
noncomputable def reportedTwice : List (JacobianEntry ℝ) :=
  [⟨0, 1, 1⟩, ⟨1, 0, 1⟩, ⟨0, 1, 1⟩]

/-- The views of such entries agree, and with those of the entries in another order. -/
theorem views_agree_reportedTwice :
    ofEntries 2 2 reportedTwice = pure (.ok (assembled 2 2 reportedTwice)) ∧
      (assembled 2 2 reportedTwice).ShowsPlaces reportedTwice ∧
      (assembled 2 2 reportedTwice).Shows 2 2 (fun r i => entrySum r i reportedTwice) ∧
      (CholeskySolver.new .sparse).gradient (.sparse (assembled 2 2 reportedTwice)) ⟨#[1, -1]⟩ =
        (CholeskySolver.new .dense).gradient
          (.dense (Jacobian.toDense (.sparse (assembled 2 2 reportedTwice)))) ⟨#[1, -1]⟩ ∧
      (∃ product transposed,
        (CholeskySolver.new .sparse).jacobianMul (.sparse (assembled 2 2 reportedTwice)) ⟨#[1, 0]⟩ =
          pure (.ok product) ∧
        (CholeskySolver.new .sparse).gradient (.sparse (assembled 2 2 reportedTwice)) ⟨#[1, -1]⟩ =
          pure (.ok transposed) ∧
        product.dot ⟨#[1, -1]⟩ = Vec.dot ⟨#[1, 0]⟩ transposed) ∧
      (assembled 2 2 reportedTwice).Alike (assembled 2 2 [⟨0, 1, 1⟩, ⟨0, 1, 1⟩, ⟨1, 0, 1⟩]) := by
  have hinBounds : ∀ e, e ∈ reportedTwice → e.inBounds 2 2 = true := by
    intro e he
    simp only [reportedTwice, List.mem_cons, List.not_mem_nil, or_false] at he
    rcases he with rfl | rfl | rfl <;> rfl
  obtain ⟨hplaces, hviews⟩ := views_agree
  obtain ⟨hbuilt, hshowsPlaces⟩ := hplaces ℝ 2 2 reportedTwice hinBounds
  obtain ⟨hshows, hdense, hadjoint, hperm⟩ := hviews 2 2 reportedTwice hinBounds
  exact ⟨hbuilt, hshowsPlaces, hshows,
    (hdense (CholeskySolver.new .sparse) (CholeskySolver.new .dense) ⟨#[1, -1]⟩ rfl rfl).1,
    hadjoint (CholeskySolver.new .sparse) ⟨#[1, 0]⟩ ⟨#[1, -1]⟩ rfl rfl rfl,
    (hperm _ (.cons _ (.swap _ _ _))).2⟩

end SparseJacobian

end TrustRegion
