/-
Module: TrustRegion.Vec
Purpose: Vectors of any length, their products and their lengths.
Main exports: Vec, Vec.ofFn, Vec.entry, Vec.dot, Vec.normSq, Vec.norm, Vec.maxAbs
-/
import TrustRegion.Scalar

namespace TrustRegion

open Scalar

/-- A vector, with its entries stored in order. -/
structure Vec (α : Type) where
  entries : Array α
deriving Repr, Inhabited

namespace Vec

variable {α : Type}

/-- The vector of `f 0, …, f (n - 1)`. -/
def ofFn (n : Nat) (f : Nat → α) : Vec α :=
  ⟨Array.ofFn fun i : Fin n => f i⟩

/-- The vector with the entries of a list. -/
def ofList (xs : List α) : Vec α :=
  ⟨xs.toArray⟩

/-- The entries as a list. -/
def toList (v : Vec α) : List α :=
  v.entries.toList

/-- The number of entries. -/
def size (v : Vec α) : Nat :=
  v.entries.size

/-- A vector with one more entry in front. -/
def cons (x : α) (v : Vec α) : Vec α :=
  ⟨#[x] ++ v.entries⟩

/-- Every entry replaced by its image. -/
def map {β : Type} (f : α → β) (v : Vec α) : Vec β :=
  ⟨v.entries.map f⟩

/-- A vector with the entry at one place replaced by its image, unchanged if there is no such
place. -/
def modify (v : Vec α) (i : Nat) (f : α → α) : Vec α :=
  ⟨v.entries.modify i f⟩

variable [Scalar α]

/-- The entry at a place, zero beyond the end. -/
def entry (v : Vec α) (i : Nat) : α :=
  v.entries[i]?.getD 0

/-- The zero vector of length `n`. -/
def zeros (n : Nat) : Vec α :=
  ofFn n fun _ => 0

/-- The vector of length `n` that agrees with `v`, cut off or padded with zeros. -/
def fit (n : Nat) (v : Vec α) : Vec α :=
  ofFn n v.entry

/-- The vector of length `n` with a one at place `j` and zeros elsewhere. -/
def unit (n j : Nat) : Vec α :=
  ofFn n fun i => if i = j then 1 else 0

/-- The products of corresponding entries, added from left to right over the length of the first
vector. -/
def dot (a b : Vec α) : α :=
  total (fun i => a.entry i * b.entry i) a.size

/-- The squared Euclidean length. -/
def normSq (v : Vec α) : α :=
  dot v v

/-- The largest magnitude of an entry: zero for the empty vector, undefined if an entry is. -/
def maxAbs (v : Vec α) : α :=
  largest (fun i => abs (v.entry i)) v.size

/-- Half the range of exponents: a power of two whose square is neither too large nor, inverted,
too small to be held. -/
def scaleUnit : α :=
  Scalar.ofNat (Nat.pow 2 511)

/-- The Euclidean length. The entries are squared as they are, scaled down and scaled up by a power
of two, and the sum that is certain to be in range is taken, so that entries whose squares would be
too large or too small still give their length. -/
def norm (v : Vec α) : α :=
  let shrunk := total (fun i => (v.entry i / scaleUnit) * (v.entry i / scaleUnit)) v.size
  if 1 ≤ shrunk then sqrt shrunk * scaleUnit
  else
    let plain := v.normSq
    if 1 ≤ plain then sqrt plain
    else
      sqrt (total (fun i => (v.entry i * scaleUnit) * (v.entry i * scaleUnit)) v.size) / scaleUnit

/-- The sum of two vectors, as long as the first. -/
def add (a b : Vec α) : Vec α :=
  ofFn a.size fun i => a.entry i + b.entry i

/-- The difference of two vectors, as long as the first. -/
def sub (a b : Vec α) : Vec α :=
  ofFn a.size fun i => a.entry i - b.entry i

/-- Every entry negated. -/
def neg (v : Vec α) : Vec α :=
  ofFn v.size fun i => -v.entry i

/-! ### Entries and sizes -/

omit [Scalar α] in
@[simp] theorem size_ofFn (n : Nat) (f : Nat → α) : (ofFn n f).size = n := by
  simp [ofFn, size]

theorem entry_ofFn {n : Nat} {f : Nat → α} {i : Nat} (h : i < n) : (ofFn n f).entry i = f i := by
  simp [ofFn, entry, h]

omit [Scalar α] in
@[simp] theorem size_modify (v : Vec α) (i : Nat) (f : α → α) : (v.modify i f).size = v.size := by
  simp [modify, size]

theorem entry_modify {v : Vec α} {i : Nat} (f : α → α) (h : i < v.size) (j : Nat) :
    (v.modify i f).entry j = if i = j then f (v.entry j) else v.entry j := by
  simp only [size] at h
  by_cases hj : i = j
  · subst hj
    simp [modify, entry, h, Array.getElem_modify]
  · simp [modify, entry, Array.getElem?_modify, hj]

theorem entry_of_size_le {v : Vec α} {i : Nat} (h : v.size ≤ i) : v.entry i = 0 := by
  simp only [size] at h
  simp [entry, h]

@[simp] theorem size_zeros (n : Nat) : (zeros n : Vec α).size = n :=
  size_ofFn n _

@[simp] theorem size_fit (n : Nat) (v : Vec α) : (fit n v).size = n :=
  size_ofFn n _

@[simp] theorem size_add (a b : Vec α) : (a.add b).size = a.size :=
  size_ofFn _ _

@[simp] theorem size_sub (a b : Vec α) : (a.sub b).size = a.size :=
  size_ofFn _ _

@[simp] theorem size_neg (v : Vec α) : v.neg.size = v.size :=
  size_ofFn _ _

omit [Scalar α] in
@[simp] theorem size_cons (x : α) (v : Vec α) : (cons x v).size = v.size + 1 := by
  simp [cons, size, Nat.add_comm]

@[simp] theorem entry_cons_zero (x : α) (v : Vec α) : (cons x v).entry 0 = x := by
  rw [cons, entry, Array.getElem?_append_left Nat.one_pos]
  rfl

@[simp] theorem entry_cons_succ (x : α) (v : Vec α) (i : Nat) :
    (cons x v).entry (i + 1) = v.entry i := by
  simp [cons, entry, Array.getElem?_append_right]

/-- Two vectors are equal when they have the same length and the same entries. -/
theorem ext_entry {a b : Vec α} (hs : a.size = b.size)
    (h : ∀ i, i < a.size → a.entry i = b.entry i) : a = b := by
  cases a with
  | mk xs =>
      cases b with
      | mk ys =>
          simp only [size] at hs h
          congr 1
          apply Array.ext hs
          intro i hi hi'
          have := h i hi
          simpa [entry, hi, hi'] using this

/-- A vector made entry by entry depends only on the entries that it has. -/
theorem ofFn_congr {n : Nat} {f g : Nat → α} (h : ∀ i, i < n → f i = g i) : ofFn n f = ofFn n g := by
  refine ext_entry ((size_ofFn _ _).trans (size_ofFn _ _).symm) fun i hi => ?_
  rw [size_ofFn] at hi
  rw [entry_ofFn hi, entry_ofFn hi, h i hi]

end Vec

end TrustRegion
