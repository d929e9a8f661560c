/-
Module: TrustRegion.Proofs.Jacobian.Offers
Purpose: What a writer does with the entries that a callback offers, one after another, whatever the
  callback makes of the answers. An entry is refused for its place or for lack of room, a refusal leaves no
  trace, and what has been taken in the end are the first entries that lie in the grid, as many as there is
  room for.
Main exports: JacobianWriter.AddsTo, Offer, Writing.offers, takenOf, Writing.run_eq, Writing.takenOf_offers,
  Writing.writer_of_offers, Offer.Answered, Writing.answered
-/
import Mathlib.Data.List.Basic
import TrustRegion.Jacobian.Writer

namespace TrustRegion

variable {α β : Type}

/-! ### One offer -/

namespace JacobianWriter

/-- A writer that has taken some more entries. -/
def holding (w : JacobianWriter α) (taken : List (JacobianEntry α)) : JacobianWriter α :=
  { w with entries := w.entries ++ taken.toArray }

@[simp] theorem holding_nil (w : JacobianWriter α) : w.holding [] = w := by
  simp [holding]

theorem holding_append (w : JacobianWriter α) (xs ys : List (JacobianEntry α)) :
    w.holding (xs ++ ys) = (w.holding xs).holding ys := by
  simp [holding]

theorem size_holding (w : JacobianWriter α) (taken : List (JacobianEntry α)) :
    (w.holding taken).size = w.size + taken.length := by
  simp [holding, size]

theorem toList_holding (w : JacobianWriter α) (taken : List (JacobianEntry α)) :
    (w.holding taken).entries.toList = w.entries.toList ++ taken := by
  simp [holding]

/-- What can come of an entry: its place lies outside the grid, or there is no room left, or it is
taken. -/
inductive AddsTo (w : JacobianWriter α) (e : JacobianEntry α) :
    Except (ProblemError α) Unit → JacobianWriter α → Prop where
  | outside (place : e.inBounds w.measurements w.states = false) :
      AddsTo w e (.error (.outOfBounds e.row e.col w.measurements w.states)) w
  | full (place : e.inBounds w.measurements w.states = true) (noRoom : w.capacity ≤ w.size) :
      AddsTo w e (.error (.capacityExceeded w.capacity)) w
  | taken (place : e.inBounds w.measurements w.states = true) (room : w.size < w.capacity) :
      AddsTo w e (.ok ()) (w.holding [e])

theorem addsTo_add (w : JacobianWriter α) (e : JacobianEntry α) :
    w.AddsTo e (w.add e).value.1 (w.add e).value.2 := by
  unfold add refusal?
  cases hplace : e.inBounds w.measurements w.states with
  | false => exact .outside hplace
  | true =>
      by_cases hroom : w.capacity ≤ w.size
      · simp only [Bool.not_true, Bool.false_eq_true, if_false, hroom, if_true]
        exact .full hplace hroom
      · simp only [Bool.not_true, Bool.false_eq_true, if_false, hroom]
        exact .taken hplace (Nat.not_le.mp hroom)

end JacobianWriter

/-- An entry that is offered, and the writer at that moment. -/
structure Offer (α : Type) where
  writer : JacobianWriter α
  entry : JacobianEntry α

namespace Offer

/-- What the writer answers. -/
def answer (o : Offer α) : Except (ProblemError α) Unit :=
  (o.writer.add o.entry).value.1

/-- The writer after the offer. -/
def left (o : Offer α) : JacobianWriter α :=
  (o.writer.add o.entry).value.2

/-- The entry, if it is taken. -/
def taken (o : Offer α) : List (JacobianEntry α) :=
  if o.answer.isOk then [o.entry] else []

theorem addsTo (o : Offer α) : o.writer.AddsTo o.entry o.answer o.left :=
  o.writer.addsTo_add o.entry

/-- An offer adds to the writer what is taken of it. -/
theorem left_eq (o : Offer α) : o.left = o.writer.holding o.taken := by
  have h := o.addsTo
  unfold taken
  generalize o.answer = answer, o.left = left at h ⊢
  cases h with
  | outside => exact (JacobianWriter.holding_nil _).symm
  | full => exact (JacobianWriter.holding_nil _).symm
  | taken => rfl

/-- An entry is taken if it lies in the grid and there is room for it. -/
theorem taken_eq (o : Offer α) :
    o.taken = ([o.entry].filter fun e => e.inBounds o.writer.measurements o.writer.states).take
      (o.writer.capacity - o.writer.size) := by
  have h := o.addsTo
  unfold taken
  generalize o.answer = answer, o.left = left at h ⊢
  cases h with
  | outside place => simp [place, Except.isOk, Except.toBool]
  | full place noRoom => simp [place, Except.isOk, Except.toBool, Nat.sub_eq_zero_of_le noRoom]
  | taken place room =>
      obtain ⟨rest, hrest⟩ : ∃ rest, o.writer.capacity - o.writer.size = rest + 1 :=
        Nat.exists_eq_succ_of_ne_zero (Nat.sub_ne_zero_of_lt room)
      simp [place, Except.isOk, Except.toBool, hrest]

end Offer

/-- The entries among some offers that are taken. -/
def takenOf (offers : List (Offer α)) : List (JacobianEntry α) :=
  offers.flatMap Offer.taken

@[simp] theorem takenOf_nil : takenOf ([] : List (Offer α)) = [] := rfl

@[simp] theorem takenOf_cons (o : Offer α) (offers : List (Offer α)) :
    takenOf (o :: offers) = o.taken ++ takenOf offers := rfl

/-! ### A callback with a writer -/

namespace Writing

/-- What a callback offers to a writer, one entry after another. What it offers next may depend on the
answers so far. -/
def offers : Writing α β → JacobianWriter α → List (Offer α)
  | .done _, _ => []
  | .add entry next, w =>
      ⟨w, entry⟩ :: (next (w.add entry).value.1).offers (w.add entry).value.2

/-- In the end a writer has what it had and what was taken. -/
theorem run_eq (program : Writing α β) (w : JacobianWriter α) :
    (program.run w).value.2 = w.holding (takenOf (program.offers w)) := by
  induction program generalizing w with
  | done result => exact w.holding_nil.symm
  | add entry next ih =>
      have hleft : (w.add entry).value.2 = w.holding (Offer.taken ⟨w, entry⟩) :=
        Offer.left_eq ⟨w, entry⟩
      rw [offers, takenOf_cons, JacobianWriter.holding_append, ← hleft]
      exact ih _ _

/-- When an entry is offered, the writer has what it had and what was taken before. -/
theorem writer_of_offers (program : Writing α β) {w : JacobianWriter α} {before after : List (Offer α)}
    {o : Offer α} (h : program.offers w = before ++ o :: after) :
    o.writer = w.holding (takenOf before) := by
  induction program generalizing w before with
  | done result => simp [offers] at h
  | add entry next ih =>
      have hleft : (w.add entry).value.2 = w.holding (Offer.taken ⟨w, entry⟩) :=
        Offer.left_eq ⟨w, entry⟩
      rw [offers] at h
      cases before with
      | nil =>
          cases h
          exact w.holding_nil.symm
      | cons first before =>
          obtain ⟨rfl, hrest⟩ := List.cons.inj h
          rw [takenOf_cons, JacobianWriter.holding_append, ← hleft]
          exact ih _ hrest

/-- What is taken are the first entries that lie in the grid, as many as there is room for. -/
theorem takenOf_offers (program : Writing α β) (w : JacobianWriter α) :
    takenOf (program.offers w) =
      (((program.offers w).map Offer.entry).filter fun e => e.inBounds w.measurements w.states).take
        (w.capacity - w.size) := by
  induction program generalizing w with
  | done result => simp [offers]
  | add entry next ih =>
      let o : Offer α := ⟨w, entry⟩
      have hleft : (w.add entry).value.2 = w.holding o.taken := o.left_eq
      have hlength : o.taken.length =
          min (w.capacity - w.size)
            ([entry].filter fun e => e.inBounds w.measurements w.states).length := by
        rw [o.taken_eq, List.length_take]
      rw [offers, takenOf_cons, ih, hleft, JacobianWriter.size_holding, List.map_cons,
        ← List.singleton_append, List.filter_append, List.take_append]
      refine congrArg₂ (· ++ ·) o.taken_eq ?_
      have hroom : w.capacity - (w.size + o.taken.length) = w.capacity - w.size -
          ([entry].filter fun e => e.inBounds w.measurements w.states).length := by
        omega
      exact congrArg (List.take · _) hroom

/-- From an empty writer, what is taken are the first entries that lie in the grid, up to the
capacity. -/
theorem takenOf_offers_new (program : Writing α β) (measurements states capacity : Nat) :
    takenOf (program.offers (.new measurements states capacity)) =
      (((program.offers (.new measurements states capacity)).map Offer.entry).filter
        fun e => e.inBounds measurements states).take capacity :=
  program.takenOf_offers _

/-- A writer that was empty has in the end what was taken. -/
theorem entries_run_new (program : Writing α β) (measurements states capacity : Nat) :
    (program.run (.new measurements states capacity)).value.2.entries.toList =
      takenOf (program.offers (.new measurements states capacity)) := by
  rw [run_eq, JacobianWriter.toList_holding]
  exact List.nil_append _

end Writing

/-- How an entry is answered that is offered to a writer after some entries have been taken: refused for
its place exactly if it lies outside the grid, otherwise for lack of room exactly if as many entries have
been taken as there may be, and a refusal changes nothing. -/
structure Offer.Answered (measurements states capacity : Nat) (before : List (JacobianEntry α))
    (o : Offer α) : Prop where
  writer : o.writer = { measurements, states, capacity, entries := before.toArray }
  outside : o.answer = .error (.outOfBounds o.entry.row o.entry.col measurements states) ↔
    ¬ (o.entry.row < measurements ∧ o.entry.col < states)
  full : o.answer = .error (.capacityExceeded capacity) ↔
    (o.entry.row < measurements ∧ o.entry.col < states) ∧ before.length = capacity
  taken : o.answer = .ok () ↔
    (o.entry.row < measurements ∧ o.entry.col < states) ∧ before.length < capacity
  unchanged : ∀ error, o.answer = .error error → o.left = o.writer

/-- Every entry that a callback offers to a new writer is answered that way. -/
theorem Writing.answered (program : Writing α β) {measurements states capacity : Nat}
    {before after : List (Offer α)} {o : Offer α}
    (h : program.offers (.new measurements states capacity) = before ++ o :: after) :
    o.Answered measurements states capacity (takenOf before) := by
  have hwriter : o.writer =
      { measurements, states, capacity, entries := (takenOf before).toArray } := by
    rw [program.writer_of_offers h]
    simp [JacobianWriter.holding, JacobianWriter.new]
  have hlength : (takenOf before).length ≤ capacity := by
    have htaken := congrArg List.length (program.takenOf_offers_new measurements states capacity)
    rw [h, List.length_take] at htaken
    simp only [takenOf, List.flatMap_append, List.length_append] at htaken ⊢
    omega
  have hplace : o.entry.inBounds measurements states = true ↔
      o.entry.row < measurements ∧ o.entry.col < states := by
    simp [JacobianEntry.inBounds]
  have hsize : o.writer.size = (takenOf before).length := by
    rw [hwriter]
    simp [JacobianWriter.size]
  have hcome := o.addsTo
  generalize hanswer : o.answer = answer, hleft : o.left = left at hcome
  cases hcome with
  | outside place =>
      rw [hwriter] at place hanswer
      have hout : ¬ (o.entry.row < measurements ∧ o.entry.col < states) := fun h => by
        rw [hplace.mpr h] at place
        cases place
      exact ⟨hwriter, by simp [hanswer, hout], by simp [hanswer, hout], by simp [hanswer, hout],
        fun _ _ => hleft⟩
  | full place noRoom =>
      rw [hsize, hwriter] at noRoom
      rw [hwriter] at place hanswer
      have hin := hplace.mp place
      have hfull : (takenOf before).length = capacity := Nat.le_antisymm hlength noRoom
      exact ⟨hwriter, by simp [hanswer, hin], by simp [hanswer, hin, hfull],
        by simp [hanswer, hfull], fun _ _ => hleft⟩
  | taken place room =>
      rw [hsize, hwriter] at room
      rw [hwriter] at place
      have hin := hplace.mp place
      have hroom : (takenOf before).length < capacity := room
      exact ⟨hwriter, by simp [hanswer, hin], by simp [hanswer, Nat.ne_of_lt hroom],
        by simp [hanswer, hin, hroom], fun _ h => by simp [hanswer] at h⟩

end TrustRegion
