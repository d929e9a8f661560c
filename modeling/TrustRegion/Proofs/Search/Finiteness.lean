/-
Module: TrustRegion.Proofs.Search.Finiteness
Purpose: Which points a search can hold. A candidate out of range has the lowest quality there is,
  so it is turned away by every threshold above that; only a threshold that is itself the lowest
  value lets it in, and then only its cost counts.
Main exports: Linearization.InRange, Search.Round.accepted_iff_of_not_inRange, Problem.Offered,
  Problem.InRangeThroughout, Problem.Run.inRange_unless_offered
-/
import TrustRegion.Proofs.Search.Descent

namespace TrustRegion

/-- The cost and every component of the gradient are in range. -/
def Linearization.InRange {α : Type} [Scalar α] (q : Linearization α) : Prop :=
  Scalar.isFinite q.cost = true ∧
    ∀ i, i < q.gradient.size → Scalar.isFinite (q.gradient.entry i) = true

/-- The test of a point looks at the largest component of its gradient only, and that is enough. -/
theorem Linearization.isFinite_iff {α : Type} [Scalar α] [LawfulScalar α] (q : Linearization α) :
    q.isFinite = true ↔ q.InRange := by
  unfold isFinite InRange gradientMaxAbs
  rw [Bool.and_eq_true, Vec.isFinite_maxAbs_iff]

namespace Search.Round

variable {α β : Type} [Scalar α] [LawfulScalar α] {settings : Settings α} {r : Search.Round α β}

/-- A step to a candidate out of range is taken exactly if the threshold is at most the lowest
quality and the cost improves. -/
theorem accepted_iff_of_not_inRange (out : ¬ r.candidate.InRange) :
    r.accepted settings = true ↔ settings.rejectBelow ≤ Scalar.lowest ∧ 0 < r.actual := by
  have hfinite : r.candidate.isFinite = false := by
    rw [← Bool.not_eq_true, r.candidate.isFinite_iff]
    exact out
  simp [accepted, quality, Settings.accepts, stepQuality, hfinite]

/-- From a point in range, a round ends out of range exactly if it takes a step there. -/
theorem inRange_endpoint_iff (held : r.workspace.point.InRange) :
    (r.endpoint settings).InRange ↔
      ¬ (settings.rejectBelow ≤ Scalar.lowest ∧ ¬ r.candidate.InRange ∧ 0 < r.actual) := by
  unfold endpoint
  by_cases hin : r.candidate.InRange
  · have hend : (if r.accepted settings = true then r.candidate
        else r.workspace.point).InRange := by
      split
      · exact hin
      · exact held
    simp only [hend, hin, not_true_eq_false, false_and, and_false, not_false_eq_true]
  · have haccepted : r.accepted settings = true ↔ _ := accepted_iff_of_not_inRange hin
    cases hacc : r.accepted settings with
    | true =>
        have hboth := haccepted.mp hacc
        simp only [if_true, hin, hboth, not_false_eq_true, and_self, not_true_eq_false]
    | false =>
        have hnot : ¬ (settings.rejectBelow ≤ Scalar.lowest ∧ 0 < r.actual) := by
          rw [← haccepted, hacc]
          exact Bool.false_ne_true
        simp only [Bool.false_eq_true, if_false, held, hin, not_false_eq_true, true_and, hnot]

end Search.Round

/-- The number of the latest accepted attempt is at most the number of attempts. -/
theorem latestAccepted_le {α : Type} (history : List (Attempt α)) :
    latestAccepted history ≤ history.length := by
  induction history with
  | nil => exact Nat.le_refl 0
  | cons a earlier ih =>
      unfold latestAccepted
      split
      · exact Nat.le_refl _
      · exact Nat.le_succ_of_le ih

namespace Problem

variable {α : Type}

/-- The point that is held after the first `k` attempts of a history in order. -/
def heldAfter (points : List (Linearization α)) (history : List (Attempt α)) (k : Nat) :
    Option (Linearization α) :=
  points[lastAccepted (history.take k)]?

variable [Scalar α]

/-- Every point that is held, before each attempt and after the last, is in range. -/
def InRangeThroughout (points : List (Linearization α)) (history : List (Attempt α)) : Prop :=
  ∀ k, k ≤ history.length → ∃ q, heldAfter points history k = some q ∧ q.InRange

/-- The attempt after the first `k` of a history in order led out of range, to a lower cost. -/
def Offered (points : List (Linearization α)) (initialCost : α) (history : List (Attempt α))
    (k : Nat) : Prop :=
  k < history.length ∧ ∃ q, points[k + 1]? = some q ∧ ¬ q.InRange ∧
    0 < lastCost initialCost (history.take k) - q.cost

section OneMore

variable {points : List (Linearization α)} {history : List (Attempt α)}
  {candidate : Linearization α} {a : Attempt α} {initialCost : α} {k : Nat}

omit [Scalar α] in
/-- One more attempt does not change what was held before. -/
theorem heldAfter_concat (length : points.length = history.length + 1) (h : k ≤ history.length) :
    heldAfter (points ++ [candidate]) (history ++ [a]) k = heldAfter points history k := by
  unfold heldAfter
  rw [List.take_append_of_le_length h]
  have hle : lastAccepted (history.take k) ≤ history.length := by
    apply Nat.le_trans (latestAccepted_le _)
    rw [List.length_reverse]
    exact List.length_take_le' k history
  exact List.getElem?_append_left (by omega)

/-- One more attempt adds the point where it ends to those that are held. -/
theorem inRangeThroughout_concat (length : points.length = history.length + 1)
    {endpoint : Linearization α}
    (held : heldAfter (points ++ [candidate]) (history ++ [a]) (history.length + 1) =
      some endpoint) :
    InRangeThroughout (points ++ [candidate]) (history ++ [a]) ↔
      InRangeThroughout points history ∧ endpoint.InRange := by
  have hlength : (history ++ [a]).length = history.length + 1 := by simp
  constructor
  · intro hall
    constructor
    · intro k hk
      obtain ⟨q, hq, hin⟩ := hall k (by omega)
      rw [heldAfter_concat length hk] at hq
      exact ⟨q, hq, hin⟩
    · obtain ⟨q, hq, hin⟩ := hall (history.length + 1) (by omega)
      rw [held] at hq
      cases hq
      exact hin
  · rintro ⟨hall, hend⟩ k hk
    rcases Nat.lt_or_ge history.length k with hlt | hge
    · obtain rfl : k = history.length + 1 := by omega
      exact ⟨endpoint, held, hend⟩
    · rw [heldAfter_concat length hge]
      exact hall k hge

/-- What an attempt was offered is not changed by one more. -/
theorem offered_concat_of_lt (length : points.length = history.length + 1)
    (h : k < history.length) :
    Offered (points ++ [candidate]) initialCost (history ++ [a]) k ↔
      Offered points initialCost history k := by
  have hlt : k < (history ++ [a]).length := by
    rw [List.length_append]
    omega
  unfold Offered
  rw [List.getElem?_append_left (by omega), List.take_append_of_le_length (by omega)]
  simp only [h, hlt, true_and]

/-- The last attempt was offered what it led to. -/
theorem offered_concat_last (length : points.length = history.length + 1) :
    Offered (points ++ [candidate]) initialCost (history ++ [a]) history.length ↔
      ¬ candidate.InRange ∧ 0 < lastCost initialCost history - candidate.cost := by
  have hlt : history.length < (history ++ [a]).length := by simp
  unfold Offered
  rw [← length, List.getElem?_concat_length, List.take_left' rfl]
  simp only [hlt, true_and, Option.some.injEq, exists_eq_left']

/-- One more attempt either was offered something before or is offered it last. -/
theorem exists_offered_concat (length : points.length = history.length + 1) :
    (∃ k, Offered (points ++ [candidate]) initialCost (history ++ [a]) k) ↔
      (∃ k, Offered points initialCost history k) ∨
        (¬ candidate.InRange ∧ 0 < lastCost initialCost history - candidate.cost) := by
  rw [← offered_concat_last (a := a) length]
  constructor
  · rintro ⟨k, h⟩
    have hk : k < (history ++ [a]).length := h.1
    rw [List.length_append, List.length_singleton] at hk
    rcases Nat.lt_succ_iff_lt_or_eq.mp hk with hlt | rfl
    · exact .inl ⟨k, (offered_concat_of_lt length hlt).mp h⟩
    · exact .inr h
  · rintro (⟨k, h⟩ | h)
    · exact ⟨k, (offered_concat_of_lt length h.1).mpr h⟩
    · exact ⟨history.length, h⟩

end OneMore

namespace Run

variable {p : Problem α} {settings : Settings α} {clock : Clock} {state : Vec α}
  {points : List (Linearization α)} {reason : Option StopReason} {s : Search α (CholeskySolver α)}

theorem length_points_reverse (h : p.Run settings clock state points reason s) :
    points.length = s.history.reverse.length + 1 := by
  rw [h.length_points, List.length_reverse]

/-- The point that is held after all attempts is the current one. -/
theorem heldAfter_length (h : p.Run settings clock state points reason s) :
    heldAfter points s.history.reverse s.history.reverse.length = some s.session.point.bare := by
  rw [heldAfter, List.take_length, lastAccepted, List.reverse_reverse, h.current]

variable [LawfulScalar α]

/-- The improvement that a round finds is measured from the cost that was recorded last. -/
theorem actual_eq (h : p.Run settings clock state points reason s)
    {r : Search.Round α (CholeskySolver α)} {reason' : Option StopReason}
    {s' : Search α (CholeskySolver α)} (attempted : s.Attempts clock r reason' s') :
    r.actual = lastCost s.initialCost s.history.reverse - r.candidate.cost := by
  rw [h.descends.2, Search.Round.actual, cost_workspace attempted]

/-- A run holds points in range only, exactly if the threshold for rejection is above the lowest
quality or nothing out of range was offered. -/
theorem inRangeThroughout_iff (h : p.Run settings clock state points reason s) :
    InRangeThroughout points s.history.reverse ↔
      ¬ (settings.rejectBelow ≤ Scalar.lowest ∧
        ∃ k, Offered points s.initialCost s.history.reverse k) := by
  induction h with
  | @opening e e' evaluation point valid built asked first =>
      have hpoint : point.InRange := point.isFinite_iff.mp (of_firstPoint first).2
      constructor
      · rintro - ⟨-, k, hk, -⟩
        exact Nat.not_lt_zero k hk
      · intro _ k hk
        obtain rfl : k = 0 := Nat.le_zero.mp hk
        exact ⟨point, rfl, hpoint⟩
  | @round points s s' r reason before room attempted ih =>
      have hlength := before.length_points_reverse
      have hafter := attempted.after
      obtain ⟨a, ha, -⟩ := hafter.history
      have hpoint : s'.session.point = r.endpoint settings :=
        hafter.point.trans (by rw [before.settings_eq])
      have hheld := (Run.round before room attempted).heldAfter_length
      rw [hpoint, ha, List.reverse_cons, List.length_append, List.length_singleton] at hheld
      rw [hafter.initialCost, ha, List.reverse_cons, inRangeThroughout_concat hlength hheld,
        exists_offered_concat hlength, ← before.actual_eq attempted]
      -- while it begins in range, a round ends there unless it takes what it was offered
      have hstep (hall : InRangeThroughout points s.history.reverse) :
          (r.endpoint settings).InRange ↔ ¬ (settings.rejectBelow ≤ Scalar.lowest ∧
            ¬ r.candidate.InRange ∧ 0 < r.actual) := by
        obtain ⟨q, hq, hin⟩ := hall _ (Nat.le_refl _)
        rw [before.heldAfter_length, ← bare_workspace attempted] at hq
        cases hq
        exact Search.Round.inRange_endpoint_iff hin
      constructor
      · rintro ⟨hall, hend⟩ ⟨hlowest, hoffered | hnew⟩
        · exact ih.mp hall ⟨hlowest, hoffered⟩
        · exact (hstep hall).mp hend ⟨hlowest, hnew⟩
      · intro hnone
        have hall := ih.mpr fun h => hnone ⟨h.1, .inl h.2⟩
        exact ⟨hall, (hstep hall).mpr fun h => hnone ⟨h.1, .inr h.2⟩⟩

/-- An attempt that led out of range was accepted exactly if the threshold for rejection is at most
the lowest quality and the cost was lower. -/
theorem accepted_iff_offered (h : p.Run settings clock state points reason s) {k : Nat}
    {a : Attempt α} {q : Linearization α} (attempt : s.history.reverse[k]? = some a)
    (candidate : points[k + 1]? = some q) (out : ¬ q.InRange) :
    a.accepted = true ↔
      settings.rejectBelow ≤ Scalar.lowest ∧ Offered points s.initialCost s.history.reverse k := by
  induction h with
  | opening _ _ _ _ => cases attempt
  | @round points s s' r reason before room attempted ih =>
      have hlength := before.length_points_reverse
      have hafter := attempted.after
      obtain ⟨b, hb, -, haccepted, -⟩ := hafter.history
      rw [hb, List.reverse_cons] at attempt ⊢
      rw [hafter.initialCost]
      rcases Nat.lt_or_ge k s.history.reverse.length with hlt | hge
      · rw [List.getElem?_append_left hlt] at attempt
        rw [List.getElem?_append_left (by omega)] at candidate
        rw [offered_concat_of_lt hlength hlt]
        exact ih attempt candidate
      · obtain ⟨hk, -⟩ := List.getElem?_eq_some_iff.mp attempt
        rw [List.length_append, List.length_singleton] at hk
        obtain rfl : k = s.history.reverse.length := by omega
        rw [List.getElem?_concat_length] at attempt
        rw [← hlength, List.getElem?_concat_length] at candidate
        cases attempt
        cases candidate
        rw [offered_concat_last hlength, haccepted, before.settings_eq,
          Search.Round.accepted_iff_of_not_inRange out, ← before.actual_eq attempted]
        simp only [out, not_false_eq_true, true_and]

/-- In every run, the points that are held are in range exactly if no attempt that led out of range
to a lower cost met a threshold at most the lowest quality; and an attempt that led out of range was
accepted exactly if it was such an attempt. -/
theorem inRange_unless_offered (h : p.Run settings clock state points reason s) :
    (InRangeThroughout points s.history.reverse ↔
      ¬ (settings.rejectBelow ≤ Scalar.lowest ∧
        ∃ k, Offered points s.initialCost s.history.reverse k)) ∧
    ∀ k a q, s.history.reverse[k]? = some a → points[k + 1]? = some q → ¬ q.InRange →
      (a.accepted = true ↔ settings.rejectBelow ≤ Scalar.lowest ∧
        Offered points s.initialCost s.history.reverse k) :=
  ⟨h.inRangeThroughout_iff, fun _ _ _ => h.accepted_iff_offered⟩

end Run

/-- A residual whose derivative is undefined except at the first state. -/
def derivativeLost : Problem Float :=
  .dense
    (fun calls state _ _ => (.ok ⟨#[state.entry 0]⟩, ⟨#[if calls = 0 then 1.0 else 0.0 / 0.0]⟩)) 1

/-- With negative infinity for a threshold, which is a setting that is not refused, a search ends at
a point that is out of range. -/
theorem exists_run_derivativeLost :
    ∃ points reason s,
      derivativeLost.Run
        { Settings.standard with maxIterations := 1, radius := 1.0, rejectBelow := -(1.0 / 0.0) }
        Clock.stopped ⟨#[2.0]⟩ points reason s ∧
      s.session.point.isFinite = false ∧
      (InRangeThroughout points s.history.reverse ↔
        ¬ (-(1.0 / 0.0) ≤ (Scalar.lowest : Float) ∧
          ∃ k, Offered points s.initialCost s.history.reverse k)) := by
  obtain ⟨⟨outcome, session⟩, h⟩ :
      ∃ result,
        (derivativeLost.solve
          { Settings.standard with maxIterations := 1, radius := 1.0, rejectBelow := -(1.0 / 0.0) }
          Clock.stopped false ⟨#[2.0]⟩).value.answer = .ok result :=
    exists_eq_ok (by decide +kernel)
  have hfinite :
      (match (derivativeLost.solve
          { Settings.standard with maxIterations := 1, radius := 1.0, rejectBelow := -(1.0 / 0.0) }
          Clock.stopped false ⟨#[2.0]⟩).value.answer with
        | .ok (_, session) => session.point.isFinite
        | .error _ => true) = false := by
    decide +kernel
  rw [h] at hfinite
  obtain ⟨points, reason, s, hrun, -, rfl, -⟩ := run_of_solve rfl h
  exact ⟨points, reason, s, hrun, hfinite, (Run.inRange_unless_offered hrun).1⟩

end Problem

end TrustRegion
