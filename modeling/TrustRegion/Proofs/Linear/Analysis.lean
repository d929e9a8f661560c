/-
Module: TrustRegion.Proofs.Linear.Analysis
Purpose: When an analysis that was kept serves as well as a new one. It is found by the pattern of the
  Jacobian alone, and it is the one for this pattern and for some number of states. If that is the number
  of states of the Jacobian, the request and all questions after it are answered as by a new solver. If
  not, the request breaks off. It never comes to that exactly if no Jacobian is requested right after one of
  another number of states with the same pattern.
Main exports: CholeskySolver.AnalysedAfresh, CholeskySolver.Call.requested?,
  CholeskySolver.AnalysedAfresh.transcript_eq, CholeskySolver.alwaysAfresh_iff,
  CholeskySolver.analysis_kept_unless_resized
-/
import TrustRegion.Proofs.Linear.Pattern
import TrustRegion.Proofs.Linear.Transcript

namespace TrustRegion

open StoredMatrix

namespace CholeskySolver

variable {α : Type} [Scalar α] {s t s' : CholeskySolver α} {j : Jacobian α}
  {key : FactorizationKey α} {lambda : α} {call : Call α} {calls : List (Call α)}

/-! ### What is kept -/

/-- A request finds the analysis that a new solver would make. -/
def AnalysedAfresh (s : CholeskySolver α) (j : Jacobian α) (lambda : α) : Prop :=
  s.analysis j lambda = Symbolic.ofNormal (normal j.stored lambda)

theorem analysedAfresh_new (storage : Storage) (j : Jacobian α) (lambda : α) :
    (new storage).AnalysedAfresh j lambda :=
  analysis_of_not_kept (fun _ h => by cases h) lambda

/-- What a solver keeps is the analysis for the pattern it is kept under and some number of states. -/
def KeepsAnalysis (s : CholeskySolver α) : Prop :=
  ∀ pattern symbolic, s.symbolic = some (pattern, symbolic) →
    ∃ states, symbolic = Symbolic.ofPattern states pattern

/-- Every analysis that is found is that for the pattern of the Jacobian and some number of states. -/
theorem KeepsAnalysis.analysis_eq (h : s.KeepsAnalysis) (j : Jacobian α) (lambda : α) :
    ∃ states, s.analysis j lambda = Symbolic.ofPattern states (positions j.stored) := by
  by_cases hkept : ∃ symbolic, s.symbolic = some (positions j.stored, symbolic)
  · obtain ⟨symbolic, hsymbolic⟩ := hkept
    rw [analysis_of_kept hsymbolic]
    exact h _ _ hsymbolic
  · refine ⟨j.stored.cols, ?_⟩
    rw [← Symbolic.ofNormal_normal j.stored lambda]
    exact analysis_of_not_kept (not_exists.mp hkept) lambda

/-- So it is the one a new solver would make exactly if it is of the right size. -/
theorem KeepsAnalysis.analysedAfresh_iff (h : s.KeepsAnalysis) (j : Jacobian α) (lambda : α) :
    s.AnalysedAfresh j lambda ↔ (s.analysis j lambda).states = j.stored.cols := by
  obtain ⟨states, hanalysis⟩ := h.analysis_eq j lambda
  unfold AnalysedAfresh
  rw [Symbolic.ofNormal_normal, hanalysis]
  constructor
  · intro hsame
    rw [hsame, Symbolic.states_ofPattern]
  · intro hstates
    rw [← hstates, Symbolic.states_ofPattern]

/-! ### What calls leave of it -/

/-- The Jacobian that a call has a sparse solver analyse, with its key. -/
def Call.requested? : Call α → Option (Jacobian α × FactorizationKey α)
  | .factorize j key => if j.storage = .sparse then some (j, key) else none
  | _ => none

/-- A request for a sparse Jacobian leaves the analysis it was factored with under its pattern, also if
it does not succeed. Any other leaves what there was. -/
theorem FactorizesTo.symbolic_eq {answer : Except (LinearError α) Unit}
    (h : s.FactorizesTo j key answer s') (sparse : s.storage = .sparse) :
    s'.storage = .sparse ∧ s'.symbolic =
      if j.storage = .sparse then some (positions j.stored, s.analysis j key.lambda)
      else s.symbolic := by
  have hprepared : (s.prepared j key.lambda).symbolic =
      some (positions j.stored, s.analysis j key.lambda) := by
    unfold prepared
    rw [sparse]
  have hstorage : (s.prepared j key.lambda).storage = .sparse :=
    (storage_prepared s j key.lambda).trans sparse
  cases h with
  | mismatched kind =>
      rw [sparse] at kind
      rw [if_neg kind]
      exact ⟨sparse, rfl⟩
  | misanalysed kind size | refused kind size made | factored kind size made =>
      rw [if_pos (kind.trans sparse)]
      exact ⟨hstorage, hprepared⟩

/-- What is kept after a call: the analysis that was requested, or what there was. -/
theorem symbolic_afterCall (sparse : s.storage = .sparse) (call : Call α) :
    (s.afterCall call).storage = .sparse ∧
      (s.afterCall call).symbolic =
        (call.requested?.map fun r => (positions r.1.stored, s.analysis r.1 r.2.lambda)).or
          s.symbolic := by
  have hquestion (question : call.isQuestion = true) : (s.afterCall call).storage = .sparse ∧
      (s.afterCall call).symbolic = s.symbolic := by
    rcases s.afterCall_question question with hsame | hcovariance
    · rw [hsame]
      exact ⟨sparse, rfl⟩
    · obtain ⟨inverse, hframe⟩ := s.covariance_frame
      rw [hcovariance, hframe]
      exact ⟨sparse, rfl⟩
  cases call with
  | factorize j key =>
      obtain ⟨hstorage, hsymbolic⟩ := (s.factorizesTo j key).symbolic_eq sparse
      refine ⟨hstorage, hsymbolic.trans ?_⟩
      by_cases hkind : j.storage = .sparse
      · simp only [Call.requested?, hkind, if_true]
        rfl
      · simp only [Call.requested?, hkind, if_false]
        rfl
  | invalidate => exact ⟨sparse, rfl⟩
  | _ => exact hquestion rfl

/-- After any calls a sparse solver keeps at most an analysis for the pattern it is kept under. -/
theorem keepsAnalysis_after (calls : List (Call α)) :
    (after .sparse calls).storage = .sparse ∧ (after .sparse calls).KeepsAnalysis := by
  induction calls using List.reverseRecOn with
  | nil => exact ⟨rfl, fun _ _ h => by cases h⟩
  | append_singleton calls call ih =>
      obtain ⟨hsparse, hkeeps⟩ := ih
      obtain ⟨hstorage, hsymbolic⟩ := symbolic_afterCall hsparse call
      rw [after_concat]
      refine ⟨hstorage, ?_⟩
      intro pattern symbolic hkept
      rw [hsymbolic] at hkept
      cases hrequested : call.requested? with
      | none =>
          rw [hrequested] at hkept
          exact hkeeps pattern symbolic hkept
      | some request =>
          rw [hrequested] at hkept
          cases hkept
          exact hkeeps.analysis_eq request.1 request.2.lambda

/-! ### Answering as a new solver -/

/-- Two solvers of a kind that find the same analysis end a request alike. -/
theorem FactorizesTo.alike {answer : Except (LinearError α) Unit}
    (h : s.FactorizesTo j key answer s') (storage : s.storage = t.storage)
    (analysis : s.analysis j key.lambda = t.analysis j key.lambda) :
    ∃ t', t.FactorizesTo j key answer t' ∧ s'.Alike t' := by
  have hblocks : s.inBlocks j key.lambda = t.inBlocks j key.lambda := by
    unfold inBlocks
    rw [storage, analysis]
  have hanalysed : s.Analysed j key.lambda ↔ t.Analysed j key.lambda := by
    unfold Analysed
    rw [storage, analysis]
  have hprepared : (s.prepared j key.lambda).Alike (t.prepared j key.lambda) := by
    unfold prepared
    rw [storage]
    cases t.storage with
    | dense => exact ⟨storage, rfl, rfl, rfl, fun hnone => absurd rfl hnone⟩
    | sparse => exact ⟨storage, rfl, rfl, rfl, fun hnone => absurd rfl hnone⟩
  cases h with
  | mismatched kind =>
      rw [storage] at kind ⊢
      exact ⟨_, .mismatched kind, storage, rfl, rfl, rfl, fun hnone => absurd rfl hnone⟩
  | misanalysed kind size =>
      rw [hanalysed] at size
      rw [analysis]
      exact ⟨_, .misanalysed (kind.trans storage) size, hprepared⟩
  | refused kind size made =>
      rw [hblocks] at made
      rw [storage]
      exact ⟨_, .refused (kind.trans storage) (hanalysed.mp size) made, hprepared⟩
  | factored kind size made =>
      rw [hblocks] at made
      exact ⟨_, .factored (kind.trans storage) (hanalysed.mp size) made,
        hprepared.storage, rfl, rfl, hprepared.inverse, fun _ => rfl⟩

/-- A request that finds a new analysis, and the questions after it, are answered as by a new solver. -/
theorem AnalysedAfresh.transcript_eq (h : s.AnalysedAfresh j key.lambda) {questions : List (Call α)}
    (asked : ∀ question ∈ questions, question.isQuestion = true) :
    s.transcript (.factorize j key :: questions) =
      (new s.storage).transcript (.factorize j key :: questions) := by
  have hanalysis := h.trans (analysedAfresh_new s.storage j key.lambda).symm
  obtain ⟨t, ht, halike⟩ := (s.factorizesTo j key).alike (t := new s.storage) rfl hanalysis
  rw [transcript_factorize, transcript_factorize, ht.value_eq, halike.key, halike.transcript_eq asked]

/-! ### Sequences of requests -/

/-- Of two Jacobians requested one after the other the second is no other size if it has the pattern of
the first. -/
def KeepsSize (r r' : Jacobian α × FactorizationKey α) : Prop :=
  positions r.1.stored = positions r'.1.stored → r.1.stored.cols = r'.1.stored.cols

/-- Every request for a sparse Jacobian among some calls to a new solver finds the analysis that a new
solver would make. -/
def AlwaysAfresh (calls : List (Call α)) : Prop :=
  ∀ before j key rest, calls = before ++ .factorize j key :: rest → j.storage = .sparse →
    (after .sparse before).AnalysedAfresh j key.lambda

omit [Scalar α] in
theorem Call.requested?_eq_some_iff {r : Jacobian α × FactorizationKey α} :
    call.requested? = some r ↔ call = .factorize r.1 r.2 ∧ r.1.storage = .sparse := by
  obtain ⟨j, key⟩ := r
  cases call with
  | factorize j' key' =>
      simp only [requested?, Option.ite_none_right_eq_some, Option.some.injEq, Prod.mk.injEq,
        factorize.injEq]
      constructor
      · rintro ⟨hkind, rfl, rfl⟩
        exact ⟨⟨rfl, rfl⟩, hkind⟩
      · rintro ⟨⟨rfl, rfl⟩, hkind⟩
        exact ⟨hkind, rfl, rfl⟩
  | _ => simp [requested?]

/-- One more call finds a new analysis, if it requests one. -/
theorem alwaysAfresh_concat (calls : List (Call α)) (call : Call α) :
    AlwaysAfresh (calls ++ [call]) ↔ AlwaysAfresh calls ∧
      ∀ r, call.requested? = some r → (after .sparse calls).AnalysedAfresh r.1 r.2.lambda := by
  constructor
  · intro h
    constructor
    · rintro before j key rest rfl kind
      exact h before j key (rest ++ [call]) (by rw [List.append_assoc, List.cons_append]) kind
    · rintro r hrequested
      obtain ⟨rfl, kind⟩ := Call.requested?_eq_some_iff.mp hrequested
      exact h calls r.1 r.2 [] rfl kind
  · rintro ⟨h, hlast⟩ before j key rest hcalls kind
    rcases List.eq_nil_or_concat rest with rfl | ⟨rest, last, rfl⟩
    · obtain ⟨rfl, hcall⟩ := List.append_inj' hcalls rfl
      exact hlast (j, key) (Call.requested?_eq_some_iff.mpr ⟨List.head_eq_of_cons_eq hcall, kind⟩)
    · rw [List.concat_eq_append, ← List.cons_append, ← List.append_assoc] at hcalls
      exact h before j key rest (List.append_inj' hcalls rfl).1 kind

/-- What the last request of a sequence leaves, if all find a new analysis. -/
theorem AlwaysAfresh.symbolic_eq (h : AlwaysAfresh calls) :
    (after .sparse calls).symbolic = (calls.filterMap Call.requested?).getLast?.map fun r =>
      (positions r.1.stored, Symbolic.ofPattern r.1.stored.cols (positions r.1.stored)) := by
  induction calls using List.reverseRecOn with
  | nil => rfl
  | append_singleton calls call ih =>
      obtain ⟨hbefore, hlast⟩ := (alwaysAfresh_concat calls call).mp h
      have hafter := (symbolic_afterCall (keepsAnalysis_after calls).1 call).2
      rw [after_concat, hafter, List.filterMap_append]
      cases hrequested : call.requested? with
      | none =>
          rw [List.filterMap_cons_none hrequested, List.filterMap_nil, List.append_nil]
          exact ih hbefore
      | some r =>
          rw [List.filterMap_cons_some hrequested, List.filterMap_nil, List.getLast?_concat]
          have hfresh : _ = _ := hlast r hrequested
          simp only [Option.map_some, Option.some_or, hfresh, Symbolic.ofNormal_normal]

/-- After such a sequence a request finds a new analysis exactly if it keeps the size of the last. -/
theorem AlwaysAfresh.analysedAfresh_iff (h : AlwaysAfresh calls)
    (r : Jacobian α × FactorizationKey α) :
    (after .sparse calls).AnalysedAfresh r.1 r.2.lambda ↔
      ∀ last ∈ (calls.filterMap Call.requested?).getLast?, KeepsSize last r := by
  have hkept := h.symbolic_eq
  cases hlast : (calls.filterMap Call.requested?).getLast? with
  | none =>
      rw [hlast] at hkept
      refine iff_of_true (analysis_of_not_kept (fun _ hsome => ?_) _) fun _ hnone => by cases hnone
      rw [hkept] at hsome
      cases hsome
  | some last =>
      rw [hlast, Option.map_some] at hkept
      constructor
      · intro hfresh other hmem hpattern
        cases hmem
        have hanalysis := analysis_of_kept (j := r.1) (by rw [← hpattern]; exact hkept) r.2.lambda
        have hsame := hanalysis.symm.trans hfresh
        rw [Symbolic.ofNormal_normal] at hsame
        exact congrArg Symbolic.states hsame
      · intro hkeeps
        by_cases hpattern : positions last.1.stored = positions r.1.stored
        · have hsize := hkeeps last rfl hpattern
          rw [hpattern, hsize] at hkept
          exact (analysis_of_kept hkept _).trans (Symbolic.ofNormal_normal _ _).symm
        · apply analysis_of_not_kept
          intro symbolic hsome
          rw [hkept] at hsome
          exact hpattern (congrArg Prod.fst (Option.some.inj hsome))

/-- All requests of a sequence find a new analysis exactly if each one keeps the size of the one
before. -/
theorem alwaysAfresh_iff (calls : List (Call α)) :
    AlwaysAfresh calls ↔ (calls.filterMap Call.requested?).IsChain KeepsSize := by
  induction calls using List.reverseRecOn with
  | nil =>
      refine iff_of_true ?_ .nil
      intro before j key rest hcalls
      exact absurd hcalls.symm (List.append_ne_nil_of_right_ne_nil before (List.cons_ne_nil _ rest))
  | append_singleton calls call ih =>
      rw [alwaysAfresh_concat, List.filterMap_append, List.isChain_append, ← ih]
      apply and_congr_right
      intro hbefore
      cases hrequested : call.requested? with
      | none =>
          rw [List.filterMap_cons_none hrequested, List.filterMap_nil]
          exact iff_of_true (fun r hr => by cases hr) ⟨.nil, fun _ _ _ hnone => by cases hnone⟩
      | some r =>
          rw [List.filterMap_cons_some hrequested, List.filterMap_nil]
          have hone := hbefore.analysedAfresh_iff r
          constructor
          · intro hfresh
            refine ⟨.singleton r, ?_⟩
            intro last hlast next hnext
            cases hnext
            exact hone.mp (hfresh r rfl) last hlast
          · rintro ⟨-, hkeeps⟩ next hnext
            cases hnext
            exact hone.mpr fun last hlast => hkeeps last hlast r rfl

/-- When an analysis that was kept serves as well as a new one. The analysis of a normal matrix is that
for the number of states and the pattern of the Jacobian. After any calls a request for a sparse Jacobian
finds the analysis that a new solver would make exactly if what is found is for as many states. Then the
request and all questions after it are answered as by a new solver, and otherwise it breaks off and
nothing is held. All requests among the calls find a new analysis exactly if none is for a Jacobian with the pattern
of the one before and another number of states. -/
theorem analysis_kept_unless_resized (calls : List (Call α)) :
    (∀ (j : SparseJacobian α) (lambda : α), Symbolic.ofNormal (normal j.matrix lambda) =
      Symbolic.ofPattern j.matrix.cols (positions j.matrix)) ∧
    (∀ (j : SparseJacobian α) (key : FactorizationKey α),
      ((after .sparse calls).AnalysedAfresh (.sparse j) key.lambda ↔
        ((after .sparse calls).analysis (.sparse j) key.lambda).states = j.matrix.cols) ∧
      ((after .sparse calls).AnalysedAfresh (.sparse j) key.lambda →
        ∀ questions : List (Call α), (∀ question ∈ questions, question.isQuestion = true) →
          (after .sparse calls).transcript (.factorize (.sparse j) key :: questions) =
            (new .sparse).transcript (.factorize (.sparse j) key :: questions)) ∧
      (¬ (after .sparse calls).AnalysedAfresh (.sparse j) key.lambda →
        (after .sparse calls).transcript [.factorize (.sparse j) key] =
          [(.requested (.error (.analysisUnfit
            ((after .sparse calls).analysis (.sparse j) key.lambda).states j.matrix.cols)), none)])) ∧
    (AlwaysAfresh calls ↔ (calls.filterMap Call.requested?).IsChain KeepsSize) := by
  obtain ⟨hsparse, hkeeps⟩ := keepsAnalysis_after calls
  refine ⟨fun j lambda => Symbolic.ofNormal_normal j.matrix lambda, ?_, alwaysAfresh_iff calls⟩
  intro j key
  have hiff := hkeeps.analysedAfresh_iff (.sparse j) key.lambda
  refine ⟨hiff, ?_, ?_⟩
  · intro hfresh questions asked
    rw [hfresh.transcript_eq asked, hsparse]
  · intro hstale
    rw [hiff] at hstale
    have hends : (after .sparse calls).FactorizesTo (.sparse j) key _ _ :=
      .misanalysed hsparse.symm fun hsize => hstale (hsize hsparse)
    rw [transcript_factorize, hends.value_eq, ← invalidate_prepared]
    rfl

/-- A single measurement of the first of some states. -/
noncomputable def firstOnly (states : ℕ) : SparseJacobian ℝ :=
  { measurements := 1
    states
    entries := [⟨0, 0, 1⟩]
    matrix := SparseJacobian.assemble 1 states [⟨0, 0, 1⟩] }

/-- The number of states is no part of the pattern: what a request for a single state leaves is kept
under the pattern that two states have as well. -/
theorem symbolic_after_firstOnly (key : FactorizationKey ℝ) :
    (after .sparse [.factorize (.sparse (firstOnly 1)) key]).symbolic =
      some (positions (firstOnly 2).matrix,
        Symbolic.ofNormal (normal (firstOnly 1).matrix key.lambda)) := by
  have hpattern : positions (firstOnly 1).matrix = positions (firstOnly 2).matrix := rfl
  have hsymbolic := (symbolic_afterCall (s := new .sparse) rfl
    (.factorize (.sparse (firstOnly 1)) key)).2
  exact hsymbolic.trans (congrArg₂ (fun pattern symbolic => some (pattern, symbolic)) hpattern
    (analysedAfresh_new .sparse (.sparse (firstOnly 1)) key.lambda))

/-- A new solver factors the normal matrix for two states with a damping of one. After that for one
state it finds the analysis of a single state and breaks off. -/
theorem analysis_resized_firstOnly :
    (new .sparse).transcript [.factorize (.sparse (firstOnly 2)) ⟨1, 1⟩] =
      [(.requested (.ok ()), some ⟨1, 1⟩)] ∧
    (after .sparse [.factorize (.sparse (firstOnly 1)) ⟨0, 1⟩]).transcript
        [.factorize (.sparse (firstOnly 2)) ⟨1, 1⟩] =
      [(.requested (.error (.analysisUnfit 1 2)), none)] := by
  constructor
  · have htakes := takes_new (Jacobian.sparse (firstOnly 2))
    obtain ⟨s', hmade⟩ := (htakes.exists_factorize_iff ⟨1, 1⟩).mpr
      (Jacobian.positiveDefinite_gram_of_pos _ one_pos)
    have hkey : s'.key = some ⟨1, 1⟩ := (factorizesTo_of_value hmade).serves.key
    have hvalue : (LinearSolver.factorize (new .sparse) (.sparse (firstOnly 2)) ⟨1, 1⟩).value =
        (.ok (), s') := hmade
    rw [transcript_factorize, hvalue, hkey]
    rfl
  · obtain ⟨-, hrequest, -⟩ :=
      analysis_kept_unless_resized [.factorize (.sparse (firstOnly 1)) ⟨0, (1 : ℝ)⟩]
    obtain ⟨hiff, -, hstale⟩ := hrequest (firstOnly 2) ⟨1, 1⟩
    have hanalysis : _ = Symbolic.ofNormal (normal (firstOnly 1).matrix 1) :=
      analysis_of_kept (j := .sparse (firstOnly 2)) (symbolic_after_firstOnly ⟨0, 1⟩) 1
    rw [hanalysis] at hiff hstale
    exact hstale fun hfresh => absurd (hiff.mp hfresh) (by decide)

end CholeskySolver

end TrustRegion
