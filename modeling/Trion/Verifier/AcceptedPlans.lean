import Trion.Verifier.DocumentChecks

/-!
# What an accepted document plan looks like

The check accepts a plan if the reads as a whole fit the retrieval mode, each read is accepted at
its place in the plan, and a mode that searches first has a search.
-/

namespace Trion.Verifier

open Trion.Python Trion.Thinking

/-! ### One read -/

section Read

variable {rt : DocumentRuntime} {workspaceIds : List ℤ} {retrievalMode : String}
  {positions : List (String × ℕ)} {index : ℕ} {step : PlanStep}

/-- An accepted read: its entry id is none or one of the document, and its source step, if it has
one, is a search before it. -/
structure ReadAccepted (workspaceIds : List ℤ) (retrievalMode : String)
    (positions : List (String × ℕ)) (index : ℕ) (entryId : ℤ) (sourceStep : String) : Prop where
  inScope : 0 < entryId → entryId ∈ workspaceIds
  sourceBefore : sourceStep ≠ "" → ∃ position, positions.lookup sourceStep = some position ∧
    position < index
  searchDriven : retrievalMode ∈ searchFirstModes → sourceStep ≠ ""

lemma checkRead_eq_none_iff :
    checkRead rt workspaceIds retrievalMode positions index step = .ok none ↔
      ∃ entryId, entryIdOf rt step = .ok entryId ∧
        ReadAccepted workspaceIds retrievalMode positions index entryId (sourceStepOf rt step) := by
  unfold checkRead
  cases hentry : entryIdOf rt step with
  | error e => simp [bind, Except.bind]
  | ok entryId =>
    rw [bind_ok]
    dsimp only
    constructor
    · intro h
      refine ⟨entryId, rfl, ?_⟩
      split_ifs at h with hscope hmissing hlate hdirect
      all_goals try cases h
      refine ⟨fun hpos => ?_, fun hsource => ?_, fun hmode hsource => hdirect ⟨hmode, hsource⟩⟩
      · by_contra hnot
        exact hscope ⟨hpos, hnot⟩
      · cases hposition : positions.lookup (sourceStepOf rt step) with
        | none => exact absurd ⟨hsource, hposition⟩ hmissing
        | some position =>
          refine ⟨position, rfl, Nat.not_le.mp fun hle => hlate ⟨hsource, position, ?_, hle⟩⟩
          exact hposition
    · rintro ⟨entryId', heq, haccepted⟩
      cases heq
      have hscope : ¬(0 < entryId ∧ entryId ∉ workspaceIds) := fun h =>
        h.2 (haccepted.inScope h.1)
      have hmissing : ¬(sourceStepOf rt step ≠ "" ∧
          positions.lookup (sourceStepOf rt step) = none) := by
        rintro ⟨hsource, hnone⟩
        obtain ⟨position, hposition, -⟩ := haccepted.sourceBefore hsource
        rw [hnone] at hposition
        cases hposition
      have hlate : ¬(sourceStepOf rt step ≠ "" ∧
          ∃ position ∈ positions.lookup (sourceStepOf rt step), index ≤ position) := by
        rintro ⟨hsource, position, hmem, hle⟩
        obtain ⟨position', hposition, hlt⟩ := haccepted.sourceBefore hsource
        rw [hposition] at hmem
        cases hmem
        omega
      have hdirect : ¬(retrievalMode ∈ searchFirstModes ∧ sourceStepOf rt step = "") := fun h =>
        haccepted.searchDriven h.1 h.2
      rw [if_neg hscope, if_neg hmissing, if_neg hlate, if_neg hdirect]
      rfl

/-- The loop accepts if each read is accepted at its place. -/
lemma checkReads_eq_none_iff {steps : List PlanStep} :
    checkReads rt workspaceIds retrievalMode positions index steps = .ok none ↔
      ∀ p ∈ steps.zipIdx index, isRead p.1 = true →
        checkRead rt workspaceIds retrievalMode positions p.2 p.1 = .ok none := by
  induction steps generalizing index with
  | nil => simp [checkReads]
  | cons step steps ih =>
    rw [checkReads, List.zipIdx_cons, List.forall_mem_cons]
    cases hread : isRead step with
    | false =>
      rw [if_pos (by rfl), ih]
      simp
    | true =>
      rw [if_neg (by simp), ← ih]
      cases hcheck : checkRead rt workspaceIds retrievalMode positions index step with
      | error e => simp [bind, Except.bind]
      | ok result =>
        cases result with
        | none => simp [bind_ok]
        | some result =>
          simp only [bind_ok, true_implies]
          constructor
          · intro h
            cases h
          · intro h
            cases h.1

end Read

/-! ### The plan -/

section Plan

variable {rt : DocumentRuntime} {charCap : ℕ} {userText : String} {plan : ThinkingPlan}
  {ctx : DocumentContext}

/-- The entry ids that the check knows. -/
def knownEntryIds (ctx : DocumentContext) : List ℤ := (ctx.workspaceEntryIds.take 6).filter (0 < ·)

/-- The retrieval mode that the check reads. -/
def checkedMode (rt : DocumentRuntime) (plan : ThinkingPlan) : String :=
  orElse (retrievalModeOf rt plan.contextHints) "none"

/-- The reads as a whole fit the retrieval mode. -/
structure PlanFits (mode : String) (retrieval : RetrievalPlan) (indexIds : List ℤ) : Prop where
  resolved : (retrieval.unresolvedSourceSteps.map strip).filter (· ≠ "") = []
  overview : mode = "structure_first" → indexIds ≠ [] →
    retrieval.searchDrivenWorkspaceReads ≠ [] → retrieval.directWorkspaceReads ≠ []
  direct : mode = "workspace_first" → retrieval.directWorkspaceReads ≠ []
  noSearch : mode = "workspace_only" → retrieval.searchStepIds = []
  fewDirect : mode = "semantic_first" → retrieval.directWorkspaceReads.length ≤ 1

/-- What the check asks of a plan, for a retrieval mode. -/
def IsAccepted (rt : DocumentRuntime) (mode : String) (plan : ThinkingPlan)
    (ctx : DocumentContext) : Prop :=
  ∃ retrieval, retrievalPlan rt plan = .ok retrieval ∧
    PlanFits mode retrieval (ctx.indexLikeEntryIds.take 6) ∧
    (∀ p ∈ plan.steps.zipIdx, isRead p.1 = true →
      checkRead rt (knownEntryIds ctx) mode (semanticStepPositions plan.steps) p.2 p.1 =
        .ok none) ∧
    (mode ∈ searchFirstModes → semanticStepPositions plan.steps ≠ [])

lemma consistencyCheck_eq_none_iff {mode : String} {retrieval : RetrievalPlan}
    {documentMeta : DocumentMeta} :
    retrievalPlanConsistencyCheck mode retrieval documentMeta = none ↔
      PlanFits mode retrieval documentMeta.indexLikeEntryIds := by
  unfold retrievalPlanConsistencyCheck
  dsimp only
  constructor
  · intro h
    split_ifs at h with hresolved hoverview hdirect hsearch hfew
    exact ⟨not_not.mp hresolved, fun hmode hi hs hd => hoverview ⟨hmode, hi, hs, hd⟩,
      fun hmode hd => hdirect ⟨hmode, hd⟩,
      fun hmode => by_contra fun hs => hsearch ⟨hmode, hs⟩,
      fun hmode => Nat.not_lt.mp fun hlt => hfew ⟨hmode, hlt⟩⟩
  · intro h
    rw [if_neg (not_not.mpr h.resolved), if_neg fun hc => h.overview hc.1 hc.2.1 hc.2.2.1 hc.2.2.2,
      if_neg fun hc => h.direct hc.1 hc.2, if_neg fun hc => hc.2 (h.noSearch hc.1),
      if_neg fun hc => absurd hc.2 (Nat.not_lt.mpr (h.fewDirect hc.1))]

lemma runDocumentRetrievalCheck_eq_none_iff {input : VerifierInput}
    (hlong : input.documentMode = .longDocument) :
    runDocumentRetrievalCheck rt plan input = .ok none ↔
      PlanFits (orElse input.documentMeta.documentRetrievalMode "none")
        input.documentMeta.retrievalPlan input.documentMeta.indexLikeEntryIds ∧
      (∀ p ∈ plan.steps.zipIdx, isRead p.1 = true →
        checkRead rt (input.documentMeta.workspaceEntryIds.filter (0 < ·))
          (orElse input.documentMeta.documentRetrievalMode "none")
          (semanticStepPositions plan.steps) p.2 p.1 = .ok none) ∧
      (orElse input.documentMeta.documentRetrievalMode "none" ∈ searchFirstModes →
        semanticStepPositions plan.steps ≠ []) := by
  unfold runDocumentRetrievalCheck
  rw [if_neg (not_not.mpr hlong), ← consistencyCheck_eq_none_iff, ← checkReads_eq_none_iff]
  dsimp only
  split
  · rename_i result hresult
    simp [hresult]
  · rename_i hnone
    simp only [hnone, true_and]
    cases hreads : checkReads rt (input.documentMeta.workspaceEntryIds.filter (0 < ·))
        (orElse input.documentMeta.documentRetrievalMode "none")
        (semanticStepPositions plan.steps) 0 plan.steps with
    | error e => simp [bind, Except.bind]
    | ok result =>
      cases result with
      | some result =>
        rw [bind_ok]
        constructor
        · intro h
          cases h
        · rintro ⟨h, -⟩
          cases h
      | none =>
        rw [bind_ok]
        dsimp only
        split
        · rename_i hmissing
          constructor
          · intro h
            cases h
          · intro h
            exact absurd hmissing.2 (h.2 hmissing.1)
        · rename_i hfound
          simpa [pure, Except.pure] using fun hmode hnil => hfound ⟨hmode, hnil⟩

/-- The check accepts just the plans that give it what it asks for. -/
theorem checkPlan_eq_none_iff :
    checkPlan rt charCap userText plan ctx = .ok none ↔
      IsAccepted rt (checkedMode rt plan) plan ctx := by
  unfold IsAccepted
  unfold checkPlan buildVerifierInput
  cases hplan : retrievalPlan rt plan with
  | error e => simp [bind, Except.bind]
  | ok retrieval =>
    simp only [bind_ok, pure, Except.pure, Except.ok.injEq, exists_eq_left']
    exact runDocumentRetrievalCheck_eq_none_iff rfl

end Plan

end Trion.Verifier
