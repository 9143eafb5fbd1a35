import Trion.Thinking.DocumentSteps

/-!
# The check of a document plan

`core/verifier/input_prepare.py` and `core/verifier/document_checks.py`: what the verifier is
told of the document and of the reads of a plan, and the check that it makes on them.
-/

namespace Trion.Verifier

open Trion.Python Trion.Thinking

inductive Verdict where
  | approved
  | rejected
  | hardBlock
deriving DecidableEq, Repr

/-- `VerifierResult`. -/
structure VerifierResult where
  verdict : Verdict
  hint : Option String := none
  warnings : List String := []
  reason : String := ""
deriving DecidableEq, Repr

/-! ### What the verifier is told -/

/-- A `workspace_get` step of the plan, with the step whose hits it reads. -/
structure WorkspaceRead where
  stepId : String
  entryId : ℤ
  sourceStep : String := ""
deriving DecidableEq, Repr

/-- `retrieval_plan`. -/
structure RetrievalPlan where
  searchStepIds : List String := []
  directWorkspaceReads : List WorkspaceRead := []
  searchDrivenWorkspaceReads : List WorkspaceRead := []
  unresolvedSourceSteps : List String := []
deriving DecidableEq, Repr

inductive QuestionFocus where
  | structural
  | exact
  | semantic
deriving DecidableEq, Repr

/-- `document_meta`; the defaults stand for the keys of an empty dictionary. -/
structure DocumentMeta where
  totalChunks : ℤ := 0
  workspaceEntryIds : List ℤ := []
  preferredEntryIds : List ℤ := []
  indexLikeEntryIds : List ℤ := []
  chapterCandidateEntryIds : List ℤ := []
  semanticKeys : List String := []
  documentRetrievalMode : String := "none"
  questionFocus : QuestionFocus := .semantic
  structureRequired : Bool := false
  planId : String := ""
  retrievalPlan : RetrievalPlan := {}
deriving DecidableEq, Repr

inductive DocumentMode where
  | normal
  | longDocument
deriving DecidableEq, Repr

/-- `VerifierInput`. -/
structure VerifierInput where
  userText : String
  documentMode : DocumentMode
  documentSummary : String
  documentMeta : DocumentMeta
  userExcerpt : String
deriving DecidableEq, Repr

/-- `text[:cap]`. -/
def excerpt (cap : ℕ) (text : String) : String := String.ofList (text.toList.take cap)

/-- `_is_structure_question`. -/
def isStructureQuestion (lowered : String) : Bool :=
  anyToken ["wie viel kapitel", "wieviel kapitel", "how many chapter", "how many chapters",
    "inhaltsverzeichnis", "table of contents", "welche kapitel", "chapter list",
    "list chapters", "gliederung", "reihenfolge", "section order"] lowered

/-- `_is_exact_question`. -/
def isExactQuestion (lowered : String) : Bool :=
  anyToken ["quote", "zitat", "exact", "genau", "wo steht", "passage", "abschnitt", "entry id",
    "eintrag", "position"] lowered

section Input

variable (rt : DocumentRuntime)

/-- `_question_focus`. -/
def questionFocus (userText retrievalMode : String) : QuestionFocus :=
  let lowered := rt.lower userText
  if isStructureQuestion lowered then .structural
  else if isExactQuestion lowered then .exact
  else if retrievalMode ∈ ["structure_first", "structure_search_first"] then .structural
  else if retrievalMode ∈ ["workspace_first", "exact_lookup"] then .exact
  else .semantic

/-- `str(step.tool_arguments.get("document_source_step") or "").strip()`. -/
def sourceStepOf (step : PlanStep) : String :=
  strip ((PyDict.get step.toolArguments "document_source_step").strOr rt.toPyRuntime "")

/-- `int(step.tool_arguments.get("entry_id") or 0)`. -/
def entryIdOf (step : PlanStep) : Except PyError ℤ :=
  ((PyDict.get step.toolArguments "entry_id").or (.int 0)).toInt rt.toPyRuntime

/-- The searches of a plan. -/
def isSearch (step : PlanStep) : Bool := step.toolName = "memory_semantic_search"

/-- The reads of a plan. -/
def isRead (step : PlanStep) : Bool := step.toolName = "workspace_get"

/-- The loop of `_retrieval_plan`: the searches, the direct and the search-driven reads. -/
def sortSteps : List PlanStep →
    Except PyError (List String × List WorkspaceRead × List WorkspaceRead)
  | [] => .ok ([], [], [])
  | step :: steps => do
    if isSearch step then
      let rest ← sortSteps steps
      return (step.stepId :: rest.1, rest.2)
    else if !isRead step then sortSteps steps
    else
      let sourceStep := sourceStepOf rt step
      let entryId ← entryIdOf rt step
      let rest ← sortSteps steps
      if sourceStep ≠ "" then
        return (rest.1, rest.2.1, ⟨step.stepId, entryId, sourceStep⟩ :: rest.2.2)
      else return (rest.1, ⟨step.stepId, entryId, ""⟩ :: rest.2.1, rest.2.2)

/-- `_retrieval_plan`. -/
def retrievalPlan (plan : ThinkingPlan) : Except PyError RetrievalPlan := do
  let (searchSteps, directReads, searchReads) ← sortSteps rt plan.steps
  let unresolvedSources := (searchReads.map (strip ·.sourceStep)).filter fun source =>
    source ≠ "" && source ∉ searchSteps
  return {
    searchStepIds := searchSteps.take 4
    directWorkspaceReads := directReads.take 4
    searchDrivenWorkspaceReads := searchReads.take 4
    unresolvedSourceSteps := unresolvedSources.take 4 }

/-- `build_verifier_input`; the cap is `get_control_prompt_user_chars()`. -/
def buildVerifierInput (charCap : ℕ) (userText : String) (plan : ThinkingPlan)
    (documentContext : Option DocumentContext) : Except PyError VerifierInput :=
  match documentContext with
  | none => .ok {
      userText
      documentMode := .normal
      documentSummary := ""
      documentMeta := {}
      userExcerpt := excerpt charCap userText }
  | some ctx => do
    let summary := excerpt charCap ctx.summary
    let mode := retrievalModeOf rt plan.contextHints
    let focus := questionFocus rt userText mode
    return {
      userText
      documentMode := .longDocument
      documentSummary := summary
      documentMeta := {
        totalChunks := ctx.totalChunks
        workspaceEntryIds := ctx.workspaceEntryIds.take 6
        preferredEntryIds := ctx.preferredEntryIds.take 6
        indexLikeEntryIds := ctx.indexLikeEntryIds.take 6
        chapterCandidateEntryIds := ctx.chapterCandidateEntryIds.take 6
        semanticKeys := ctx.semanticKeys.take 6
        documentRetrievalMode := mode
        questionFocus := focus
        structureRequired := focus = .structural
        planId := plan.planId
        retrievalPlan := ← retrievalPlan rt plan }
      userExcerpt := orElse summary (excerpt charCap userText) }

end Input

/-! ### The check -/

/-- `_retrieval_plan_consistency_check`. -/
def retrievalPlanConsistencyCheck (retrievalMode : String) (retrieval : RetrievalPlan)
    (documentMeta : DocumentMeta) : Option VerifierResult :=
  let unresolvedSources := (retrieval.unresolvedSourceSteps.map strip).filter (· ≠ "")
  if unresolvedSources ≠ [] then some {
    verdict := .rejected
    hint := some ("Jeder document_source_step muss auf einen echten vorherigen " ++
      "memory_semantic_search-Schritt zeigen.")
    reason := "document_unresolved_source_steps"
    warnings := unresolvedSources.take 3 }
  else if retrievalMode = "structure_first" ∧ documentMeta.indexLikeEntryIds ≠ [] ∧
      retrieval.searchDrivenWorkspaceReads ≠ [] ∧ retrieval.directWorkspaceReads = [] then some {
    verdict := .rejected
    hint := some ("Fuer structure_first lies zuerst einen bekannten Index- oder Overview-Chunk " ++
      "direkt, bevor du nur search-driven Reads nutzt.")
    reason := "document_structure_missing_direct_overview_read" }
  else if retrievalMode = "workspace_first" ∧ retrieval.directWorkspaceReads = [] then some {
    verdict := .rejected
    hint := some ("Fuer workspace_first braucht der Plan mindestens einen direkten " ++
      "workspace_get-Read auf einen bekannten Dokument-Chunk.")
    reason := "document_exact_missing_direct_read" }
  else if retrievalMode = "workspace_only" ∧ retrieval.searchStepIds ≠ [] then some {
    verdict := .rejected
    hint := some ("workspace_only darf keinen memory_semantic_search-Schritt enthalten. " ++
      "Nutze sonst workspace_first oder semantic_first.")
    reason := "document_workspace_only_contains_search" }
  else if retrievalMode = "semantic_first" ∧ 1 < retrieval.directWorkspaceReads.length then some {
    verdict := .rejected
    hint := some ("Im semantic_first-Pfad sollen direkte workspace_get-Reads die Ausnahme " ++
      "bleiben. Nutze zuerst Search-Treffer und lies danach gezielt wenige Chunks.")
    reason := "document_semantic_too_many_direct_reads"
    warnings := [s!"direct_reads={retrieval.directWorkspaceReads.length}"] }
  else none

/-- `semantic_step_positions`, the last search of an id first. -/
def semanticStepPositions (steps : List PlanStep) : List (String × ℕ) :=
  ((steps.zipIdx.filter (isSearch ·.1)).map fun (step, index) => (step.stepId, index)).reverse

section Check

variable (rt : DocumentRuntime) (workspaceIds : List ℤ) (retrievalMode : String)
  (positions : List (String × ℕ))

/-- The check of one read. -/
def checkRead (index : ℕ) (step : PlanStep) : Except PyError (Option VerifierResult) := do
  let entryId ← entryIdOf rt step
  let sourceStep := sourceStepOf rt step
  if 0 < entryId ∧ entryId ∉ workspaceIds then return some {
    verdict := .rejected
    hint := some ("Nutze nur bekannte workspace_entry_ids aus dem DocumentContext oder leite " ++
      "Reads aus Suchtreffern ab.")
    reason := "document_workspace_entry_out_of_scope"
    warnings := [s!"entry_id={entryId}"] }
  else if sourceStep ≠ "" ∧ positions.lookup sourceStep = none then return some {
    verdict := .rejected
    hint := some ("Fuege vor dynamischen Dokument-Reads einen passenden " ++
      "memory_semantic_search-Schritt ein.")
    reason := "document_missing_semantic_source_step"
    warnings := [s!"missing_source_step={sourceStep}"] }
  else if sourceStep ≠ "" ∧ ∃ position ∈ positions.lookup sourceStep, index ≤ position then
    return some {
      verdict := .rejected
      hint := some ("Dynamische Dokument-Reads duerfen nur Suchschritte referenzieren, die " ++
        "vorher im Plan liegen.")
      reason := "document_semantic_source_step_not_before_read"
      warnings := [s!"source_step={sourceStep}", s!"step_id={step.stepId}"] }
  else if retrievalMode ∈ searchFirstModes ∧ sourceStep = "" then return some {
    verdict := .rejected
    hint := some ("Leite workspace_get im semantischen Dokumentpfad aus einem " ++
      "memory_semantic_search-Treffer ab.")
    reason := "document_missing_search_driven_read"
    warnings := [s!"step_id={step.stepId}"] }
  else return none

/-- The loop over the steps, from the index on. -/
def checkReads : ℕ → List PlanStep → Except PyError (Option VerifierResult)
  | _, [] => .ok none
  | index, step :: steps =>
    if !isRead step then checkReads (index + 1) steps
    else do
      match ← checkRead rt workspaceIds retrievalMode positions index step with
      | some result => return some result
      | none => checkReads (index + 1) steps

end Check

/-- `run_document_retrieval_check`. -/
def runDocumentRetrievalCheck (rt : DocumentRuntime) (plan : ThinkingPlan)
    (input : VerifierInput) : Except PyError (Option VerifierResult) :=
  if input.documentMode ≠ .longDocument then .ok none
  else
    let workspaceIds := input.documentMeta.workspaceEntryIds.filter (0 < ·)
    let retrievalMode := orElse input.documentMeta.documentRetrievalMode "none"
    let positions := semanticStepPositions plan.steps
    match retrievalPlanConsistencyCheck retrievalMode input.documentMeta.retrievalPlan
        input.documentMeta with
    | some result => .ok (some result)
    | none => do
      match ← checkReads rt workspaceIds retrievalMode positions 0 plan.steps with
      | some result => return some result
      | none =>
        if retrievalMode ∈ searchFirstModes ∧ positions = [] then return some {
          verdict := .rejected
          hint := some ("Der semantische Dokumentpfad braucht zuerst einen " ++
            "memory_semantic_search-Schritt.")
          reason := "document_missing_semantic_step" }
        else return none

/-- The check of a plan on the input that is built for it. -/
def checkPlan (rt : DocumentRuntime) (charCap : ℕ) (userText : String) (plan : ThinkingPlan)
    (ctx : DocumentContext) : Except PyError (Option VerifierResult) := do
  let input ← buildVerifierInput rt charCap userText plan (some ctx)
  runDocumentRetrievalCheck rt plan input

end Trion.Verifier
