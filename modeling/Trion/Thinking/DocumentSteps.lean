import Trion.Thinking.Contracts

/-!
# Steps for a document

`core/thinking/document_steps.py`: the search and the reads that the planner puts into a plan
for a long document, chosen by the retrieval mode, the kind of the query and the candidate
entries of the document.
-/

namespace Trion.Thinking

open Trion.Python

/-- `DocumentContext`, as far as the planner and the verifier read it. -/
structure DocumentContext where
  conversationId : String
  summary : String
  totalChunks : ℤ
  workspaceEntryIds : List ℤ
  preferredEntryIds : List ℤ
  indexLikeEntryIds : List ℤ
  chapterCandidateEntryIds : List ℤ
  semanticKeys : List String
deriving DecidableEq, Repr

/-- The built-ins, with `str.isdigit` on one character. -/
structure DocumentRuntime extends PyRuntime where
  isDigit : Char → Bool

/-- The built-ins on ASCII text. -/
def DocumentRuntime.ascii : DocumentRuntime where
  toPyRuntime := .ascii
  isDigit := Char.isDigit

/-! ### The query -/

/-- What `_query_mode` finds a query to ask for. -/
inductive QueryMode where
  | structureOverview
  | chapterSpecific
  | exactLookup
  | generic
deriving DecidableEq, Repr

/-- One of the tokens stands in the text. -/
def anyToken (tokens : List String) (text : String) : Bool := tokens.any (containsStr text)

/-- `_query_mode`. -/
def queryMode (rt : DocumentRuntime) (query : String) : QueryMode :=
  let lowered := rt.lower query
  if anyToken ["how many chapter", "how many chapters", "wie viel kapitel", "wieviel kapitel",
      "list chapters", "chapter list", "inhaltsverzeichnis", "table of contents",
      "gliederung"] lowered then .structureOverview
  else if anyToken ["chapter ", "kapitel ", "abschnitt ", "section "] lowered &&
      lowered.toList.any rt.isDigit then .chapterSpecific
  else if anyToken ["quote", "zitat", "exact", "genau", "wo steht", "passage"] lowered then
    .exactLookup
  else .generic

/-! ### The reads -/

/-- `_SEARCH_FIRST_MODES`. -/
def searchFirstModes : List String := ["semantic_first", "structure_search_first"]

/-- `_limit_unique`, after the entries that are already chosen. -/
def limitUniqueFrom (limit : ℕ) (unique : List ℤ) : List ℤ → List ℤ
  | [] => unique
  | entryId :: values =>
    if entryId ≤ 0 ∨ entryId ∈ unique then limitUniqueFrom limit unique values
    else if limit ≤ (unique ++ [entryId]).length then unique ++ [entryId]
    else limitUniqueFrom limit (unique ++ [entryId]) values

/-- `_limit_unique`. -/
def limitUnique (limit : ℕ) (values : List ℤ) : List ℤ := limitUniqueFrom limit [] values

/-- `_workspace_limit`. -/
def workspaceLimit (mode : String) (query : QueryMode) : ℕ :=
  if query = .structureOverview ∨ query = .exactLookup then 2
  else if mode = "workspace_first" then 2
  else 3

section Context

variable (ctx : DocumentContext) (mode : String) (tools : List String) (query : QueryMode)

/-- `_workspace_target_sets`. -/
def workspaceTargetSets : List (List ℤ) :=
  if mode = "structure_first" then
    if query = .chapterSpecific then
      [ctx.chapterCandidateEntryIds, ctx.indexLikeEntryIds, ctx.preferredEntryIds]
    else [ctx.indexLikeEntryIds, ctx.chapterCandidateEntryIds, ctx.preferredEntryIds]
  else if mode = "workspace_first" then
    if query = .structureOverview then
      [ctx.indexLikeEntryIds, ctx.preferredEntryIds, ctx.chapterCandidateEntryIds]
    else [ctx.preferredEntryIds, ctx.chapterCandidateEntryIds, ctx.indexLikeEntryIds]
  else if mode ∈ searchFirstModes then
    if query = .structureOverview then
      [ctx.indexLikeEntryIds, ctx.chapterCandidateEntryIds, ctx.preferredEntryIds]
    else [ctx.chapterCandidateEntryIds, ctx.preferredEntryIds, ctx.indexLikeEntryIds]
  else [ctx.preferredEntryIds, ctx.chapterCandidateEntryIds, ctx.indexLikeEntryIds]

/-- The targets of the first candidate set that has some. -/
def firstTargets (limit : ℕ) : List (List ℤ) → Option (List ℤ)
  | [] => none
  | candidateIds :: sets =>
    if limitUnique limit candidateIds ≠ [] then some (limitUnique limit candidateIds)
    else firstTargets limit sets

/-- `_workspace_targets`. -/
def workspaceTargets : List ℤ :=
  if "workspace_get" ∉ tools then []
  else (firstTargets (workspaceLimit mode query) (workspaceTargetSets ctx mode query)).getD
    (limitUnique (min 2 (workspaceLimit mode query)) ctx.workspaceEntryIds)

/-- `_search_first`. -/
def searchFirst : Bool :=
  if "memory_semantic_search" ∉ tools ∨ ctx.semanticKeys = [] then false
  else if mode ∈ searchFirstModes then true
  else workspaceTargets ctx mode tools query = []

end Context

/-! ### The steps -/

/-- The id of the one search step. -/
def semanticStepId : String := "semantic_search_1"

/-- `_semantic_steps`. -/
def semanticSteps (query : String) (risk : RiskLevel) (ctx : DocumentContext) : List PlanStep :=
  if ctx.semanticKeys = [] then []
  else [{
    stepId := semanticStepId
    title := "Search relevant document chunks"
    goal := query
    tool := some "memory_semantic_search"
    toolArguments := [("query", .str query),
      ("conversation_id", .str (orElse ctx.conversationId "global")),
      ("content_type", .str "document_chunk")]
    risk := risk }]

/-- The step that reads one entry, after `index` others. -/
def workspaceStep (query : String) (risk : RiskLevel) (searchDriven : Bool) (entryId : ℤ)
    (index : ℕ) : PlanStep where
  stepId := s!"workspace_{entryId}"
  title := s!"Read document chunk {index + 1}"
  goal := query
  tool := some "workspace_get"
  toolArguments := [("entry_id", .int entryId), ("document_fallback_entry_id", .int entryId)] ++
    if searchDriven then
      [("document_source_step", .str semanticStepId), ("document_result_rank", .int index)]
    else []
  risk := risk

/-- `_workspace_steps`. -/
def workspaceSteps (query : String) (risk : RiskLevel) (searchDriven : Bool)
    (workspaceIds : List ℤ) : List PlanStep :=
  workspaceIds.zipIdx.map fun (entryId, index) =>
    workspaceStep query risk searchDriven entryId index

section Build

variable (rt : DocumentRuntime) (rawPlan : PyDict) (userText : String) (tools : List String)
  (ctx : DocumentContext)

/-- The query of the plan. -/
def documentQuery : String :=
  strip ((((PyDict.get rawPlan "intent").or (.str userText)).or (.str ctx.summary)).strOr
    rt.toPyRuntime "document query")

/-- The retrieval mode that a dictionary asks for. -/
def retrievalModeOf (hints : PyDict) : String :=
  (PyDict.get hints "document_retrieval_mode").strOr rt.toPyRuntime "none"

/-- The entries that the plan reads. -/
def documentTargets : List ℤ :=
  workspaceTargets ctx (retrievalModeOf rt rawPlan) tools
    (queryMode rt (documentQuery rt rawPlan userText ctx))

/-- `build_document_steps`. -/
def buildDocumentSteps (documentContext : Option DocumentContext) (risk : RiskLevel) :
    List PlanStep :=
  match documentContext with
  | none => []
  | some ctx =>
    if tools = [] then []
    else
      let query := documentQuery rt rawPlan userText ctx
      let targets := documentTargets rt rawPlan userText tools ctx
      if searchFirst ctx (retrievalModeOf rt rawPlan) tools (queryMode rt query) then
        semanticSteps query risk ctx ++ workspaceSteps query risk true targets
      else workspaceSteps query risk false targets ++ semanticSteps query risk ctx

end Build

/-! ### Laws -/

section Laws

variable {limit : ℕ} {unique values : List ℤ} {entryId : ℤ}

lemma pos_of_mem_limitUniqueFrom (hunique : ∀ entryId ∈ unique, 0 < entryId)
    (h : entryId ∈ limitUniqueFrom limit unique values) : 0 < entryId := by
  induction values generalizing unique with
  | nil => exact hunique entryId h
  | cons value values ih =>
    rw [limitUniqueFrom] at h
    split at h
    · exact ih hunique h
    · rename_i hnew
      have hall : ∀ entryId ∈ unique ++ [value], 0 < entryId := by
        intro other hother
        rcases List.mem_append.mp hother with hold | hvalue
        · exact hunique other hold
        · rw [List.mem_singleton.mp hvalue]
          omega
      split at h
      · exact hall entryId h
      · exact ih hall h

/-- Only positive ids are chosen. -/
lemma pos_of_mem_limitUnique (h : entryId ∈ limitUnique limit values) : 0 < entryId :=
  pos_of_mem_limitUniqueFrom (fun _ hmem => absurd hmem List.not_mem_nil) h

lemma pos_of_mem_firstTargets {sets : List (List ℤ)} {targets : List ℤ}
    (hfound : firstTargets limit sets = some targets) (h : entryId ∈ targets) : 0 < entryId := by
  induction sets with
  | nil => exact nomatch hfound
  | cons candidateIds sets ih =>
    rw [firstTargets] at hfound
    split at hfound
    · cases hfound
      exact pos_of_mem_limitUnique h
    · exact ih hfound

/-- The targets are positive ids. -/
lemma pos_of_mem_workspaceTargets {ctx : DocumentContext} {mode : String} {tools : List String}
    {query : QueryMode} (h : entryId ∈ workspaceTargets ctx mode tools query) : 0 < entryId := by
  unfold workspaceTargets at h
  split at h
  · exact absurd h List.not_mem_nil
  · cases hfound : firstTargets (workspaceLimit mode query)
        (workspaceTargetSets ctx mode query) with
    | some targets =>
      rw [hfound] at h
      exact pos_of_mem_firstTargets hfound h
    | none =>
      rw [hfound] at h
      exact pos_of_mem_limitUnique h

/-- Without tools nothing is read. -/
lemma workspaceTargets_nil {ctx : DocumentContext} {mode : String} {query : QueryMode} :
    workspaceTargets ctx mode [] query = [] := if_pos List.not_mem_nil

/-- When the search comes first. -/
lemma searchFirst_eq_true_iff {ctx : DocumentContext} {mode : String} {tools : List String}
    {query : QueryMode} :
    searchFirst ctx mode tools query = true ↔
      "memory_semantic_search" ∈ tools ∧ ctx.semanticKeys ≠ [] ∧
        (mode ∈ searchFirstModes ∨ workspaceTargets ctx mode tools query = []) := by
  unfold searchFirst
  by_cases htool : "memory_semantic_search" ∈ tools
  · by_cases hkeys : ctx.semanticKeys = []
    · simp [hkeys]
    · by_cases hmode : mode ∈ searchFirstModes <;> simp [htool, hkeys, hmode]
  · simp [htool]

end Laws

end Trion.Thinking
