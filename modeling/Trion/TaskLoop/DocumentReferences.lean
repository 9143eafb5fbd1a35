import Trion.Mcp.ToolResultLaws
import Trion.TaskLoop.Executor

/-!
# References to the results of a search

A later step of a plan refers to a result of a semantic search by the step of the search and the
rank of the result.  The tool runner of the bridge delivers what the search answered under
`structuredContent`, and the collector looks for the results one level higher: no result of a
search that came through the bridge is ever found, and every reference falls back to the entry
its arguments name themselves.
-/

namespace Trion.TaskLoop

open Trion.Python Trion.Thinking Trion.Mcp

/-! ### The tool runner -/

/-- The result of validating a structured output, with the verdict. -/
structure StructuralResult where
  value : PyVal
  valid : Bool

/-- The status that `project_task_tool_result` gives an envelope. -/
def taskToolResultStatus (e : MCPToolResultEnvelope) : TaskToolResultStatus :=
  match e.status with
  | .success =>
    if .value ∈ [e.contentPresence, e.structuredContentPresence] then .successValue
    else if .empty ∈ [e.contentPresence, e.structuredContentPresence] then .successEmpty
    else .successMissing
  | .toolFailure => .toolFailure
  | .protocolFailure => .protocolFailure
  | .transportFailure => .transportFailure

/-- The error that `project_task_tool_result` gives an envelope. -/
def taskToolResultError (rt : PyRuntime) (e : MCPToolResultEnvelope) : Option String :=
  match e.status with
  | .success => none
  | .toolFailure => some "tool_failure"
  | .protocolFailure =>
    some ((PyDict.get (e.protocolError.asDict?.getD []) "message").strOr rt "protocol_failure")
  | .transportFailure =>
    match e.transportDiagnostic with
    | .str text => some text
    | _ => none

/-- `project_task_tool_result`, for the answers of the runner that `make_tool_runner` makes. -/
def projectTaskToolResult (rt : PyRuntime) (e : MCPToolResultEnvelope)
    (structural : Option StructuralResult) : TaskToolResult where
  status := taskToolResultStatus e
  result := projectToolResultWireMapping e
  error := taskToolResultError rt e
  structuralResult := structural.map StructuralResult.value
  structuralValidationStatus :=
    match structural with
    | none => .missing
    | some result => if result.valid then .valid else .invalid
  missing_iff := by
    cases structural with
    | none => simp
    | some result =>
      dsimp only
      split <;> simp

/-- A mapping that goes over the wire has no other keys. -/
lemma get_wireMapping_of_notMem (e : MCPToolResultEnvelope) {key : String}
    (h : key ∉ ["content", "structuredContent", "isError", "error"]) :
    PyDict.get (projectToolResultWireMapping e) key = .none := by
  simp only [List.mem_cons, List.not_mem_nil, or_false, not_or] at h
  obtain ⟨hcontent, hstructured, hisError, herror⟩ := h
  have hset (d : PyDict) (v : PyVal) : PyDict.get (PyDict.set d "error" v) key = PyDict.get d key :=
    congrArg (Option.getD · PyVal.none) (OrderedDict.get?_insert_of_ne herror)
  unfold projectToolResultWireMapping
  dsimp only
  split_ifs
  all_goals
    try simp only [hset, List.nil_append, List.cons_append, PyDict.get_cons, if_neg hcontent,
      if_neg hstructured, if_neg hisError]
    rfl

/-! ### References -/

variable {rt : PyRuntime} {stepId : String} {rank : ℕ} {fallback : ℤ}

/-- The arguments refer to the result of this rank of the step. -/
structure RefersTo (rt : PyRuntime) (arguments : PyDict) (stepId : String) (rank : ℕ)
    (fallback : ℤ) : Prop where
  refers : PyDict.has arguments "document_source_step" = true
  step : strip ((PyDict.get arguments "document_source_step").strOr rt "") = stepId
  rank : ((PyDict.get arguments "document_result_rank").or (.int 0)).toInt rt = .ok (rank : ℤ)
  /-- The entry that the arguments name themselves. -/
  fallback : (((PyDict.get arguments "document_fallback_entry_id").or
    (PyDict.get arguments "entry_id")).or (.int 0)).toInt rt = .ok fallback

/-- An artifact that is no result of a search of the step. -/
def NoSearchResult (rt : PyRuntime) (stepId : String) (artifact : PyVal) : Prop :=
  ∃ d, artifact = .dict d ∧ ((PyDict.get d "artifact_type").strOr rt "" ≠ "semantic_search_result" ∨
    (PyDict.get d "source_step_id").strOr rt "" ≠ stepId ∨ PyDict.get d "rank" = .none)

lemma workspaceEntryId_of_noSearchResult {artifacts : List PyVal} {rank : ℤ}
    (h : ∀ artifact ∈ artifacts, NoSearchResult rt stepId artifact) :
    workspaceEntryIdFromArtifacts rt stepId rank artifacts = .ok 0 := by
  induction artifacts with
  | nil => rfl
  | cons artifact artifacts ih =>
    obtain ⟨d, rfl, hother⟩ := h _ List.mem_cons_self
    have hrest := ih fun a ha => h a (List.mem_cons_of_mem _ ha)
    rw [workspaceEntryIdFromArtifacts]
    simp only [PyVal.getAttr, bind_ok]
    split
    · exact hrest
    · rename_i htype
      split
      · exact hrest
      · rename_i hstep
        have hrank : PyDict.get d "rank" = .none :=
          (hother.resolve_left htype).resolve_left hstep
        rw [hrank]
        exact hrest

/-- With no result of the search among the artifacts, a reference falls back. -/
lemma resolveToolArguments_of_noSearchResult {arguments : PyDict} {artifacts : List PyVal}
    (h : RefersTo rt arguments stepId rank fallback)
    (hartifacts : ∀ artifact ∈ artifacts, NoSearchResult rt stepId artifact) :
    ∃ args, resolveToolArguments rt arguments artifacts = .ok args ∧
      PyDict.get args "entry_id" = .int fallback := by
  refine ⟨PyDict.without (PyDict.set arguments "entry_id" (.int fallback)) documentReferenceKeys,
    ?_, ?_⟩
  · unfold resolveToolArguments
    rw [h.refers, h.step]
    simp only [h.rank, h.fallback, bind_ok, workspaceEntryId_of_noSearchResult hartifacts]
    rfl
  · rw [PyDict.get_without (by decide)]
    exact congrArg (Option.getD · PyVal.none) OrderedDict.get?_insert_self

/-- What a step leaves when its answer came through the bridge: no artifact of it is a result of
a search. -/
lemma noSearchResult_of_finishStep {settings : ExecutorSettings} {step : PlanStep}
    {receipt : Option StepOperationReceipt} {call : TaskToolCall} {e : MCPToolResultEnvelope}
    {structural : Option StructuralResult} {result : StepExecutionResult}
    (h : finishStep settings step receipt call
      (.returned (projectTaskToolResult settings.rt e structural)) = .ok result) (stepId : String) :
    ∀ artifact ∈ result.artifacts, NoSearchResult settings.rt stepId artifact := by
  unfold finishStep at h
  dsimp only at h
  split at h
  · obtain rfl := Except.ok.inj h
    simp
  · obtain ⟨collected, hcollected, h⟩ := ok_of_bind h
    obtain rfl := Except.ok.inj h
    have hself : selfWrittenArtifacts (projectToolResultWireMapping e) = [] := by
      rw [selfWrittenArtifacts, get_wireMapping_of_notMem e (by decide)]
      rfl
    have hresults : PyDict.get (projectToolResultWireMapping e) "results" = .none :=
      get_wireMapping_of_notMem e (by decide)
    change collectResultArtifacts settings.rt _ _ (projectToolResultWireMapping e)
      (selfWrittenArtifacts (projectToolResultWireMapping e) ++ _) = .ok collected at hcollected
    rw [hself, List.nil_append, collectResultArtifacts, hresults] at hcollected
    have hcollected : collected = validatedEvidenceArtifacts call.toolName step.stepId
        (projectToolResultWireMapping e) (settings.detail call.toolName)
        (structural.map StructuralResult.value)
        (projectTaskToolResult settings.rt e structural).structuralValidationStatus
        settings.operationContractFingerprint ++
      [toolResultArtifact settings.rt (step.tool.getD "") step.stepId
        (projectToolResultWireMapping e)] := by
      split at hcollected
      · exact (Except.ok.inj hcollected).symm
      · exact (Except.ok.inj hcollected).symm.trans (List.append_nil _)
    intro artifact hartifact
    change artifact ∈ collected at hartifact
    rw [hcollected] at hartifact
    rcases List.mem_append.mp hartifact with hevidence | htool
    · -- the evidence of a step has no rank
      unfold validatedEvidenceArtifacts at hevidence
      split at hevidence
      · simp at hevidence
      · obtain ⟨evidenceType, -, rfl⟩ := List.mem_map.mp hevidence
        exact ⟨_, rfl, .inr (.inr rfl)⟩
    · obtain rfl := List.mem_singleton.mp htool
      refine ⟨_, rfl, .inl ?_⟩
      show "tool_result" ≠ "semantic_search_result"
      decide

/-! ### The results of a search -/

/-- The answer of a search, with the entry ids of its results, as the runner of the bridge
delivers it. -/
structure Delivered (rt : PyRuntime) (ids : List ℤ) (e : MCPToolResultEnvelope) where
  payload : PyDict
  structured : PyDict
  results : List PyVal
  outcome : MCPTransportRequestOutcome
  structuredContent : payload.lookup "structuredContent" = some (.dict structured)
  resultsField : structured.lookup "results" = some (.list results)
  entryIds : List.Forall₂ (fun result id => workspaceEntryIdFromResult rt result = .ok id ∧ 0 < id)
    results ids
  constructed : (MCPTransportRequestOutcome.answered (.dict payload)).postInit = .ok outcome
  projected : projectToolResultEnvelope outcome = .ok e
  successful : e.status = .success

/-- The arguments are resolved to the entry of the result that they refer to. -/
def ResolvesTo (rt : PyRuntime) (ids : List ℤ) (arguments : PyDict) (artifacts : List PyVal)
    (rank : ℕ) : Prop :=
  ∀ id, ids[rank]? = some id → ∃ args, resolveToolArguments rt arguments artifacts = .ok args ∧
    PyDict.get args "entry_id" = .int id

/-- A reference to a result of a search that came through the bridge is resolved to the entry of
that result exactly when there is no such result, or the arguments name the entry themselves. -/
theorem resolvesTo_iff {settings : ExecutorSettings} {step : PlanStep}
    {receipt : Option StepOperationReceipt} {call : TaskToolCall} {ids : List ℤ}
    {e : MCPToolResultEnvelope} {structural : Option StructuralResult}
    {result : StepExecutionResult} {earlier : List PyVal} {arguments : PyDict} {rank : ℕ}
    {fallback : ℤ} (_ : Delivered settings.rt ids e)
    (_ : step.tool = some "memory_semantic_search")
    (hresult : finishStep settings step receipt call
      (.returned (projectTaskToolResult settings.rt e structural)) = .ok result)
    (hearlier : ∀ artifact ∈ earlier, NoSearchResult settings.rt step.stepId artifact)
    (hrefers : RefersTo settings.rt arguments step.stepId rank fallback) :
    ResolvesTo settings.rt ids arguments (earlier ++ result.artifacts) rank ↔
      ∀ id, ids[rank]? = some id → fallback = id := by
  have hnone : ∀ artifact ∈ earlier ++ result.artifacts,
      NoSearchResult settings.rt step.stepId artifact := by
    intro artifact hartifact
    rcases List.mem_append.mp hartifact with hbefore | hnew
    · exact hearlier artifact hbefore
    · exact noSearchResult_of_finishStep hresult step.stepId artifact hnew
  obtain ⟨args, hargs, hentry⟩ := resolveToolArguments_of_noSearchResult hrefers hnone
  refine forall₂_congr fun id _ => ⟨?_, ?_⟩
  · rintro ⟨args', hargs', hentry'⟩
    obtain rfl := Except.ok.inj (hargs.symm.trans hargs')
    exact PyVal.int.inj (hentry.symm.trans hentry')
  · rintro rfl
    exact ⟨args, hargs, hentry⟩

/-- A search that found one entry. -/
def oneHitPayload : PyDict :=
  [("content", .list []),
    ("structuredContent", .dict [("results", .list [.dict [("workspace_entry_id", .int 42)]])])]

/-- The envelope of its answer. -/
def oneHitEnvelope : MCPToolResultEnvelope where
  status := .success
  contentPresence := .empty
  content := .tuple []
  structuredContentPresence := .value
  structuredContent :=
    .dict [("results", .tuple [.dict [("workspace_entry_id", .int 42)]])]

def oneHit : Delivered .ascii [42] oneHitEnvelope where
  payload := oneHitPayload
  structured := [("results", .list [.dict [("workspace_entry_id", .int 42)]])]
  results := [.dict [("workspace_entry_id", .int 42)]]
  outcome := (MCPTransportRequestOutcome.answered (.dict oneHitPayload)).frozen
  structuredContent := rfl
  resultsField := rfl
  entryIds := .cons ⟨rfl, by decide⟩ .nil
  constructed := rfl
  projected := rfl
  successful := rfl

/-- The settings of a run on ASCII text. -/
def asciiSettings : ExecutorSettings where
  rt := .ascii

def searchStep : PlanStep where
  stepId := "step_1"
  title := "search"
  goal := "find the document"
  tool := some "memory_semantic_search"

def searchCall : TaskToolCall where
  toolName := "memory_semantic_search"
  stepId := "step_1"

/-- The arguments of a step that reads the first entry that was found. -/
def firstHitArguments : PyDict :=
  [("document_source_step", .str "step_1"), ("document_result_rank", .int 0)]

/-- The answer of the search, as the runner of the bridge delivers it. -/
def oneHitReply : ToolReply := .returned (projectTaskToolResult .ascii oneHitEnvelope none)

lemma firstHitArguments_refersTo : RefersTo .ascii firstHitArguments "step_1" 0 0 where
  refers := rfl
  step := by decide
  rank := rfl
  fallback := rfl

lemma exists_oneHitResult :
    ∃ result, finishStep asciiSettings searchStep none searchCall oneHitReply = .ok result :=
  ⟨_, rfl⟩

theorem resolvesTo_iff_oneHit :
    ∃ result, finishStep asciiSettings searchStep none searchCall oneHitReply = .ok result ∧
      (ResolvesTo .ascii [42] firstHitArguments ([] ++ result.artifacts) 0 ↔
        ∀ id, [(42 : ℤ)][0]? = some id → 0 = id) := by
  obtain ⟨result, hresult⟩ := exists_oneHitResult
  exact ⟨result, hresult, @resolvesTo_iff asciiSettings searchStep none searchCall [42]
    oneHitEnvelope none result [] firstHitArguments 0 0 oneHit rfl hresult (by simp)
    firstHitArguments_refersTo⟩

/-- The entry that was found is not the one the reference is resolved to. -/
theorem not_resolvesTo_oneHit :
    ∃ result, finishStep asciiSettings searchStep none searchCall oneHitReply = .ok result ∧
      ¬ResolvesTo .ascii [42] firstHitArguments result.artifacts 0 := by
  obtain ⟨result, hresult⟩ := exists_oneHitResult
  refine ⟨result, hresult, fun h => ?_⟩
  obtain ⟨args, hargs, hentry⟩ := h 42 rfl
  obtain ⟨args', hargs', hentry'⟩ := resolveToolArguments_of_noSearchResult
    firstHitArguments_refersTo
    (@noSearchResult_of_finishStep asciiSettings _ _ _ _ none _ hresult "step_1")
  obtain rfl := Except.ok.inj (hargs.symm.trans hargs')
  exact absurd (PyVal.int.inj (hentry.symm.trans hentry')) (by decide)

end Trion.TaskLoop
