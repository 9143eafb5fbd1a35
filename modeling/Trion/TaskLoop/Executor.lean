import Trion.TaskLoop.Governor

/-!
# Executing one step

Binding of document references (`document_resolution.py`), the executability check
(`executable_now.py`), the evidence adapter (`evidence_adapter.py`) and `execute_step`
(`executor.py`).  `execute_step` is cut at its one call of the tool runner: everything
before it is `prepareStep`, everything after it `finishStep`.
-/

namespace Trion.TaskLoop

open Trion.Python Trion.Thinking

/-- What the loop reads of a tool's entry in `tool_details_by_name`. -/
structure ToolDetail where
  capabilityRequiredArgs : List String := []
  capabilityEvidenceTypes : List String := []
  capabilityOutputSchema : String := ""
  outputSchema : Option PyDict := none
deriving Repr

abbrev ToolDetails := List (String × ToolDetail)

/-! ### Document references -/

/-- `_workspace_entry_id_from_artifacts`: the first semantic search result of the source
step with the given rank. -/
def workspaceEntryIdFromArtifacts (rt : PyRuntime) (sourceStep : String) (rank : ℤ) :
    List PyVal → Except PyError ℤ
  | [] => .ok 0
  | artifact :: rest => do
    if (← artifact.getAttr "artifact_type").strOr rt "" ≠ "semantic_search_result" then
      workspaceEntryIdFromArtifacts rt sourceStep rank rest
    else if (← artifact.getAttr "source_step_id").strOr rt "" ≠ sourceStep then
      workspaceEntryIdFromArtifacts rt sourceStep rank rest
    else match ← artifact.getAttr "rank" with
      | .none => workspaceEntryIdFromArtifacts rt sourceStep rank rest
      | artifactRank =>
        if (← artifactRank.toInt rt) ≠ rank then
          workspaceEntryIdFromArtifacts rt sourceStep rank rest
        else ((← artifact.getAttr "workspace_entry_id").or (.int 0)).toInt rt

/-- The argument keys that describe a document reference and never reach a tool. -/
def documentReferenceKeys : List String :=
  ["document_source_step", "document_result_rank", "document_fallback_entry_id"]

/-- `resolve_tool_arguments`. -/
def resolveToolArguments (rt : PyRuntime) (arguments : PyDict) (artifacts : List PyVal) :
    Except PyError PyDict := do
  if !PyDict.has arguments "document_source_step" then return arguments
  let sourceStep := strip ((PyDict.get arguments "document_source_step").strOr rt "")
  let rank := max 0 (← ((PyDict.get arguments "document_result_rank").or (.int 0)).toInt rt)
  let fallbackEntryId ← (((PyDict.get arguments "document_fallback_entry_id").or
    (PyDict.get arguments "entry_id")).or (.int 0)).toInt rt
  let found ← workspaceEntryIdFromArtifacts rt sourceStep rank artifacts
  let resolved := if found ≤ 0 then fallbackEntryId else found
  return PyDict.without (PyDict.set arguments "entry_id" (.int resolved)) documentReferenceKeys

/-- The entry id named by a `workspace_entry_id:` part of a result's value text; a part
that is no number ends the search with zero. -/
def entryIdOfParts (rt : PyRuntime) : List String → ℤ
  | [] => 0
  | part :: rest =>
    if strip (beforeFirst ':' part) ≠ "workspace_entry_id" then entryIdOfParts rt rest
    else
      let text := strip (afterFirst ':' part)
      if text = "" then 0 else (rt.parseInt text).getD 0

/-- `_workspace_entry_id_from_result`. -/
def workspaceEntryIdFromResult (rt : PyRuntime) (result : PyVal) : Except PyError ℤ := do
  let metadata := (← result.getAttr "metadata").asDict?.getD []
  let direct ← (((PyDict.get metadata "workspace_entry_id").or
    (← result.getAttr "workspace_entry_id")).or (.int 0)).toInt rt
  if 0 < direct then return direct
  return entryIdOfParts rt (splitOn ';' ((PyDict.get metadata "value").strOr rt ""))

/-- `_serialize_output`: JSON where the output has a JSON form, else `str(output)`. -/
def serializeOutput (rt : PyRuntime) (output : PyDict) : String :=
  ((PyVal.dict output).jsonDumps? rt).getD (rt.reprOf (.dict output))

/-- `_tool_result_artifact`. -/
def toolResultArtifact (rt : PyRuntime) (toolName stepId : String) (output : PyDict) : PyVal :=
  .dict [("id", .str s!"{stepId}-result"), ("artifact_type", .str "tool_result"),
    ("tool", .str toolName), ("source_step_id", .str stepId),
    ("result", .str (serializeOutput rt output)), ("output", .str (serializeOutput rt output))]

/-- The artifact of one semantic search hit. -/
def semanticSearchArtifact (toolName stepId : String) (rank : ℕ) (entryId : ℤ)
    (similarity : PyVal) : PyVal :=
  .dict [("id", .str s!"{stepId}-semantic-{rank}"),
    ("artifact_type", .str "semantic_search_result"), ("tool", .str toolName),
    ("source_step_id", .str stepId), ("rank", .int rank),
    ("workspace_entry_id", .int entryId), ("similarity", similarity)]

/-- The search hits with a workspace entry, from the given rank on. -/
def semanticArtifacts (rt : PyRuntime) (toolName stepId : String) :
    ℕ → List PyVal → Except PyError (List PyVal)
  | _, [] => .ok []
  | rank, result :: rest => do
    let entryId ← workspaceEntryIdFromResult rt result
    let similarity ← result.getAttr "similarity"
    let tail ← semanticArtifacts rt toolName stepId (rank + 1) rest
    return if entryId ≤ 0 then tail
      else semanticSearchArtifact toolName stepId rank entryId similarity :: tail

/-- `list(value)` for the value a search puts under `results`: iterating a string or a
dictionary gives strings. -/
def iterate : PyVal → Except PyError (List PyVal)
  | .list xs => .ok xs
  | .tuple xs => .ok xs
  | .dict kvs => .ok (kvs.map fun e => .str e.1)
  | .str s => .ok (s.toList.map fun c => .str c.toString)
  | _ => .error .typeError

/-- `collect_result_artifacts`. -/
def collectResultArtifacts (rt : PyRuntime) (toolName stepId : String) (output : PyDict)
    (baseArtifacts : List PyVal) : Except PyError (List PyVal) := do
  let artifacts := baseArtifacts ++ [toolResultArtifact rt toolName stepId output]
  if toolName ≠ "memory_semantic_search" then return artifacts
  let results ← iterate ((PyDict.get output "results").or (.list []))
  return artifacts ++ (← semanticArtifacts rt toolName stepId 0 results)

/-! ### Evidence -/

/-- `_evidence_types`. -/
def evidenceTypes (detail : Option ToolDetail) : List String :=
  match detail with
  | some d => (d.capabilityEvidenceTypes.map strip).filter (· ≠ "")
  | none => []

/-- `_metadata` of a validated evidence artifact. -/
def evidenceMetadata (fingerprint : String) : PyDict :=
  [("validated_evidence", .bool true), ("legacy_tool_result", .bool false)] ++
    (if fingerprint = "" then [] else [("operation_contract_fingerprint", .str fingerprint)])

/-- One validated evidence artifact. -/
def evidenceArtifact (toolName stepId : String) (output : PyDict) (fingerprint : String)
    (evidenceType : String) : PyVal :=
  .dict [("id", .str s!"{stepId}-evidence-{evidenceType}"), ("artifact_type", .str evidenceType),
    ("tool", .str toolName), ("source_step_id", .str stepId), ("content", .dict output),
    ("metadata", .dict (evidenceMetadata fingerprint))]

/-- `validated_evidence_artifacts`. -/
def validatedEvidenceArtifacts (toolName stepId : String) (output : PyDict)
    (detail : Option ToolDetail) (structuralResult : Option PyVal)
    (structuralValidationStatus : TaskStructuralValidationStatus)
    (operationContractFingerprint : Option String) : List PyVal :=
  if structuralValidationStatus ≠ .valid ∨ structuralResult = none then []
  else (evidenceTypes detail).map
    (evidenceArtifact toolName stepId output (strip (operationContractFingerprint.getD "")))

/-! ### Executability -/

/-- `_argument_keys`. -/
def argumentKeys (requiredArg : String) : List String :=
  if requiredArg = "container_id_or_name" then
    ["container_id_or_name", "container_id", "container_name"]
  else [requiredArg]

/-- `_has_bound_arg`. -/
def hasBoundArg (rt : PyRuntime) (arguments : PyDict) (requiredArg : String) : Bool :=
  (argumentKeys requiredArg).any fun key =>
    match PyDict.get arguments key with
    | .none => false
    | value => strip (value.toStr rt) ≠ ""

/-- `check_executable_now`: the error, or `none` when the call is allowed. -/
def checkExecutableNow (rt : PyRuntime) (call : TaskToolCall) (details : Option ToolDetails) :
    Option String :=
  match details with
  | none => some "missing_tool_metadata"
  | some byName => match byName.lookup (strip call.toolName) with
    | none => some "missing_tool_metadata"
    | some detail =>
      let required := (detail.capabilityRequiredArgs.map strip).filter (· ≠ "")
      let missing := required.filter fun arg => !hasBoundArg rt call.arguments arg
      if missing.isEmpty then none
      else some ("missing_required_args:" ++ ",".intercalate missing)

/-! ### `execute_step` -/

/-- `_timeout_for_step`: at least a fifth of a second. -/
def timeoutForStep (step : PlanStep) (defaultTimeoutS : ℚ) : PyFloat :=
  let timeout := step.timeoutS.getD (.finite defaultTimeoutS)
  if timeout = .nan ∨ timeout.le (.finite (1 / 5)) then .finite (1 / 5) else timeout

/-- `build_tool_call`. -/
def buildToolCall (rt : PyRuntime) (step : PlanStep) (artifacts : List PyVal)
    (defaultTimeoutS : ℚ) (outputSchema : Option PyDict) : Except PyError TaskToolCall := do
  return {
    toolName := step.toolName
    arguments := ← resolveToolArguments rt step.toolArguments artifacts
    stepId := step.stepId
    timeoutS := timeoutForStep step defaultTimeoutS
    outputSchema := outputSchema }

/-- `blocked_execution_result`. -/
def blockedExecutionResult (stepId error : String) (status : StepExecutionStatus)
    (receipt : Option StepOperationReceipt) : StepExecutionResult :=
  { stepId := stepId, status := status, error := some error, receipt := receipt }

/-- The settings `execute_step` is called with throughout a run. -/
structure ExecutorSettings where
  rt : PyRuntime
  defaultTimeoutS : ℚ := 30
  toolDetailsByName : Option ToolDetails := none
  operationContractFingerprint : Option String := none

/-- The entry of a tool in `tool_details_by_name or {}`. -/
def ExecutorSettings.detail (cfg : ExecutorSettings) (toolName : String) : Option ToolDetail :=
  (cfg.toolDetailsByName.getD []).lookup toolName

/-- The MCP output schema a call is made with. -/
def outputSchemaFor (detail : Option ToolDetail) : Option PyDict :=
  match detail with
  | some d => if d.capabilityOutputSchema = "mcp_output_schema" then d.outputSchema else none
  | none => none

/-- Where `execute_step` stands when it reaches its call of the tool runner. -/
inductive PreparedStep where
  | finished (result : StepExecutionResult)
  | ready (call : TaskToolCall)

/-- `execute_step` up to its call of the tool runner. -/
def prepareStep (cfg : ExecutorSettings) (step : PlanStep) (governorSnapshot : TaskLoopSnapshot)
    (receipt : Option StepOperationReceipt) (nowTs : ℚ) : Except PyError PreparedStep := do
  if step.tool.getD "" = "" then
    return .finished (blockedExecutionResult step.stepId "missing_tool" .skipped receipt)
  let call ← buildToolCall cfg.rt step governorSnapshot.artifacts cfg.defaultTimeoutS
    (outputSchemaFor (cfg.detail step.toolName))
  match checkExecutableNow cfg.rt call cfg.toolDetailsByName with
  | some error => return .finished (blockedExecutionResult step.stepId error .failed receipt)
  | none =>
    let governorError := toolcallGovernorError governorSnapshot nowTs
    if governorError ≠ "" then
      return .finished (blockedExecutionResult step.stepId governorError .failed receipt)
    return .ready call

/-- The artifacts a tool wrote into its own result. -/
def selfWrittenArtifacts (output : PyDict) : List PyVal :=
  (PyDict.get output "artifacts").asList?.getD []

/-- `execute_step` from the tool runner's answer on. -/
def finishStep (cfg : ExecutorSettings) (step : PlanStep)
    (receipt : Option StepOperationReceipt) (call : TaskToolCall) :
    ToolReply → Except PyError StepExecutionResult
  | .raised message => .ok {
      stepId := step.stepId
      status := .failed
      error := some message
      toolCallStarted := true
      receipt := receipt }
  | .returned r =>
    if !r.success then
      let error := r.error.getD ""
      .ok {
        stepId := step.stepId
        status := if startsWith error "mcp_timeout:" then .timeout else .failed
        output := r.result
        error := some (orElse error "tool_failed")
        toolCallStarted := true
        receipt := receipt }
    else do
      let evidence := validatedEvidenceArtifacts call.toolName step.stepId r.result
        (cfg.detail call.toolName) r.structuralResult r.structuralValidationStatus
        cfg.operationContractFingerprint
      let collected ← collectResultArtifacts cfg.rt (step.tool.getD "") step.stepId r.result
        (selfWrittenArtifacts r.result ++ evidence)
      return {
        stepId := step.stepId
        status := .success
        output := r.result
        artifacts := collected
        toolCallStarted := true
        receipt := receipt
        structuralResult := r.structuralResult }

/-- What one run of `execute_step` did: the call it made of the tool runner, if any, the
answer, and the result it returned or the exception that escaped from it. -/
structure StepRun where
  call : Option TaskToolCall := none
  reply : Option ToolReply := none
  outcome : Except PyError StepExecutionResult

/-- `execute_step`. -/
def executeStep {W : Type} (cfg : ExecutorSettings)
    (toolRunner : W → TaskToolCall → ToolReply × W) (world : W) (step : PlanStep)
    (governorSnapshot : TaskLoopSnapshot) (receipt : Option StepOperationReceipt) (nowTs : ℚ) :
    StepRun × W :=
  match prepareStep cfg step governorSnapshot receipt nowTs with
  | .error e => ({ outcome := .error e }, world)
  | .ok (.finished result) => ({ outcome := .ok result }, world)
  | .ok (.ready call) =>
    let (reply, world') := toolRunner world call
    ({ call := some call, reply := some reply, outcome := finishStep cfg step receipt call reply },
      world')

/-! ### What a step's result says -/

section Results

variable {cfg : ExecutorSettings} {step : PlanStep} {governorSnapshot : TaskLoopSnapshot}
  {receipt : Option StepOperationReceipt} {nowTs : ℚ} {call : TaskToolCall} {reply : ToolReply}
  {result : StepExecutionResult}

/-- A step that ends before its tool call has not succeeded and has no artifacts. -/
lemma prepareStep_finished
    (h : prepareStep cfg step governorSnapshot receipt nowTs = .ok (.finished result)) :
    ∃ error status, status ≠ .success ∧
      result = blockedExecutionResult step.stepId error status receipt := by
  unfold prepareStep at h
  split at h
  · obtain rfl : _ = result := by simpa [bind, Except.bind, pure, Except.pure] using h
    exact ⟨_, _, by decide, rfl⟩
  · cases hcall : buildToolCall cfg.rt step governorSnapshot.artifacts cfg.defaultTimeoutS
      (outputSchemaFor (cfg.detail step.toolName)) with
    | error e => simp [hcall, bind, Except.bind] at h
    | ok call =>
      simp only [hcall, bind, Except.bind, pure, Except.pure] at h
      split at h
      · obtain rfl : _ = result := by simpa using h
        exact ⟨_, _, by decide, rfl⟩
      · split at h
        · obtain rfl : _ = result := by simpa using h
          exact ⟨_, _, by decide, rfl⟩
        · simp at h

/-- A step that reaches its tool call has a tool, and the call names it. -/
lemma prepareStep_ready
    (h : prepareStep cfg step governorSnapshot receipt nowTs = .ok (.ready call)) :
    step.tool.getD "" ≠ "" ∧ call.toolName = step.toolName ∧ call.stepId = step.stepId ∧
      checkExecutableNow cfg.rt call cfg.toolDetailsByName = none := by
  unfold prepareStep at h
  split at h
  · simp [pure, Except.pure] at h
  · rename_i htool
    cases hcall : buildToolCall cfg.rt step governorSnapshot.artifacts cfg.defaultTimeoutS
      (outputSchemaFor (cfg.detail step.toolName)) with
    | error e => simp [hcall, bind, Except.bind] at h
    | ok built =>
      simp only [hcall, bind, Except.bind, pure, Except.pure] at h
      split at h
      · simp at h
      · rename_i hexecutable
        split at h
        · simp at h
        · obtain rfl : built = call := by simpa using h
          refine ⟨htool, ?_, ?_, hexecutable⟩
          all_goals
            unfold buildToolCall at hcall
            cases hargs : resolveToolArguments cfg.rt step.toolArguments governorSnapshot.artifacts
              with
            | error e => simp [hargs, bind, Except.bind] at hcall
            | ok arguments =>
              obtain rfl : _ = built := by
                simpa [hargs, bind, Except.bind, pure, Except.pure] using hcall
              rfl

/-- A result after a tool call is about its step, has its receipt, and counts the call. -/
lemma finishStep_ok (h : finishStep cfg step receipt call reply = .ok result) :
    result.stepId = step.stepId ∧ result.receipt = receipt ∧ result.toolCallStarted = true := by
  unfold finishStep at h
  split at h
  · obtain rfl := Except.ok.inj h
    exact ⟨rfl, rfl, rfl⟩
  · split at h
    · obtain rfl := Except.ok.inj h
      exact ⟨rfl, rfl, rfl⟩
    · simp only [bind, Except.bind, pure, Except.pure] at h
      split at h
      · cases h
      · obtain rfl := Except.ok.inj h
        exact ⟨rfl, rfl, rfl⟩

variable {W : Type} {toolRunner : W → TaskToolCall → ToolReply × W} {world : W}

/-- The result of a step is about the step and has its receipt; it counts a tool call exactly
if one was made. -/
lemma executeStep_ok
    (h : (executeStep cfg toolRunner world step governorSnapshot receipt nowTs).1.outcome =
      .ok result) :
    result.stepId = step.stepId ∧ result.receipt = receipt ∧ (result.toolCallStarted = true ↔
      (executeStep cfg toolRunner world step governorSnapshot receipt nowTs).1.call.isSome) := by
  unfold executeStep at h ⊢
  cases hprepared : prepareStep cfg step governorSnapshot receipt nowTs with
  | error e => simp [hprepared] at h
  | ok prepared =>
    cases prepared with
    | finished blocked =>
      obtain ⟨error, status, -, rfl⟩ := prepareStep_finished hprepared
      obtain rfl : _ = result := by simpa [hprepared] using h
      simp [blockedExecutionResult]
    | ready call =>
      simp only [hprepared] at h ⊢
      obtain ⟨hid, hreceipt, hstarted⟩ := finishStep_ok h
      simp [hid, hreceipt, hstarted]

end Results

end Trion.TaskLoop
