import Trion.TaskLoop.Runs

/-!
# Where artifacts come from

A run holds exactly the artifacts that the results of its executions brought, in their order.
Each of them was written by the tool itself, attested by the evidence adapter, or derived by
the collector from the tool's output.
-/

namespace Trion.TaskLoop

open Trion.Python Trion.Thinking StepMachine

/-- The artifacts a run of `execute_step` brings: those of its result, none if it raised. -/
def StepRun.artifacts (run : StepRun) : List PyVal :=
  match run.outcome with
  | .ok result => result.artifacts
  | .error _ => []

/-- The artifacts an execution brings. -/
def Execution.artifacts (e : Execution) : List PyVal := e.run.artifacts

/-- The artifacts an event brings, each with its execution. -/
def LoopEvent.produced : LoopEvent → List (Execution × PyVal)
  | .executed e => e.artifacts.map (e, ·)
  | .replanned _ _ => []

/-- The artifacts of a run, in order, each with the execution that brought it. -/
def produced (events : List LoopEvent) : List (Execution × PyVal) :=
  events.flatMap LoopEvent.produced

@[simp] lemma produced_nil : produced [] = [] := rfl

@[simp] lemma produced_append (es fs : List LoopEvent) :
    produced (es ++ fs) = produced es ++ produced fs := by
  simp [produced]

@[simp] lemma produced_cons (event : LoopEvent) (events : List LoopEvent) :
    produced (event :: events) = event.produced ++ produced events := by
  simp [produced]

@[simp] lemma produced_executed (e : Execution) :
    (LoopEvent.executed e).produced = e.artifacts.map (e, ·) := rfl

@[simp] lemma produced_replanned (request : ReplanRequest) (reply : ReplanReply) :
    (LoopEvent.replanned request reply).produced = [] := rfl

/-- What a run has brought was brought by one of its executions. -/
lemma mem_produced {events : List LoopEvent} {e : Execution} {artifact : PyVal} :
    (e, artifact) ∈ produced events ↔ .executed e ∈ events ∧ artifact ∈ e.artifacts := by
  rw [produced, List.mem_flatMap]
  constructor
  · rintro ⟨event, hevent, hmem⟩
    cases event with
    | replanned => simp at hmem
    | executed e' =>
      obtain ⟨artifact', hartifact, heq⟩ := List.mem_map.1 hmem
      obtain ⟨rfl, rfl⟩ := Prod.mk.inj heq
      exact ⟨hevent, hartifact⟩
  · rintro ⟨hevent, hartifact⟩
    exact ⟨_, hevent, List.mem_map_of_mem hartifact⟩

variable {W : Type} {cfg : LoopConfig W} {st st' : LoopState W} {step : PlanStep}
  {result : StepExecutionResult} {events history : List LoopEvent}

/-- The artifacts a run has brought, in order. -/
abbrev broughtArtifacts (events : List LoopEvent) : List PyVal := (produced events).map Prod.snd

/-- An execution that returns brings the artifacts of its result. -/
lemma Executes.artifacts_eq (h : Executes cfg st step result) :
    (stepExecution cfg st step).artifacts = result.artifacts := by
  have houtcome : (stepExecution cfg st step).run.outcome = .ok result := h.outcome
  rw [Execution.artifacts, StepRun.artifacts, houtcome]

/-- The events of a step that executes bring what the execution does. -/
lemma Executes.brought (h : Executes cfg st step result) (more : List LoopEvent)
    (hmore : produced more = []) :
    broughtArtifacts (.executed (stepExecution cfg st step) :: more) = result.artifacts := by
  rw [broughtArtifacts, produced_cons, hmore, produced_executed, h.artifacts_eq, List.append_nil,
    List.map_map]
  exact List.map_id _

/-- A step that goes on adds to the snapshot what it has brought. -/
lemma NextCases.artifacts_eq (h : NextCases cfg st events st') :
    st'.snapshot.artifacts = st.snapshot.artifacts ++ broughtArtifacts events := by
  cases h with
  | expands hexec =>
    rw [hexec.brought [] rfl]
    exact advancedSnapshot_artifacts ..
  | advances hexec =>
    rw [hexec.brought [] rfl]
    exact advancedSnapshot_artifacts ..
  | retries hexec =>
    rw [hexec.brought [] rfl]
    exact retriedSnapshot_artifacts ..
  | replans hreplans =>
    rw [hreplans.brought _ rfl]
    exact hreplans.source.artifacts

/-- So does a step that ends waiting. -/
lemma HaltCases.artifacts_eq {final : TaskLoopResult} {last : W}
    (h : HaltCases cfg st events { outcome := .ok final, world := last })
    (hwaiting : final.snapshot.state = .waiting) :
    final.snapshot.artifacts = st.snapshot.artifacts ++ broughtArtifacts events := by
  rcases h.waiting hwaiting with ⟨step, wait, -, rfl, rfl⟩ | ⟨step, r, hexec, -, rfl, rfl⟩
  · exact (List.append_nil _).symm
  · rw [hexec.brought [] rfl]
    exact endedSnapshot_artifacts ..

/-- The artifacts of a snapshot in a session are the artifacts the session has brought. -/
theorem SessionCall.artifacts_eq {P : LoopCall W → Prop} {call : LoopCall W}
    (h : SessionCall P call history) (hreach : (loopStep call.cfg).Reaches call.state events st) :
    st.snapshot.artifacts = broughtArtifacts (history ++ events) := by
  refine h.trace_invariant (I := fun es s => s.snapshot.artifacts = broughtArtifacts es)
    ?_ ?_ ?_ hreach
  · intro cfg plan options world _
    rfl
  · intro call es s fs t _ _ _ hI hnext
    rw [hnext.artifacts_eq, hI, broughtArtifacts, broughtArtifacts, broughtArtifacts,
      produced_append, List.map_append]
  · intro call es s fs result plan stepReceipts receiptValidator last world _ _ _ hI hhalt hwaiting _
    change result.snapshot.artifacts = _
    rw [hhalt.artifacts_eq hwaiting, hI, broughtArtifacts, broughtArtifacts, broughtArtifacts,
      produced_append, List.map_append]

/-! ### The artifacts of one result -/

/-- The ways in which an artifact gets into the result of a step whose tool answered. -/
inductive ArtifactSource (cfg : ExecutorSettings) (step : PlanStep) (reply : TaskToolResult) :
    PyVal → Prop
  | selfWritten {artifact : PyVal} : artifact ∈ selfWrittenArtifacts reply.result →
      ArtifactSource cfg step reply artifact
  | evidence {evidenceType : String} : reply.structuralValidationStatus = .valid →
      evidenceType ∈ evidenceTypes (cfg.detail step.toolName) →
      ArtifactSource cfg step reply (evidenceArtifact step.toolName step.stepId reply.result
        (strip (cfg.operationContractFingerprint.getD "")) evidenceType)
  | toolResult : ArtifactSource cfg step reply
      (toolResultArtifact cfg.rt (step.tool.getD "") step.stepId reply.result)
  | semantic {rank : ℕ} {entryId : ℤ} {similarity : PyVal} : ArtifactSource cfg step reply
      (semanticSearchArtifact (step.tool.getD "") step.stepId rank entryId similarity)

/-- The hits of a search are semantic search artifacts of the step. -/
lemma mem_semanticArtifacts {rt : PyRuntime} {toolName stepId : String} {rank : ℕ}
    {results artifacts : List PyVal} {artifact : PyVal}
    (h : semanticArtifacts rt toolName stepId rank results = .ok artifacts)
    (hmem : artifact ∈ artifacts) : ∃ rank entryId similarity,
      artifact = semanticSearchArtifact toolName stepId rank entryId similarity := by
  induction results generalizing rank artifacts with
  | nil =>
    obtain rfl : [] = artifacts := by simpa [semanticArtifacts] using h
    simp at hmem
  | cons hit rest ih =>
    rw [semanticArtifacts] at h
    simp only [bind, Except.bind, pure, Except.pure] at h
    split at h
    · cases h
    · split at h
      · cases h
      · split at h
        · cases h
        · rename_i tail htail
          obtain rfl := Except.ok.inj h
          split at hmem
          · exact ih htail hmem
          · rcases List.mem_cons.1 hmem with rfl | hmem
            · exact ⟨_, _, _, rfl⟩
            · exact ih htail hmem

/-- The collector adds the tool's result and the hits of a search to what it is given. -/
lemma mem_collectResultArtifacts {rt : PyRuntime} {toolName stepId : String} {output : PyDict}
    {base artifacts : List PyVal} {artifact : PyVal}
    (h : collectResultArtifacts rt toolName stepId output base = .ok artifacts)
    (hmem : artifact ∈ artifacts) :
    artifact ∈ base ∨ artifact = toolResultArtifact rt toolName stepId output ∨
      ∃ rank entryId similarity,
        artifact = semanticSearchArtifact toolName stepId rank entryId similarity := by
  rw [collectResultArtifacts] at h
  have hbase : ∀ a ∈ base ++ [toolResultArtifact rt toolName stepId output],
      a ∈ base ∨ a = toolResultArtifact rt toolName stepId output := by
    simp
  split at h
  · obtain rfl := Except.ok.inj h
    exact (hbase _ hmem).imp_right .inl
  · simp only [bind, Except.bind, pure, Except.pure] at h
    split at h
    · cases h
    · split at h
      · cases h
      · rename_i hits hhits
        obtain rfl := Except.ok.inj h
        rcases List.mem_append.1 hmem with hmem | hmem
        · exact (hbase _ hmem).imp_right .inl
        · exact .inr (.inr (mem_semanticArtifacts hhits hmem))

/-- The artifacts of a step's result, by the answer of its tool. -/
def repliedArtifacts (settings : ExecutorSettings) (step : PlanStep) : Option ToolReply → List PyVal
  | some (.returned reply) =>
    if reply.success then
      let evidence := validatedEvidenceArtifacts step.toolName step.stepId reply.result
        (settings.detail step.toolName) reply.structuralResult reply.structuralValidationStatus
        settings.operationContractFingerprint
      (collectResultArtifacts settings.rt (step.tool.getD "") step.stepId reply.result
        (selfWrittenArtifacts reply.result ++ evidence)).toOption.getD []
    else []
  | _ => []

section Results

variable {settings : ExecutorSettings} {receipt : Option StepOperationReceipt}
  {call : TaskToolCall} {raw : PyVal}

lemma finishStep_artifacts (htool : call.toolName = step.toolName) (reply : ToolReply) :
    StepRun.artifacts
        { call := some call, reply := some reply,
          outcome := finishStep settings step receipt call reply } =
      repliedArtifacts settings step (some reply) := by
  rw [StepRun.artifacts]
  cases reply with
  | raised message => rfl
  | returned reply =>
    rw [finishStep, repliedArtifacts, htool]
    cases reply.success with
    | false => rfl
    | true =>
      dsimp only
      rw [if_neg (by simp), if_pos rfl]
      cases collectResultArtifacts settings.rt (step.tool.getD "") step.stepId reply.result
        (selfWrittenArtifacts reply.result ++ validatedEvidenceArtifacts step.toolName step.stepId
          reply.result (settings.detail step.toolName) reply.structuralResult
          reply.structuralValidationStatus settings.operationContractFingerprint) <;> rfl

/-- What `execute_step` brings is determined by the step and the answer of the tool. -/
lemma executeStep_artifacts {toolRunner : W → TaskToolCall → ToolReply × W} {world : W}
    {governorSnapshot : TaskLoopSnapshot} {nowTs : ℚ} :
    (executeStep settings toolRunner world step governorSnapshot receipt nowTs).1.artifacts =
      repliedArtifacts settings step
        (executeStep settings toolRunner world step governorSnapshot receipt nowTs).1.reply := by
  unfold executeStep
  cases hprepared : prepareStep settings step governorSnapshot receipt nowTs with
  | error e => rfl
  | ok prepared =>
    cases prepared with
    | finished blocked =>
      obtain ⟨error, status, -, rfl⟩ := prepareStep_finished hprepared
      rfl
    | ready call => exact finishStep_artifacts (prepareStep_ready hprepared).2.1 _

/-- Each of these artifacts comes from the tool's answer in one of the listed ways. -/
lemma mem_repliedArtifacts {reply : Option ToolReply}
    (hmem : raw ∈ repliedArtifacts settings step reply) :
    ∃ r, reply = some (.returned r) ∧ ArtifactSource settings step r raw := by
  unfold repliedArtifacts at hmem
  split at hmem
  · rename_i r
    refine ⟨r, rfl, ?_⟩
    split at hmem
    · dsimp only at hmem
      cases hcollected : collectResultArtifacts settings.rt (step.tool.getD "") step.stepId r.result
        (selfWrittenArtifacts r.result ++ validatedEvidenceArtifacts step.toolName step.stepId
          r.result (settings.detail step.toolName) r.structuralResult r.structuralValidationStatus
          settings.operationContractFingerprint) with
      | error e => simp [hcollected, Except.toOption] at hmem
      | ok collected =>
        rw [hcollected] at hmem
        rcases mem_collectResultArtifacts hcollected hmem with hbase | rfl | ⟨_, _, _, rfl⟩
        · rcases List.mem_append.1 hbase with hself | hevidence
          · exact .selfWritten hself
          · rw [validatedEvidenceArtifacts] at hevidence
            split at hevidence
            · simp at hevidence
            · rename_i hvalid
              rw [not_or, not_not] at hvalid
              obtain ⟨evidenceType, htype, rfl⟩ := List.mem_map.1 hevidence
              exact .evidence hvalid.1 htype
        · exact .toolResult
        · exact .semantic
    · simp at hmem
  · simp at hmem

end Results

/-! ### The artifacts a plan is judged by -/

/-- At the end of these events of a run, the completion gate judges the plan in force by this
evidence. -/
inductive EvaluatesOutcome (cfg : LoopConfig W) (start : LoopState W) :
    List LoopEvent → ThinkingPlan → List EvidenceArtifact → Prop
  | intro {before : List LoopEvent} {st : LoopState W} {step : PlanStep}
      {result : StepExecutionResult} {evidence : List EvidenceArtifact} :
      (loopStep cfg).Reaches start before st → Executes cfg st step result →
      (stepExpansion cfg st step result).1 = none →
      (stepDecision cfg st step result).action = .completed →
      unresolvedAdditionalEvidenceTools cfg.rt st.plan
        (endedSnapshot cfg st step result).artifacts = [] →
      (endedSnapshot cfg st step result).artifacts.mapM (EvidenceArtifact.fromDict cfg.rt) =
        .ok evidence →
      EvaluatesOutcome cfg start (before ++ [.executed (stepExecution cfg st step)]) st.plan
        evidence

/-- The evidence a plan is judged by is read from the artifacts the session has brought. -/
theorem EvaluatesOutcome.evidence {P : LoopCall W → Prop} {call : LoopCall W}
    {plan : ThinkingPlan} {evidence : List EvidenceArtifact} (h : SessionCall P call history)
    (hat : EvaluatesOutcome call.cfg call.state events plan evidence) :
    List.Forall₂ (fun raw a => EvidenceArtifact.fromDict call.cfg.rt raw = .ok a)
      (broughtArtifacts (history ++ events)) evidence := by
  obtain ⟨hreach, hexec, -, -, -, hevidence⟩ := hat
  rename_i before st step result
  have hartifacts : (endedSnapshot call.cfg st step result).artifacts =
      broughtArtifacts (history ++ (before ++ [.executed (stepExecution call.cfg st step)])) := by
    rw [endedSnapshot_artifacts, h.artifacts_eq hreach, ← hexec.brought [] rfl, ← List.append_assoc,
      broughtArtifacts, broughtArtifacts, broughtArtifacts, produced_append _ [_], List.map_append]
  rw [hartifacts] at hevidence
  exact mapM_eq_ok_iff.mp hevidence

/-- Each piece of evidence was brought by an execution of the session. -/
lemma EvaluatesOutcome.exists_produced {P : LoopCall W → Prop} {call : LoopCall W}
    {plan : ThinkingPlan} {evidence : List EvidenceArtifact} {a : EvidenceArtifact}
    (h : SessionCall P call history)
    (hat : EvaluatesOutcome call.cfg call.state events plan evidence) (ha : a ∈ evidence) :
    ∃ e raw, (e, raw) ∈ produced (history ++ events) ∧
      EvidenceArtifact.fromDict call.cfg.rt raw = .ok a := by
  have hread := List.forall₂_map_left_iff.1 (hat.evidence h)
  obtain ⟨p, hmem, hp⟩ := exists_of_mem_forall₂ hread ha
  exact ⟨p.1, p.2, hmem, hp⟩

/-- The executions of a session up to an evaluation were made by passes of its calls. -/
lemma EvaluatesOutcome.exists_starts {P : LoopCall W → Prop} {call : LoopCall W}
    {plan : ThinkingPlan} {evidence : List EvidenceArtifact} {e : Execution}
    (h : SessionCall P call history)
    (hat : EvaluatesOutcome call.cfg call.state events plan evidence)
    (he : .executed e ∈ history ++ events) :
    ∃ made s step, P made ∧ Starts made.cfg s step ∧ e = stepExecution made.cfg s step := by
  obtain ⟨hreach, hexec, -, -, -, -⟩ := hat
  rw [← List.append_assoc, List.mem_append, List.mem_singleton] at he
  rcases he with he | he
  · exact h.exists_starts hreach he
  · obtain rfl := LoopEvent.executed.inj he
    exact ⟨call, _, _, h.property, hexec.toStarts, rfl⟩

/-! ### What an artifact says -/

/-- The evidence types of a tool are not empty. -/
lemma ne_empty_of_mem_evidenceTypes {detail : Option ToolDetail} {evidenceType : String}
    (h : evidenceType ∈ evidenceTypes detail) : evidenceType ≠ "" := by
  cases detail with
  | none => simp [evidenceTypes] at h
  | some d => simpa using (List.mem_filter.1 h).2

section Reading

variable {rt : PyRuntime} {settings : ExecutorSettings} {reply : TaskToolResult} {raw : PyVal}
  {a : EvidenceArtifact}

/-- A step id is read back as it was written. -/
lemma strOr_stepId (stepId : String) : ((PyVal.str stepId).or .none).strOr rt "" = stepId := by
  by_cases h : stepId = ""
  · subst h
    rfl
  · simp [PyVal.or, PyVal.strOr, PyVal.truthy, PyVal.toStr, h]

lemma fromDict_evidenceArtifact {toolName stepId evidenceType fingerprint : String} {output : PyDict}
    (htype : evidenceType ≠ "")
    (h : EvidenceArtifact.fromDict rt
      (evidenceArtifact toolName stepId output fingerprint evidenceType) = .ok a) :
    a.stepId = stepId ∧ a.artifactType = evidenceType ∧
      a.metadata = evidenceMetadata fingerprint := by
  obtain rfl := Except.ok.inj h
  refine ⟨strOr_stepId stepId, ?_, ?_⟩
  · simp [PyDict.get, List.lookup_cons, PyVal.or, PyVal.strOr, PyVal.truthy, PyVal.toStr, htype]
  · by_cases hfingerprint : fingerprint = "" <;>
      simp [artifactMetadata, PyDict.get, List.lookup_cons, PyDict.without, evidenceMetadata,
        hfingerprint]

lemma fromDict_toolResultArtifact {rt' : PyRuntime} {toolName stepId : String} {output : PyDict}
    (h : EvidenceArtifact.fromDict rt (toolResultArtifact rt' toolName stepId output) = .ok a) :
    a.stepId = stepId ∧ a.artifactType = "tool_result" ∧
      a.metadata = [("id", .str s!"{stepId}-result"), ("tool", .str toolName)] := by
  obtain rfl := Except.ok.inj h
  refine ⟨strOr_stepId stepId, rfl, ?_⟩
  simp [artifactMetadata, PyDict.get, List.lookup_cons, PyDict.without]

lemma fromDict_semanticSearchArtifact {toolName stepId : String} {rank : ℕ} {entryId : ℤ}
    {similarity : PyVal}
    (h : EvidenceArtifact.fromDict rt
      (semanticSearchArtifact toolName stepId rank entryId similarity) = .ok a) :
    a.stepId = stepId ∧ PyDict.get a.metadata "validated_evidence" = .none := by
  obtain rfl := Except.ok.inj h
  refine ⟨strOr_stepId stepId, ?_⟩
  simp [artifactMetadata, PyDict.get, List.lookup_cons, PyDict.without]

/-- An artifact that the tool did not write itself names the step. -/
lemma ArtifactSource.stepId {step : PlanStep} (h : ArtifactSource settings step reply raw)
    (ha : EvidenceArtifact.fromDict rt raw = .ok a) :
    raw ∈ selfWrittenArtifacts reply.result ∨ a.stepId = step.stepId := by
  cases h with
  | selfWritten hself => exact .inl hself
  | evidence _ htype =>
    exact .inr (fromDict_evidenceArtifact (ne_empty_of_mem_evidenceTypes htype) ha).1
  | toolResult => exact .inr (fromDict_toolResultArtifact ha).1
  | semantic => exact .inr (fromDict_semanticSearchArtifact ha).1

end Reading

end Trion.TaskLoop
