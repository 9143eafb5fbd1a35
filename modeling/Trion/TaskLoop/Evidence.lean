import Trion.TaskLoop.Provenance

/-!
# What counts as evidence

The evaluator counts an artifact for a required evidence type if its metadata carry the mark
of a validated result and the fingerprint of the contract.  The adapter writes these only for
a structurally valid result of a tool that declares the type; but a tool may write artifacts
of its own, and the evaluator reads their metadata like any others.  So evidence is earned,
and the outcome does not depend on what a tool writes into its metadata, as long as none of
the tools' own artifacts carry the mark and the fingerprint themselves.
-/

namespace Trion.TaskLoop

open Trion.Python Trion.Thinking StepMachine OutcomeEvaluator

variable {W : Type} {settings : ExecutorSettings} {events history : List LoopEvent}
  {plan : ThinkingPlan} {evidence : List EvidenceArtifact} {step : PlanStep} {e : Execution}

/-- A call runs with the tools, the runtime and the contract of the given settings. -/
structure SameContract (settings : ExecutorSettings) (call : LoopCall W) : Prop where
  rt_eq : call.cfg.rt = settings.rt
  details_eq : call.cfg.toolDetailsByName = settings.toolDetailsByName
  fingerprint_eq : call.cfg.operationContractFingerprint = settings.operationContractFingerprint

/-- An artifact that the evaluator counts for required evidence. -/
def Counts (settings : ExecutorSettings) (a : EvidenceArtifact) : Bool :=
  countsForRequiredEvidence settings.rt settings.operationContractFingerprint a

/-- No artifact that the tool wrote itself counts for required evidence. -/
def Unforged (settings : ExecutorSettings) (e : Execution) : Prop :=
  ∀ reply, e.run.reply = some (.returned reply) →
    ∀ raw ∈ selfWrittenArtifacts reply.result, ∀ a,
      EvidenceArtifact.fromDict settings.rt raw = .ok a → Counts settings a = false

/-- Evidence of a type was earned by a step: a result of that step was structurally valid, the
tool declares the type, and the run has a contract to attest it under. -/
def Earned (settings : ExecutorSettings) (events : List LoopEvent) (step : PlanStep)
    (evidenceType : String) : Prop :=
  ∃ e reply, .executed e ∈ events ∧ e.step.stepId = step.stepId ∧
    e.run.reply = some (.returned reply) ∧ reply.structuralValidationStatus = .valid ∧
    evidenceType ∈ evidenceTypes (settings.detail e.step.toolName) ∧
    strip (settings.operationContractFingerprint.getD "") ≠ ""

/-! ### Counted evidence is earned -/

/-- Only artifacts with the mark of a validated result count. -/
lemma counts_false_of_unmarked {a : EvidenceArtifact}
    (h : PyDict.get a.metadata "validated_evidence" = .none) : Counts settings a = false := by
  simp [Counts, countsForRequiredEvidence, h]

/-- Evidence counts only under a contract. -/
lemma fingerprint_ne_of_counts {a : EvidenceArtifact} (h : Counts settings a = true) :
    strip (settings.operationContractFingerprint.getD "") ≠ "" := by
  rw [Counts, countsForRequiredEvidence] at h
  simp only [Bool.and_eq_true, decide_eq_true_eq] at h
  exact h.1.1

/-- An artifact that the tool did not write itself names the step, and it counts only as
attested evidence. -/
lemma ArtifactSource.earned {reply : TaskToolResult} {raw : PyVal} {a : EvidenceArtifact}
    (h : ArtifactSource settings step reply raw)
    (hself : raw ∉ selfWrittenArtifacts reply.result)
    (ha : EvidenceArtifact.fromDict settings.rt raw = .ok a) :
    a.stepId = step.stepId ∧ (Counts settings a = true →
      reply.structuralValidationStatus = .valid ∧
        a.artifactType ∈ evidenceTypes (settings.detail step.toolName)) := by
  cases h with
  | selfWritten hmem => exact absurd hmem hself
  | evidence hvalid htype =>
    obtain ⟨hid, htype', -⟩ := fromDict_evidenceArtifact (ne_empty_of_mem_evidenceTypes htype) ha
    exact ⟨hid, fun _ => ⟨hvalid, htype' ▸ htype⟩⟩
  | toolResult =>
    obtain ⟨hid, -, hmetadata⟩ := fromDict_toolResultArtifact ha
    refine ⟨hid, fun hcounts => ?_⟩
    rw [counts_false_of_unmarked (by rw [hmetadata]; rfl)] at hcounts
    cases hcounts
  | semantic =>
    obtain ⟨hid, hmetadata⟩ := fromDict_semanticSearchArtifact ha
    refine ⟨hid, fun hcounts => ?_⟩
    rw [counts_false_of_unmarked hmetadata] at hcounts
    cases hcounts

/-- The artifacts of a pass are those of the tool's answer under the settings of the session. -/
lemma SameContract.artifacts_eq {call : LoopCall W} {st : LoopState W}
    (h : SameContract settings call) (step : PlanStep) :
    (stepExecution call.cfg st step).artifacts =
      repliedArtifacts settings step (stepExecution call.cfg st step).run.reply := by
  obtain ⟨hrt, hdetails, hfingerprint⟩ := h
  have hdetail : call.cfg.executor.detail = settings.detail := by
    funext name
    rw [ExecutorSettings.detail, ExecutorSettings.detail, LoopConfig.executor, hdetails]
  have hreplied : ∀ reply, repliedArtifacts call.cfg.executor step reply =
      repliedArtifacts settings step reply := by
    intro reply
    unfold repliedArtifacts
    rw [hdetail, show call.cfg.executor.rt = settings.rt from hrt,
      show call.cfg.executor.operationContractFingerprint = settings.operationContractFingerprint
        from hfingerprint]
  exact executeStep_artifacts.trans (hreplied _)

/-- What the evaluator counts as present for a step was earned by the step. -/
lemma earned_of_collected {call : LoopCall W} (h : SessionCall (SameContract settings) call history)
    (hat : EvaluatesOutcome call.cfg call.state events plan evidence)
    (hunforged : ∀ e, .executed e ∈ history ++ events → Unforged settings e)
    {evidenceType : String} (hcollected : evidenceType ∈ collectedTypes settings.rt
      settings.operationContractFingerprint step evidence) :
    Earned settings (history ++ events) step evidenceType := by
  obtain ⟨a, ha, rfl⟩ := List.mem_map.1 hcollected
  obtain ⟨hstep, hcounts⟩ := List.mem_filter.1 ha
  obtain ⟨hevidence, hid⟩ := List.mem_filter.1 hstep
  rw [decide_eq_true_eq] at hid
  obtain ⟨e, raw, hproduced, hread⟩ := hat.exists_produced h hevidence
  rw [h.property.rt_eq] at hread
  obtain ⟨he, hraw⟩ := mem_produced.1 hproduced
  have hforged := hunforged e he
  obtain ⟨made, s, step', hmade, -, rfl⟩ := hat.exists_starts h he
  rw [hmade.artifacts_eq] at hraw
  obtain ⟨reply, hreply, hsource⟩ := mem_repliedArtifacts hraw
  have hself : raw ∉ selfWrittenArtifacts reply.result := by
    intro hself
    have hnot := hforged reply hreply raw hself _ hread
    exact Bool.noConfusion (hnot.symm.trans hcounts)
  obtain ⟨hid', hearned⟩ := hsource.earned hself hread
  obtain ⟨hvalid, htype⟩ := hearned hcounts
  exact ⟨_, reply, he, hid'.symm.trans hid, hreply, hvalid, htype, fingerprint_ne_of_counts hcounts⟩

/-! ### Results that differ in what tools write about themselves -/

/-- Two artifacts that differ only in their metadata. -/
def SameButMetadata (raw raw' : PyVal) : Prop :=
  raw = raw' ∨ ∃ d d', raw = .dict d ∧ raw' = .dict d' ∧
    PyDict.without d ["metadata"] = PyDict.without d' ["metadata"]

/-- Two answers that differ only in the metadata of the artifacts the tool wrote itself. -/
structure LikeReply (reply reply' : TaskToolResult) : Prop where
  status : reply.status = reply'.status
  error : reply.error = reply'.error
  validation : reply.structuralValidationStatus = reply'.structuralValidationStatus
  rest : PyDict.without reply.result ["artifacts"] = PyDict.without reply'.result ["artifacts"]
  artifacts : List.Forall₂ SameButMetadata (selfWrittenArtifacts reply.result)
    (selfWrittenArtifacts reply'.result)

inductive LikeToolReply : ToolReply → ToolReply → Prop
  | raised (message : String) : LikeToolReply (.raised message) (.raised message)
  | returned {reply reply' : TaskToolResult} : LikeReply reply reply' →
      LikeToolReply (.returned reply) (.returned reply')

/-- Two events of the same kind; two executions are of the same step, and their tools' answers
differ only in the metadata of the artifacts the tools wrote themselves. -/
inductive LikeEvent : LoopEvent → LoopEvent → Prop
  | executed {e e' : Execution} : e.step = e'.step →
      Option.Rel LikeToolReply e.run.reply e'.run.reply →
      LikeEvent (.executed e) (.executed e')
  | replanned {request request' : ReplanRequest} {reply reply' : ReplanReply} :
      LikeEvent (.replanned request reply) (.replanned request' reply')

/-- The criterion looks into the metadata or the text of artifacts. -/
def readsOutput (doneWhen : String) : Bool :=
  startsWith doneWhen "exit_code:" || startsWith doneWhen "stdout_contains:"

/-- Two artifacts that the evaluator cannot tell apart by step, type and mark. -/
structure LikeEvidence (settings : ExecutorSettings) (a a' : EvidenceArtifact) : Prop where
  stepId : a.stepId = a'.stepId
  artifactType : a.artifactType = a'.artifactType
  counts : Counts settings a = Counts settings a'

/-- Two artifacts that are read alike wherever they are read. -/
def ReadsAlike (settings : ExecutorSettings) (raw raw' : PyVal) : Prop :=
  ∀ a a', EvidenceArtifact.fromDict settings.rt raw = .ok a →
    EvidenceArtifact.fromDict settings.rt raw' = .ok a' → LikeEvidence settings a a'

lemma ReadsAlike.refl (raw : PyVal) : ReadsAlike settings raw raw := by
  intro a a' ha ha'
  obtain rfl := Except.ok.inj (ha.symm.trans ha')
  exact ⟨rfl, rfl, rfl⟩

/-- Artifacts that differ only in their metadata are read alike if neither counts. -/
lemma SameButMetadata.readsAlike {raw raw' : PyVal} (h : SameButMetadata raw raw')
    (hraw : ∀ a, EvidenceArtifact.fromDict settings.rt raw = .ok a → Counts settings a = false)
    (hraw' : ∀ a, EvidenceArtifact.fromDict settings.rt raw' = .ok a → Counts settings a = false) :
    ReadsAlike settings raw raw' := by
  rcases h with rfl | ⟨d, d', rfl, rfl, hsame⟩
  · exact .refl raw
  · intro a a' ha ha'
    have hget : ∀ key ∉ ["metadata"], PyDict.get d key = PyDict.get d' key := by
      intro key hkey
      rw [← PyDict.get_without hkey, hsame, PyDict.get_without hkey]
    have hcounts : Counts settings a = Counts settings a' := (hraw a ha).trans (hraw' a' ha').symm
    obtain rfl := Except.ok.inj ha
    obtain rfl := Except.ok.inj ha'
    refine ⟨?_, ?_, hcounts⟩
    · dsimp only
      rw [hget "source_step_id" (by decide), hget "step_id" (by decide)]
    · dsimp only
      rw [hget "artifact_type" (by decide)]

/-- What the adapter attests for like results is read alike. -/
lemma readsAlike_evidence {toolName stepId fingerprint evidenceType : String}
    (htype : evidenceType ≠ "") (output output' : PyDict) :
    ReadsAlike settings (evidenceArtifact toolName stepId output fingerprint evidenceType)
      (evidenceArtifact toolName stepId output' fingerprint evidenceType) := by
  intro a a' ha ha'
  obtain ⟨hid, hkind, hmetadata⟩ := fromDict_evidenceArtifact htype ha
  obtain ⟨hid', hkind', hmetadata'⟩ := fromDict_evidenceArtifact htype ha'
  refine ⟨hid.trans hid'.symm, hkind.trans hkind'.symm, ?_⟩
  rw [Counts, Counts, countsForRequiredEvidence, countsForRequiredEvidence, hmetadata, hmetadata']

lemma readsAlike_toolResult (rt : PyRuntime) (toolName stepId : String) (output output' : PyDict) :
    ReadsAlike settings (toolResultArtifact rt toolName stepId output)
      (toolResultArtifact rt toolName stepId output') := by
  intro a a' ha ha'
  obtain ⟨hid, hkind, hmetadata⟩ := fromDict_toolResultArtifact ha
  obtain ⟨hid', hkind', hmetadata'⟩ := fromDict_toolResultArtifact ha'
  refine ⟨hid.trans hid'.symm, hkind.trans hkind'.symm, ?_⟩
  rw [Counts, Counts, countsForRequiredEvidence, countsForRequiredEvidence, hmetadata, hmetadata']

/-- A list of artifacts that are each read alike. -/
abbrev AllReadAlike (settings : ExecutorSettings) : List PyVal → List PyVal → Prop :=
  List.Forall₂ (ReadsAlike settings)

/-- Artifacts a tool wrote itself are read alike if they differ only in their metadata and none
of them counts. -/
lemma allReadAlike_selfWritten {raws raws' : List PyVal}
    (h : List.Forall₂ SameButMetadata raws raws')
    (hraws : ∀ raw ∈ raws, ∀ a,
      EvidenceArtifact.fromDict settings.rt raw = .ok a → Counts settings a = false)
    (hraws' : ∀ raw ∈ raws', ∀ a,
      EvidenceArtifact.fromDict settings.rt raw = .ok a → Counts settings a = false) :
    AllReadAlike settings raws raws' := by
  induction h with
  | nil => exact .nil
  | cons hsame _ ih =>
    refine .cons (hsame.readsAlike (hraws _ List.mem_cons_self) (hraws' _ List.mem_cons_self)) ?_
    exact ih (fun raw hraw => hraws raw (List.mem_cons_of_mem _ hraw))
      fun raw hraw => hraws' raw (List.mem_cons_of_mem _ hraw)

/-- A structurally valid answer has a structural result. -/
lemma not_attested_iff (reply : TaskToolResult) :
    (reply.structuralValidationStatus ≠ .valid ∨ reply.structuralResult = none) ↔
      reply.structuralValidationStatus ≠ .valid := by
  refine or_iff_left_of_imp fun hnone hvalid => ?_
  rw [reply.missing_iff.2 hnone] at hvalid
  cases hvalid

/-- The adapter attests like results alike. -/
lemma LikeReply.attested_alike {reply reply' : TaskToolResult} (h : LikeReply reply reply')
    (step : PlanStep) :
    AllReadAlike settings
      (validatedEvidenceArtifacts step.toolName step.stepId reply.result
        (settings.detail step.toolName) reply.structuralResult reply.structuralValidationStatus
        settings.operationContractFingerprint)
      (validatedEvidenceArtifacts step.toolName step.stepId reply'.result
        (settings.detail step.toolName) reply'.structuralResult reply'.structuralValidationStatus
        settings.operationContractFingerprint) := by
  simp only [validatedEvidenceArtifacts, not_attested_iff]
  rw [← h.validation]
  split
  · exact .nil
  · refine List.forall₂_map_left_iff.2 (List.forall₂_map_right_iff.2 (List.forall₂_same.2 ?_))
    intro evidenceType htype
    exact readsAlike_evidence (ne_empty_of_mem_evidenceTypes htype) _ _

/-- Like answers leave artifacts that are read alike. -/
lemma LikeReply.artifacts_alike {reply reply' : TaskToolResult} (h : LikeReply reply reply')
    (step : PlanStep)
    (hself : ∀ raw ∈ selfWrittenArtifacts reply.result, ∀ a,
      EvidenceArtifact.fromDict settings.rt raw = .ok a → Counts settings a = false)
    (hself' : ∀ raw ∈ selfWrittenArtifacts reply'.result, ∀ a,
      EvidenceArtifact.fromDict settings.rt raw = .ok a → Counts settings a = false) :
    AllReadAlike settings (repliedArtifacts settings step (some (.returned reply)))
      (repliedArtifacts settings step (some (.returned reply'))) := by
  have hsuccess : reply.success = reply'.success := by
    rw [TaskToolResult.success, TaskToolResult.success, h.status]
  have hresults : PyDict.get reply.result "results" = PyDict.get reply'.result "results" := by
    have hother : "results" ∉ ["artifacts"] := by decide
    rw [← PyDict.get_without hother, h.rest, PyDict.get_without hother]
  have hbase := List.rel_append (List.rel_append
    (allReadAlike_selfWritten h.artifacts hself hself') (h.attested_alike step))
    (.cons (readsAlike_toolResult settings.rt (step.tool.getD "") step.stepId reply.result
      reply'.result) .nil)
  rw [repliedArtifacts, repliedArtifacts, ← hsuccess]
  split
  · dsimp only
    rw [collectResultArtifacts, collectResultArtifacts]
    split
    · exact hbase
    · rw [← hresults]
      cases iterate ((PyDict.get reply.result "results").or (.list [])) with
      | error e => exact .nil
      | ok hits =>
        simp only [bind, Except.bind]
        cases semanticArtifacts settings.rt (step.tool.getD "") step.stepId 0 hits with
        | error e => exact .nil
        | ok found => exact List.rel_append hbase (List.forall₂_same.2 fun raw _ => .refl raw)
  · exact .nil

/-- Like runs of a session under the settings bring artifacts that are read alike. -/
lemma produced_alike {made made' : LoopCall W} {st st' : LoopState W} {step' : PlanStep}
    (hmade : SameContract settings made) (hmade' : SameContract settings made')
    (h : LikeEvent (.executed (stepExecution made.cfg st step))
      (.executed (stepExecution made'.cfg st' step')))
    (hunforged : Unforged settings (stepExecution made.cfg st step))
    (hunforged' : Unforged settings (stepExecution made'.cfg st' step')) :
    AllReadAlike settings (stepExecution made.cfg st step).artifacts
      (stepExecution made'.cfg st' step').artifacts := by
  rw [hmade.artifacts_eq, hmade'.artifacts_eq]
  cases h with
  | executed hstep hreply =>
    obtain rfl : step = step' := hstep
    generalize hleft : (stepExecution made.cfg st step).run.reply = left at hreply ⊢
    generalize hright : (stepExecution made'.cfg st' step).run.reply = right at hreply ⊢
    cases hreply with
    | none => exact .nil
    | some hlike =>
      cases hlike with
      | raised message => exact .nil
      | returned hlike =>
        exact hlike.artifacts_alike step (hunforged _ hleft) (hunforged' _ hright)

/-- Like sessions bring artifacts that are read alike. -/
lemma allReadAlike_produced {es es' : List LoopEvent}
    (hmade : ∀ e, .executed e ∈ es → ∃ (made : LoopCall W) (s : LoopState W) (step : PlanStep),
      SameContract settings made ∧ e = stepExecution made.cfg s step)
    (hmade' : ∀ e, .executed e ∈ es' → ∃ (made : LoopCall W) (s : LoopState W) (step : PlanStep),
      SameContract settings made ∧ e = stepExecution made.cfg s step)
    (hunforged : ∀ e, .executed e ∈ es → Unforged settings e)
    (hunforged' : ∀ e, .executed e ∈ es' → Unforged settings e)
    (h : List.Forall₂ LikeEvent es es') :
    AllReadAlike settings (broughtArtifacts es) (broughtArtifacts es') := by
  induction h with
  | nil => exact .nil
  | @cons event event' rest rest' hlike _ ih =>
    have hrest := ih (fun e he => hmade e (List.mem_cons_of_mem _ he))
      (fun e he => hmade' e (List.mem_cons_of_mem _ he))
      (fun e he => hunforged e (List.mem_cons_of_mem _ he))
      fun e he => hunforged' e (List.mem_cons_of_mem _ he)
    rw [broughtArtifacts, broughtArtifacts, produced_cons, produced_cons, List.map_append,
      List.map_append]
    refine List.rel_append ?_ hrest
    cases hlike with
    | replanned => exact .nil
    | @executed e e' hstep hreply =>
      obtain ⟨made, s, step, hsame, rfl⟩ := hmade e List.mem_cons_self
      obtain ⟨made', s', step', hsame', rfl⟩ := hmade' e' List.mem_cons_self
      have halike := produced_alike hsame hsame' (.executed hstep hreply)
        (hunforged _ List.mem_cons_self) (hunforged' _ List.mem_cons_self)
      simpa [Function.comp_def] using halike

/-- Artifacts that are read alike give evidence the evaluator cannot tell apart. -/
lemma likeEvidence_of_alike {raws raws' : List PyVal} {evidence' : List EvidenceArtifact}
    (h : AllReadAlike settings raws raws')
    (hread : List.Forall₂ (fun raw a => EvidenceArtifact.fromDict settings.rt raw = .ok a)
      raws evidence)
    (hread' : List.Forall₂ (fun raw a => EvidenceArtifact.fromDict settings.rt raw = .ok a)
      raws' evidence') : List.Forall₂ (LikeEvidence settings) evidence evidence' := by
  induction h generalizing evidence evidence' with
  | nil =>
    cases hread
    cases hread'
    exact .nil
  | cons halike _ ih =>
    cases hread with
    | cons ha hrest =>
      cases hread' with
      | cons ha' hrest' => exact .cons (halike _ _ ha ha') (ih hrest hrest')

/-! ### The outcome on evidence that cannot be told apart -/

section Outcome

variable {evidence' : List EvidenceArtifact}

lemma stepArtifacts_alike (h : List.Forall₂ (LikeEvidence settings) evidence evidence')
    (step : PlanStep) : List.Forall₂ (LikeEvidence settings) (stepArtifacts step evidence)
      (stepArtifacts step evidence') := by
  induction h with
  | nil => exact .nil
  | cons hlike _ ih =>
    rw [stepArtifacts, stepArtifacts, List.filter_cons, List.filter_cons, ← hlike.stepId]
    split
    · exact .cons hlike ih
    · exact ih

lemma collectedTypes_eq (h : List.Forall₂ (LikeEvidence settings) evidence evidence')
    (step : PlanStep) :
    collectedTypes settings.rt settings.operationContractFingerprint step evidence =
      collectedTypes settings.rt settings.operationContractFingerprint step evidence' := by
  have hstep := stepArtifacts_alike h step
  rw [collectedTypes, collectedTypes]
  generalize stepArtifacts step evidence = as at hstep ⊢
  generalize stepArtifacts step evidence' = as' at hstep ⊢
  induction hstep with
  | nil => rfl
  | @cons a a' _ _ hlike _ ih =>
    have hcounts := hlike.counts
    rw [Counts, Counts] at hcounts
    rw [List.filter_cons, List.filter_cons, ← hcounts]
    split
    · rw [List.map_cons, List.map_cons, hlike.artifactType, ih]
    · exact ih

/-- A criterion that does not look into the artifacts is met alike. -/
lemma checkDoneWhen_eq {doneWhen : String} (hreads : readsOutput doneWhen = false)
    (h : List.Forall₂ (LikeEvidence settings) evidence evidence') :
    checkDoneWhen settings.rt doneWhen evidence = checkDoneWhen settings.rt doneWhen evidence' := by
  have htypes : ∀ t, (evidence.any fun a => a.artifactType = t) =
      evidence'.any fun a => a.artifactType = t := by
    intro t
    induction h with
    | nil => rfl
    | cons hlike _ ih => rw [List.any_cons, List.any_cons, ih, hlike.artifactType]
  rw [readsOutput, Bool.or_eq_false_iff] at hreads
  rw [checkDoneWhen, checkDoneWhen, htypes, htypes, hreads.1, hreads.2]
  rfl

lemma evaluateStep_eq {judge : OutcomeEvaluator.Settings} (hrt : judge.rt = settings.rt)
    (hfingerprint : judge.expectedOperationContractFingerprint =
      settings.operationContractFingerprint)
    (hreads : readsOutput step.doneWhen = false)
    (h : List.Forall₂ (LikeEvidence settings) evidence evidence') :
    evaluateStep judge step evidence = evaluateStep judge step evidence' := by
  rw [evaluateStep, evaluateStep, hrt, hfingerprint, collectedTypes_eq h,
    checkDoneWhen_eq hreads (stepArtifacts_alike h step)]

lemma evaluateSteps_eq {judge : OutcomeEvaluator.Settings} (hrt : judge.rt = settings.rt)
    (hfingerprint : judge.expectedOperationContractFingerprint =
      settings.operationContractFingerprint)
    (h : List.Forall₂ (LikeEvidence settings) evidence evidence') {steps : List PlanStep}
    (hreads : ∀ step ∈ steps, readsOutput step.doneWhen = false) :
    evaluateSteps judge evidence steps = evaluateSteps judge evidence' steps := by
  induction steps with
  | nil => rfl
  | cons step rest ih =>
    rw [evaluateSteps, evaluateSteps,
      evaluateStep_eq hrt hfingerprint (hreads step List.mem_cons_self) h,
      ih fun step hstep => hreads step (List.mem_cons_of_mem _ hstep)]

end Outcome

/-- What the tools write into the metadata of their own artifacts is no evidence, as long as it
does not itself carry the mark and the fingerprint.  Every type the completion gate counts as
present for a step was earned by a structurally valid result of that step whose tool declares
it; and two sessions whose results differ only in such metadata are judged alike, under a plan
whose criteria do not look into the artifacts. -/
theorem evidence_earned {call : LoopCall W} (h : SessionCall (SameContract settings) call history)
    (hat : EvaluatesOutcome call.cfg call.state events plan evidence)
    (hunforged : ∀ e, .executed e ∈ history ++ events → Unforged settings e) :
    (∀ step ∈ plan.steps, ∀ evidenceType ∈ collectedTypes call.cfg.completion.rt
        call.cfg.completion.expectedOperationContractFingerprint step evidence,
      Earned settings (history ++ events) step evidenceType) ∧
    ∀ (call' : LoopCall W) (history' events' : List LoopEvent)
      (evidence' : List EvidenceArtifact), SessionCall (SameContract settings) call' history' →
      EvaluatesOutcome call'.cfg call'.state events' plan evidence' →
      call'.cfg.availableEvidenceTypes = call.cfg.availableEvidenceTypes →
      (∀ e, .executed e ∈ history' ++ events' → Unforged settings e) →
      List.Forall₂ LikeEvent (history ++ events) (history' ++ events') →
      (∀ step ∈ plan.steps, readsOutput step.doneWhen = false) →
      ∀ allowed, outcomeOf call'.cfg.completion plan allowed evidence' =
        outcomeOf call.cfg.completion plan allowed evidence := by
  have hcall := h.property
  constructor
  · intro step _ evidenceType hcollected
    refine earned_of_collected h hat hunforged ?_
    rw [← hcall.rt_eq, ← hcall.fingerprint_eq]
    exact hcollected
  · intro call' history' events' evidence' h' hat' havailable hunforged' hlike hreads allowed
    have hcall' := h'.property
    have halike := allReadAlike_produced
      (fun e he => by
        obtain ⟨made, s, step, hmade, -, he⟩ := hat.exists_starts h he
        exact ⟨made, s, step, hmade, he⟩)
      (fun e he => by
        obtain ⟨made, s, step, hmade, -, he⟩ := hat'.exists_starts h' he
        exact ⟨made, s, step, hmade, he⟩) hunforged hunforged' hlike
    have hread := hat.evidence h
    have hread' := hat'.evidence h'
    rw [hcall.rt_eq] at hread
    rw [hcall'.rt_eq] at hread'
    have hevidence := likeEvidence_of_alike halike hread hread'
    rw [outcomeOf, outcomeOf, LoopConfig.completion, LoopConfig.completion, hcall'.rt_eq,
      hcall.rt_eq, hcall'.fingerprint_eq, hcall.fingerprint_eq, havailable]
    exact (evaluateSteps_eq rfl rfl hevidence hreads).symm

/-! A plan of one step that must read a value, under a contract. -/

/-- The contract and the one tool, which declares what it proves. -/
def valueSettings (evidenceTypes : List String) : ExecutorSettings where
  rt := .ascii
  toolDetailsByName := some [("value_read", { capabilityEvidenceTypes := evidenceTypes })]
  operationContractFingerprint := some "fp"

/-- The run's configuration. -/
def valueConfig (evidenceTypes : List String) : LoopConfig (List ToolReply) :=
  { scriptedConfig [("value_read", { capabilityEvidenceTypes := evidenceTypes })] with
    operationContractFingerprint := some "fp" }

/-- The step with its criteria. -/
def valueStep (doneWhen : String) (requiredEvidence : List String) : PlanStep :=
  { readingStep "tool_1" with doneWhen := doneWhen, requiredEvidence := requiredEvidence }

/-- The plan of that step. -/
def valuePlan (doneWhen : String) (requiredEvidence : List String) : ThinkingPlan :=
  { readingPlan with steps := [valueStep doneWhen requiredEvidence] }

/-- The state in which the plan starts, with the answer the tool will give. -/
def valueStart (doneWhen : String) (requiredEvidence : List String) (reply : ToolReply) :
    LoopState (List ToolReply) :=
  startTaskLoop .ascii (valuePlan doneWhen requiredEvidence) { conversationId := "c" } [reply]

/-- A tool's result with one artifact that the tool wrote itself. -/
def selfWrittenResult (metadata : PyDict) : PyDict :=
  [("artifacts", .list [.dict [("artifact_type", .str "value"), ("source_step_id", .str "tool_1"),
    ("metadata", .dict metadata)]])]

/-- The answer of a tool whose result nothing validates. -/
def unprovenReply (result : PyDict) : ToolReply :=
  .returned { status := .successValue, result := result }

/-- What the gate makes of the plan once the tool has given the answer. -/
def valueExecution (evidenceTypes : List String) (doneWhen : String)
    (requiredEvidence : List String) (reply : ToolReply) : Execution :=
  stepExecution (valueConfig evidenceTypes) (valueStart doneWhen requiredEvidence reply)
    (valueStep doneWhen requiredEvidence)

/-- The starting call. -/
def valueCall (evidenceTypes : List String) (doneWhen : String) (requiredEvidence : List String)
    (reply : ToolReply) : LoopCall (List ToolReply) :=
  ⟨valueConfig evidenceTypes, valueStart doneWhen requiredEvidence reply, none⟩

/-- A valid answer with a note of the tool's own. -/
def notedReply (note : String) : ToolReply := validReply (selfWrittenResult [("note", .str note)])

/-- The notes do not count. -/
lemma unforged_noted {note : String} {e : Execution}
    (he : e.run.reply = some (notedReply note)) : Unforged (valueSettings ["value"]) e := by
  intro reply hreply raw hraw a ha
  obtain rfl := ToolReply.returned.inj (Option.some.inj (he.symm.trans hreply))
  obtain rfl := List.mem_singleton.1 hraw
  obtain rfl := Except.ok.inj ha
  rfl

theorem evidence_earned_value :
    Earned (valueSettings ["value"])
        [.executed (valueExecution ["value"] "" ["value"] (notedReply "a"))]
        (valueStep "" ["value"]) "value" ∧
      ∃ evidence evidence',
        EvaluatesOutcome (valueConfig ["value"]) (valueStart "" ["value"] (notedReply "a"))
          [.executed (valueExecution ["value"] "" ["value"] (notedReply "a"))]
          (valuePlan "" ["value"]) evidence ∧
        EvaluatesOutcome (valueConfig ["value"]) (valueStart "" ["value"] (notedReply "b"))
          [.executed (valueExecution ["value"] "" ["value"] (notedReply "b"))]
          (valuePlan "" ["value"]) evidence' ∧
        outcomeOf (valueConfig ["value"]).completion (valuePlan "" ["value"]) true evidence' =
          outcomeOf (valueConfig ["value"]).completion (valuePlan "" ["value"]) true evidence := by
  have hcall : ∀ note, SessionCall (SameContract (valueSettings ["value"]))
      (valueCall ["value"] "" ["value"] (notedReply note)) [] := fun _ => .start ⟨rfl, rfl, rfl⟩
  have hat : EvaluatesOutcome (valueConfig ["value"]) (valueStart "" ["value"] (notedReply "a"))
      ([] ++ [.executed (valueExecution ["value"] "" ["value"] (notedReply "a"))])
      (valuePlan "" ["value"]) _ :=
    .intro (.refl _) ⟨⟨rfl, (fun h => nomatch h), rfl, rfl⟩, rfl⟩ rfl rfl rfl rfl
  have hat' : EvaluatesOutcome (valueConfig ["value"]) (valueStart "" ["value"] (notedReply "b"))
      ([] ++ [.executed (valueExecution ["value"] "" ["value"] (notedReply "b"))])
      (valuePlan "" ["value"]) _ :=
    .intro (.refl _) ⟨⟨rfl, (fun h => nomatch h), rfl, rfl⟩, rfl⟩ rfl rfl rfl rfl
  have hunforged : ∀ note e, LoopEvent.executed e ∈ [LoopEvent.executed
      (valueExecution ["value"] "" ["value"] (notedReply note))] →
      Unforged (valueSettings ["value"]) e := by
    intro note e he
    obtain rfl : e = _ := LoopEvent.executed.inj (List.mem_singleton.1 he)
    exact unforged_noted rfl
  have hlike : LikeToolReply (notedReply "a") (notedReply "b") :=
    .returned ⟨rfl, rfl, rfl, rfl, .cons (.inr ⟨_, _, rfl, rfl, rfl⟩) .nil⟩
  obtain ⟨hearned, hsame⟩ := evidence_earned (hcall "a") hat (hunforged "a")
  refine ⟨hearned _ List.mem_cons_self "value" (by decide), _, _, hat, hat', ?_⟩
  exact hsame _ [] _ _ (hcall "b") hat' rfl (hunforged "b")
    (.cons (.executed rfl (.some hlike)) .nil) (by decide) true

/-- The answer of a tool that proves nothing and marks its own artifact as validated. -/
def forgedReply : ToolReply :=
  unprovenReply (selfWrittenResult [("validated_evidence", .bool true),
    ("operation_contract_fingerprint", .str "fp")])

/-- The answer of a tool that writes one entry into the metadata of its own artifact. -/
def notingReply (key value : String) : ToolReply :=
  unprovenReply (selfWrittenResult [(key, .str value)])

/-- Two answers with different entries lead to different outcomes under a criterion, though they
differ only in the metadata of the tool's own artifact. -/
def ToldApart (doneWhen key value value' : String) : Prop :=
  LikeToolReply (notingReply key value) (notingReply key value') ∧
    ∃ evidence evidence',
      EvaluatesOutcome (valueConfig []) (valueStart doneWhen [] (notingReply key value))
        [.executed (valueExecution [] doneWhen [] (notingReply key value))]
        (valuePlan doneWhen []) evidence ∧
      EvaluatesOutcome (valueConfig []) (valueStart doneWhen [] (notingReply key value'))
        [.executed (valueExecution [] doneWhen [] (notingReply key value'))]
        (valuePlan doneWhen []) evidence' ∧
      outcomeOf (valueConfig []).completion (valuePlan doneWhen []) true evidence ≠
        outcomeOf (valueConfig []).completion (valuePlan doneWhen []) true evidence'

/-- A tool that proves nothing marks its own artifact as validated, and the gate counts it; and
a criterion on an exit code or on the text of an artifact is met or not by what the tool writes
into the metadata of its own artifact. -/
theorem evidence_forged :
    (∃ evidence,
      EvaluatesOutcome (valueConfig []) (valueStart "" ["value"] forgedReply)
        [.executed (valueExecution [] "" ["value"] forgedReply)] (valuePlan "" ["value"]) evidence ∧
      "value" ∈ collectedTypes .ascii (some "fp") (valueStep "" ["value"]) evidence ∧
      ¬ Earned (valueSettings []) [.executed (valueExecution [] "" ["value"] forgedReply)]
        (valueStep "" ["value"]) "value") ∧
    ToldApart "exit_code:0" "exit_code" "0" "1" ∧
    ToldApart "stdout_contains:PASSED" "log" "PASSED" "" := by
  have hforged : EvaluatesOutcome (valueConfig []) (valueStart "" ["value"] forgedReply)
      ([] ++ [.executed (valueExecution [] "" ["value"] forgedReply)]) (valuePlan "" ["value"]) _ :=
    .intro (.refl _) ⟨⟨rfl, (fun h => nomatch h), rfl, rfl⟩, rfl⟩ rfl rfl rfl rfl
  have hzero : EvaluatesOutcome (valueConfig [])
      (valueStart "exit_code:0" [] (notingReply "exit_code" "0"))
      ([] ++ [.executed (valueExecution [] "exit_code:0" [] (notingReply "exit_code" "0"))])
      (valuePlan "exit_code:0" []) _ :=
    .intro (.refl _) ⟨⟨rfl, (fun h => nomatch h), rfl, rfl⟩, rfl⟩ rfl rfl rfl rfl
  have hone : EvaluatesOutcome (valueConfig [])
      (valueStart "exit_code:0" [] (notingReply "exit_code" "1"))
      ([] ++ [.executed (valueExecution [] "exit_code:0" [] (notingReply "exit_code" "1"))])
      (valuePlan "exit_code:0" []) _ :=
    .intro (.refl _) ⟨⟨rfl, (fun h => nomatch h), rfl, rfl⟩, rfl⟩ rfl rfl rfl rfl
  have hpassed : EvaluatesOutcome (valueConfig [])
      (valueStart "stdout_contains:PASSED" [] (notingReply "log" "PASSED"))
      ([] ++ [.executed (valueExecution [] "stdout_contains:PASSED" []
        (notingReply "log" "PASSED"))]) (valuePlan "stdout_contains:PASSED" []) _ :=
    .intro (.refl _) ⟨⟨rfl, (fun h => nomatch h), rfl, rfl⟩, rfl⟩ rfl rfl rfl rfl
  have hsilent : EvaluatesOutcome (valueConfig [])
      (valueStart "stdout_contains:PASSED" [] (notingReply "log" ""))
      ([] ++ [.executed (valueExecution [] "stdout_contains:PASSED" []
        (notingReply "log" ""))]) (valuePlan "stdout_contains:PASSED" []) _ :=
    .intro (.refl _) ⟨⟨rfl, (fun h => nomatch h), rfl, rfl⟩, rfl⟩ rfl rfl rfl rfl
  have hlike : ∀ key value value',
      LikeToolReply (notingReply key value) (notingReply key value') := fun _ _ _ =>
    .returned ⟨rfl, rfl, rfl, rfl, .cons (.inr ⟨_, _, rfl, rfl, rfl⟩) .nil⟩
  refine ⟨⟨_, hforged, List.mem_cons_self, ?_⟩, ⟨hlike _ _ _, _, _, hzero, hone, ?_⟩,
    hlike _ _ _, _, _, hpassed, hsilent, ?_⟩
  · rintro ⟨e, reply, he, -, hreply, hvalid, -⟩
    obtain rfl : e = _ := LoopEvent.executed.inj (List.mem_singleton.1 he)
    have hforgedReply : (valueExecution [] "" ["value"] forgedReply).run.reply =
        some forgedReply := rfl
    obtain rfl := ToolReply.returned.inj (Option.some.inj (hforgedReply.symm.trans hreply))
    cases hvalid
  · decide +kernel
  · decide +kernel

end Trion.TaskLoop
