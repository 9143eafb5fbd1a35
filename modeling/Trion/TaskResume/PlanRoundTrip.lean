import Trion.Python.Annotations
import Trion.Python.Text
import Trion.TaskResume.Serialization
import Trion.Thinking.Contracts

/-!
# Plans come back

`plan_schema.py` reads a stored plan by the annotations of `ThinkingPlan` and of the records in
it.  A step is refused whose id, or whose tool if it has one, is empty or not trimmed.

A plan comes back from its JSON exactly when its step ids and tool names are trimmed and not
empty and its free dictionaries hold what JSON holds.  Every plan that is read from JSON is such
a plan, so a stored plan comes back as often as it is written and read.
-/

namespace Trion.Thinking

open Trion.Python

/-- `_nonempty_string`. -/
def nonemptyString (s : String) : Bool := decide (IsName s)

/-! ### The contracts -/

def RiskLevel.members : List RiskLevel := [.safe, .needsConfirmation, .block]

/-- `PlanStep`, with the checks of `_dataclass_value` on its id and its tool. -/
def stepContract : TypeHint PlanStep :=
  .contract
    (.field "step_id" .str none <| .field "title" .str none <| .field "goal" .str none <|
      .field "tool" (.optional .str) (some none) <|
      .field "tool_arguments" (.dict .any) (some []) <|
      .field "timeout_s" (.optional .float) (some none) <|
      .field "risk" (.enum RiskLevel.members RiskLevel.value) (some .safe) <|
      .field "done_when" .str (some "") <| .field "required_evidence" (.list .str) (some []) .nil)
    (fun (stepId, title, goal, tool, toolArguments, timeoutS, risk, doneWhen, requiredEvidence,
        _) =>
      if nonemptyString stepId && tool.all nonemptyString then
        some ⟨stepId, title, goal, tool, toolArguments, timeoutS, risk, doneWhen, requiredEvidence⟩
      else none)
    fun s => (s.stepId, s.title, s.goal, s.tool, s.toolArguments, s.timeoutS, s.risk, s.doneWhen,
      s.requiredEvidence, ())

def projectionContract : TypeHint ResponseProjection :=
  .contract (.field "kind" .str none .nil) (fun (kind, _) => some ⟨kind⟩) fun p => (p.kind, ())

def derivationContract : TypeHint ResponseDerivation :=
  .contract (.field "kind" .str none <| .field "seconds" .int (some 0) .nil)
    (fun (kind, seconds, _) => some ⟨kind, seconds⟩) fun d => (d.kind, d.seconds, ())

def evidenceNeedContract : TypeHint AdditionalEvidenceNeed :=
  .contract
    (.field "kind" .str none <| .field "reason" .str (some "") <|
      .field "candidate_tools" (.list .str) (some []) .nil)
    (fun (kind, reason, candidateTools, _) => some ⟨kind, reason, candidateTools⟩)
    fun n => (n.kind, n.reason, n.candidateTools, ())

/-- `ThinkingPlan`. -/
def planContract : TypeHint ThinkingPlan :=
  .contract
    (.field "intent" .str none <| .field "steps" (.list stepContract) none <|
      .field "needs_task_loop" .bool none <|
      .field "risk_level" (.enum RiskLevel.members RiskLevel.value) none <|
      .field "reasoning" .str (some "") <| .field "suggested_tools" (.list .str) (some []) <|
      .field "context_hints" (.dict .any) (some []) <| .field "plan_id" .str (some "") <|
      .field "response_projection" (.optional projectionContract) (some none) <|
      .field "response_derivation" (.optional derivationContract) (some none) <|
      .field "additional_evidence_need" (.optional evidenceNeedContract) (some none) .nil)
    (fun (intent, steps, needsTaskLoop, riskLevel, reasoning, suggestedTools, contextHints, planId,
        responseProjection, responseDerivation, additionalEvidenceNeed, _) =>
      some ⟨intent, steps, needsTaskLoop, riskLevel, reasoning, suggestedTools, contextHints,
        planId, responseProjection, responseDerivation, additionalEvidenceNeed⟩)
    fun p => (p.intent, p.steps, p.needsTaskLoop, p.riskLevel, p.reasoning, p.suggestedTools,
      p.contextHints, p.planId, p.responseProjection, p.responseDerivation,
      p.additionalEvidenceNeed, ())

/-- `plan_from_dict`: `parse_plan` over `parse_thinking_plan`. -/
def planFromDict (v : PyVal) : Except PyError ThinkingPlan :=
  match planContract.fieldValue v with
  | none => .error (.valueError "invalid_plan")
  | some plan => .ok plan

/-! ### The contracts are lawful -/

/-- The free dictionary of a record. -/
lemma valid_dict_any {d : PyDict} :
    (TypeHint.dict .any).Valid d ↔ PyVal.jsonCopyEntries d = some d :=
  ⟨jsonCopyEntries_of_forall, fun h e he => jsonCopy_of_mem_entries h e he⟩

lemma valid_risk (r : RiskLevel) :
    (TypeHint.enum RiskLevel.members RiskLevel.value).Valid r := by
  cases r <;> rfl

lemma valid_strs (xs : List String) : (TypeHint.list .str).Valid xs := fun _ _ => trivial

lemma stepContract_lawful : stepContract.Lawful := by
  refine ⟨by decide, ?_, ?_⟩
  · rintro ⟨stepId, title, goal, tool, toolArguments, timeoutS, risk, doneWhen, evidence, ⟨⟩⟩ x h
    dsimp only at h
    split at h
    · obtain rfl := Option.some.inj h
      rfl
    · cases h
  · simp [Fields.Lawful, TypeHint.Lawful, TypeHint.Valid, RiskLevel.members]

lemma projectionContract_lawful : projectionContract.Lawful := by
  refine ⟨by decide, ?_, ?_⟩
  · rintro ⟨kind, ⟨⟩⟩ x h
    obtain rfl := Option.some.inj h
    rfl
  · simp [Fields.Lawful, TypeHint.Lawful]

lemma derivationContract_lawful : derivationContract.Lawful := by
  refine ⟨by decide, ?_, ?_⟩
  · rintro ⟨kind, seconds, ⟨⟩⟩ x h
    obtain rfl := Option.some.inj h
    rfl
  · simp [Fields.Lawful, TypeHint.Lawful, TypeHint.Valid]

lemma evidenceNeedContract_lawful : evidenceNeedContract.Lawful := by
  refine ⟨by decide, ?_, ?_⟩
  · rintro ⟨kind, reason, candidateTools, ⟨⟩⟩ x h
    obtain rfl := Option.some.inj h
    rfl
  · simp [Fields.Lawful, TypeHint.Lawful, TypeHint.Valid]

lemma planContract_lawful : planContract.Lawful := by
  refine ⟨by decide, ?_, ?_⟩
  · rintro ⟨intent, steps, needsTaskLoop, riskLevel, reasoning, suggestedTools, contextHints,
      planId, projection, derivation, evidenceNeed, ⟨⟩⟩ x h
    obtain rfl := Option.some.inj h
    rfl
  · simp [Fields.Lawful, TypeHint.Lawful, TypeHint.Valid, stepContract_lawful,
      projectionContract_lawful, derivationContract_lawful, evidenceNeedContract_lawful]

end Trion.Thinking

namespace Trion.TaskResume

open Trion.Python Trion.Thinking

/-- A step that can be stored. -/
structure StepStorable (step : PlanStep) : Prop where
  stepId : IsName step.stepId
  tool : ∀ tool ∈ step.tool, IsName tool
  toolArguments : PyVal.jsonCopyEntries step.toolArguments = some step.toolArguments

/-- A plan that can be stored. -/
structure PlanStorable (plan : ThinkingPlan) : Prop where
  steps : ∀ step ∈ plan.steps, StepStorable step
  contextHints : PyVal.jsonCopyEntries plan.contextHints = some plan.contextHints

/-! ### The contracts read back -/

lemma optional_eq_write {α : Type} (item : TypeHint α) (o : Option α) :
    optional item.write o = (TypeHint.optional item).write o := by
  cases o <;> rfl

lemma dict_eq_write (d : PyDict) : PyVal.dict d = (TypeHint.dict .any).write d :=
  congrArg PyVal.dict (List.map_id d).symm

lemma stepContract_write (step : PlanStep) : stepContract.write step = .dict (stepToDict step) := by
  unfold stepToDict
  rw [dict_eq_write step.toolArguments,
    show optional .str step.tool = _ from optional_eq_write .str step.tool,
    show optional floatOf step.timeoutS = _ from optional_eq_write .float step.timeoutS]
  rfl

/-- `plan_to_dict` writes by the contract. -/
lemma planContract_write (plan : ThinkingPlan) :
    planContract.write plan = .dict (planToDict plan) := by
  have hsteps : (plan.steps.map fun step => PyVal.dict (stepToDict step)) =
      plan.steps.map stepContract.write :=
    List.map_congr_left fun step _ => (stepContract_write step).symm
  unfold planToDict
  rw [hsteps, dict_eq_write plan.contextHints,
    show optional (fun p => .dict (projectionToDict p)) plan.responseProjection = _ from
      optional_eq_write projectionContract plan.responseProjection,
    show optional (fun d => .dict (derivationToDict d)) plan.responseDerivation = _ from
      optional_eq_write derivationContract plan.responseDerivation,
    show optional (fun n => .dict (evidenceNeedToDict n)) plan.additionalEvidenceNeed = _ from
      optional_eq_write evidenceNeedContract plan.additionalEvidenceNeed]
  rfl

lemma stepContract_valid (step : PlanStep) : stepContract.Valid step ↔ StepStorable step := by
  constructor
  · rintro ⟨⟨-, -, -, -, harguments, -⟩, hbuild⟩
    dsimp only at hbuild
    split at hbuild
    · rename_i hchecks
      rw [Bool.and_eq_true, nonemptyString, decide_eq_true_iff, Option.all_eq_true] at hchecks
      exact ⟨hchecks.1, fun tool htool => of_decide_eq_true (hchecks.2 tool htool),
        valid_dict_any.mp harguments⟩
    · cases hbuild
  · rintro ⟨hid, htool, harguments⟩
    refine ⟨⟨trivial, trivial, trivial, fun _ _ => ⟨trivial, PyVal.noConfusion⟩,
      valid_dict_any.mpr harguments, fun _ _ => ⟨trivial, PyVal.noConfusion⟩, valid_risk _, trivial,
      valid_strs _, trivial⟩, ?_⟩
    have hchecks : (nonemptyString step.stepId && step.tool.all nonemptyString) = true := by
      rw [Bool.and_eq_true, nonemptyString, decide_eq_true_iff, Option.all_eq_true]
      exact ⟨hid, fun tool h => decide_eq_true (htool tool h)⟩
    exact if_pos hchecks

lemma planContract_valid (plan : ThinkingPlan) : planContract.Valid plan ↔ PlanStorable plan := by
  constructor
  · rintro ⟨⟨-, hsteps, -, -, -, -, hhints, -⟩, -⟩
    exact ⟨fun step hstep => (stepContract_valid step).mp (hsteps step hstep),
      valid_dict_any.mp hhints⟩
  · rintro ⟨hsteps, hhints⟩
    have hneed : ∀ n : AdditionalEvidenceNeed, evidenceNeedContract.Valid n := fun n =>
      ⟨⟨trivial, trivial, valid_strs _, trivial⟩, rfl⟩
    exact ⟨⟨trivial, fun step hstep => (stepContract_valid step).mpr (hsteps step hstep), trivial,
      valid_risk _, trivial, valid_strs _, valid_dict_any.mpr hhints, trivial,
      fun _ _ => ⟨⟨⟨trivial, trivial⟩, rfl⟩, PyVal.noConfusion⟩,
      fun _ _ => ⟨⟨⟨trivial, trivial, trivial⟩, rfl⟩, PyVal.noConfusion⟩,
      fun _ _ => ⟨hneed _, PyVal.noConfusion⟩, trivial⟩, rfl⟩

/-! ### Round trips -/

/-- A plan comes back from its JSON exactly when it can be stored, and every plan that is read from
JSON can be stored. -/
theorem plan_roundTrip (plan : ThinkingPlan) :
    (((PyVal.dict (planToDict plan)).jsonCopy.bind fun copy => (planFromDict copy).toOption) =
        some plan ↔ PlanStorable plan) ∧
      ∀ v : PyVal, v.jsonCopy = some v → planFromDict v = .ok plan → PlanStorable plan := by
  have hread : ∀ v : PyVal, (planFromDict v).toOption = planContract.fieldValue v := by
    intro v
    unfold planFromDict
    cases planContract.fieldValue v <;> rfl
  constructor
  · rw [← planContract_write, ← planContract_valid,
      ← planContract.comesBack_iff planContract_lawful]
    exact iff_of_eq (congrArg (· = some plan) (Option.bind_congr fun v _ => hread v))
  · intro v hv hplan
    have hvalue : planContract.fieldValue v = some plan := by rw [← hread v, hplan]; rfl
    exact (planContract_valid plan).mp
      (planContract.valid_of_fieldValue planContract_lawful hv hvalue)

/-- A plan of one step that reads a file. -/
def readingPlan : ThinkingPlan :=
  { intent := "read", needsTaskLoop := true, riskLevel := .safe
    steps := [{ stepId := "s1", title := "Read", goal := "the text", tool := some "file_read"
                toolArguments := [("path", .str "notes.txt")], timeoutS := some (.finite 30) }]
    responseProjection := some ⟨"raw"⟩ }

theorem plan_roundTrip_reading :
    ((PyVal.dict (planToDict readingPlan)).jsonCopy.bind fun copy => (planFromDict copy).toOption) =
      some readingPlan := by
  have hname : ∀ s ∈ ["s1", "file_read"], IsName s := by decide +kernel
  exact (plan_roundTrip readingPlan).1.mpr
    ⟨List.forall_mem_singleton.mpr ⟨hname "s1" (by decide),
      fun tool htool => Option.some.inj htool ▸ hname "file_read" (by decide), rfl⟩, rfl⟩

end Trion.TaskResume
