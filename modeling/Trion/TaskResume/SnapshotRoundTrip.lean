import Trion.Library.Codec
import Trion.Library.OrderedDict
import Trion.Python.Annotations
import Trion.Python.Text
import Trion.TaskLoop.Contracts
import Trion.TaskResume.Serialization

/-!
# Snapshots come back

`parse_snapshot` of `task_resume_schema.py` and the receipt rows of `task_resume_receipts.py`: a
snapshot is read field by field, and each field is checked by its own reader.  That a snapshot is
the same says of a deadline that is a NaN only that it is one.

A snapshot comes back from its JSON exactly when it is within the bounds that `parse_snapshot`
checks and its artifacts hold what JSON holds.  Every snapshot that is read from JSON is such a
snapshot, and one malformed receipt row makes the whole record unreadable.
-/

namespace Trion.TaskResume

open Trion.Python Trion.TaskLoop OrderedDict

/-! ### Fields -/

/-- `ValueError(f"invalid_{name}")`. -/
def invalid (name : String) : PyError := .valueError ("invalid_" ++ name)

/-- `_field` without a default. -/
def field (d : PyDict) (name : String) : Except PyError PyVal :=
  match get? d name with
  | some v => .ok v
  | none => .error (.valueError ("missing_" ++ name))

/-- `_field` with a default. -/
def fieldOr (d : PyDict) (name : String) (default : PyVal) : PyVal := (get? d name).getD default

/-! ### Readers -/

/-- `_string`. -/
def readString (nonempty trimmed : Bool) (name : String) : PyVal → Except PyError String
  | .str s =>
    if (nonempty ∧ s = "") ∨ (trimmed ∧ s ≠ strip s) then .error (invalid name) else .ok s
  | _ => .error (invalid name)

/-- `_optional_string`, which is called without its two flags. -/
def readOptionalString (name : String) : PyVal → Except PyError (Option String)
  | .none => .ok none
  | v => (readString false false name v).map some

/-- `_bool`. -/
def readBool (name : String) : PyVal → Except PyError Bool
  | .bool b => .ok b
  | _ => .error (invalid name)

/-- `_int`. -/
def readInt (minimum : ℤ) (name : String) : PyVal → Except PyError ℤ
  | .int n => if n < minimum then .error (invalid name) else .ok n
  | _ => .error (invalid name)

/-- `_int` with the minimum 0. -/
def readCount (name : String) (v : PyVal) : Except PyError ℕ := (readInt 0 name v).map Int.toNat

/-- `_optional_int`. -/
def readOptionalInt (name : String) : PyVal → Except PyError (Option ℤ)
  | .none => .ok none
  | v => (readInt 0 name v).map some

/-- `_optional_number`. -/
def readOptionalNumber (name : String) : PyVal → Except PyError (Option PyFloat)
  | .none => .ok none
  | .int n => .ok (some (.finite n))
  | .float x => .ok (some x)
  | _ => .error (invalid name)

/-- `_enum`. -/
def readEnum {α : Type} (members : List α) (value : α → String) (name : String) :
    PyVal → Except PyError α
  | .str s =>
    match members.find? fun member => value member == s with
    | some member => .ok member
    | none => .error (invalid name)
  | _ => .error (invalid name)

/-- `_optional_enum`. -/
def readOptionalEnum {α : Type} (members : List α) (value : α → String) (name : String) :
    PyVal → Except PyError (Option α)
  | .none => .ok none
  | v => (readEnum members value name v).map some

/-- `_choice`. -/
def readChoice (allowed : List String) (name : String) : PyVal → Except PyError String
  | .str s => if s ∈ allowed then .ok s else .error (invalid name)
  | _ => .error (invalid name)

/-- `_list`. -/
def readList (name : String) : PyVal → Except PyError (List PyVal)
  | .list xs => .ok xs
  | _ => .error (invalid name)

/-- `_string_list`; the strings of a list that must not be empty must be trimmed too. -/
def readStringList (nonempty : Bool) (name : String) (v : PyVal) :
    Except PyError (List String) := do
  (← readList name v).mapM (readString nonempty nonempty name)

/-- `_int_dict`. -/
def readIntDict (name : String) : PyVal → Except PyError (List (String × ℕ))
  | .dict d => d.mapM fun e => do
    let key ← readString true true name (.str e.1)
    let value ← readCount name e.2
    return (key, value)
  | _ => .error (invalid name)

/-! ### Receipt rows -/

def executionStatuses : List StepExecutionStatus := [.success, .failed, .timeout, .skipped]

/-- A text of a receipt: not empty and trimmed. -/
def receiptText : PyVal → Option String
  | .str s => if IsName s then some s else none
  | _ => none

/-- One row of `step_operation_executions`. -/
def readExecution : PyVal → Except PyError StepOperationExecution
  | .dict row =>
    match PyDict.get row "receipt" with
    | .dict data =>
      match receiptText (PyDict.get data "step_id"), receiptText (PyDict.get data "operation"),
        receiptText (PyDict.get data "operation_contract_fingerprint") with
      | some stepId, some operation, some fingerprint =>
        match PyDict.get data "scope_preserved" with
        | .bool scopePreserved =>
          match PyDict.get row "status" with
          | .str s =>
            match executionStatuses.find? fun status => status.value == s with
            | some status => .ok ⟨⟨stepId, operation, fingerprint, scopePreserved⟩, status⟩
            | none => .error (.valueError "invalid_step_operation_status")
          | _ => .error (.valueError "invalid_step_operation_status")
        | _ => .error (.valueError "invalid_step_operation_scope")
      | _, _, _ => .error (.valueError "invalid_step_operation_receipt")
    | _ => .error (.valueError "invalid_step_operation_execution")
  | _ => .error (.valueError "invalid_step_operation_execution")

/-- `step_operation_executions`. -/
def stepOperationExecutions : PyVal → Except PyError (List StepOperationExecution)
  | .list rows => rows.mapM readExecution
  | _ => .error (.valueError "invalid_step_operation_executions")

/-- `_execution_history`. -/
def executionHistory (d : PyDict) : Except PyError (List StepOperationExecution) :=
  match get? d "step_operation_executions" with
  | none => .ok []
  | some value => stepOperationExecutions value

/-! ### Snapshots -/

def loopStates : List TaskLoopState :=
  [.executing, .reflecting, .replanning, .completed, .waiting, .blocked, .cancelled]

def stopReasons : List StopReason :=
  [.maxStepsReached, .stepFailed, .additionalEvidenceRequired, .replanBudgetExhausted,
    .failureAbortPolicy, .riskGateRequired, .userDecisionNeeded, .noProgress, .userCancelled,
    .objectiveNotMet, .capabilityGap]

def approvalModes : List String := ["approval_first", "risk_based", "permissive"]

def failureEscalations : List String := ["replan", "ask", "abort"]

/-- `parse_snapshot`. -/
def parseSnapshot : PyVal → Except PyError TaskLoopSnapshot
  | .dict d => do
    let planId ← readString false false "plan_id" (← field d "plan_id")
    let conversationId ← readString false false "conversation_id" (← field d "conversation_id")
    let objective ← readString false false "objective" (← field d "objective")
    let state ← readEnum loopStates TaskLoopState.value "state" (← field d "state")
    let currentStepIndex ← readCount "current_step_index" (← field d "current_step_index")
    let maxSteps ← readInt 1 "max_steps" (← field d "max_steps")
    let maxRetriesPerStep ← readInt 0 "max_retries_per_step" (← field d "max_retries_per_step")
    let totalSteps ← readCount "total_steps" (fieldOr d "total_steps" (.int 0))
    let toolCalls ← readCount "tool_calls" (fieldOr d "tool_calls" (.int 0))
    let maxTotalSteps ← readOptionalInt "max_total_steps" (fieldOr d "max_total_steps" .none)
    let maxToolCalls ← readOptionalInt "max_tool_calls" (fieldOr d "max_tool_calls" .none)
    let deadlineTs ← readOptionalNumber "deadline_ts" (fieldOr d "deadline_ts" .none)
    let replanCount ← readCount "replan_count" (fieldOr d "replan_count" (.int 0))
    let maxReplans ← readInt 0 "max_replans" (fieldOr d "max_replans" (.int 0))
    let loopDetectionEnabled ←
      readBool "loop_detection_enabled" (fieldOr d "loop_detection_enabled" (.bool true))
    let noProgressThreshold ←
      readInt 2 "no_progress_threshold" (fieldOr d "no_progress_threshold" (.int 3))
    let approvalMode ←
      readChoice approvalModes "approval_mode" (fieldOr d "approval_mode" (.str "risk_based"))
    let failureEscalation ← readChoice failureEscalations "failure_escalation"
      (fieldOr d "failure_escalation" (.str "replan"))
    let approvalRequiredTools ← readStringList false "approval_required_tools"
      (fieldOr d "approval_required_tools" (.list []))
    let completedSteps ←
      readStringList true "completed_steps" (fieldOr d "completed_steps" (.list []))
    let pendingStep ←
      readString false true "pending_step" (fieldOr d "pending_step" (.str ""))
    let artifacts ← readList "artifacts" (fieldOr d "artifacts" (.list []))
    let stopReason ← readOptionalEnum stopReasons StopReason.value "stop_reason"
      (fieldOr d "stop_reason" .none)
    let waitingReason ← readOptionalString "waiting_reason" (fieldOr d "waiting_reason" .none)
    let waitingSource ← readOptionalString "waiting_source" (fieldOr d "waiting_source" .none)
    let errorCount ← readCount "error_count" (fieldOr d "error_count" (.int 0))
    let retryCounts ← readIntDict "retry_counts" (fieldOr d "retry_counts" (.dict []))
    let progressSignature ←
      readString false false "progress_signature" (fieldOr d "progress_signature" (.str ""))
    let noProgressCount ← readCount "no_progress_count" (fieldOr d "no_progress_count" (.int 0))
    let previousState ← readOptionalEnum loopStates TaskLoopState.value
      "previous_state" (fieldOr d "previous_state" .none)
    let stepOperationExecutions ← executionHistory d
    return {
      planId, conversationId, objective, state, currentStepIndex, maxSteps, maxRetriesPerStep,
      totalSteps, toolCalls, maxTotalSteps, maxToolCalls, deadlineTs, replanCount, maxReplans,
      loopDetectionEnabled, noProgressThreshold, approvalMode, failureEscalation,
      approvalRequiredTools, completedSteps, pendingStep, artifacts, stopReason, waitingReason,
      waitingSource, errorCount, retryCounts, progressSignature, noProgressCount, previousState,
      stepOperationExecutions }
  | _ => .error (invalid "snapshot")

/-! ### What can be stored -/

/-- An execution whose receipt can be stored. -/
structure ExecutionStorable (execution : StepOperationExecution) : Prop where
  stepId : IsName execution.receipt.stepId
  operation : IsName execution.receipt.operation
  fingerprint : IsName execution.receipt.operationContractFingerprint

/-- A snapshot that can be stored. -/
structure SnapshotStorable (s : TaskLoopSnapshot) : Prop where
  maxSteps : 1 ≤ s.maxSteps
  maxRetriesPerStep : 0 ≤ s.maxRetriesPerStep
  maxTotalSteps : ∀ n ∈ s.maxTotalSteps, 0 ≤ n
  maxToolCalls : ∀ n ∈ s.maxToolCalls, 0 ≤ n
  maxReplans : 0 ≤ s.maxReplans
  noProgressThreshold : 2 ≤ s.noProgressThreshold
  approvalMode : s.approvalMode ∈ approvalModes
  failureEscalation : s.failureEscalation ∈ failureEscalations
  completedSteps : ∀ id ∈ s.completedSteps, IsName id
  pendingStep : s.pendingStep = strip s.pendingStep
  artifacts : PyVal.jsonCopyItems s.artifacts = some s.artifacts
  retryCounts : ∀ e ∈ s.retryCounts, IsName e.1
  executions : ∀ e ∈ s.stepOperationExecutions, ExecutionStorable e

/-! ### Reading back -/

section Readers

variable {name : String}

lemma readString_str {nonempty trimmed : Bool} {s : String} (hnonempty : nonempty = true → s ≠ "")
    (htrimmed : trimmed = true → s = strip s) :
    readString nonempty trimmed name (.str s) = .ok s := by
  refine if_neg ?_
  rintro (⟨hn, hs⟩ | ⟨ht, hs⟩)
  · exact hnonempty hn hs
  · exact hs (htrimmed ht)

lemma readString_free (s : String) : readString false false name (.str s) = .ok s :=
  readString_str (fun h => absurd h Bool.false_ne_true) fun h => absurd h Bool.false_ne_true

lemma of_readString {nonempty trimmed : Bool} {v : PyVal} {s : String}
    (h : readString nonempty trimmed name v = .ok s) :
    v = .str s ∧ (nonempty = true → s ≠ "") ∧ (trimmed = true → s = strip s) := by
  cases v with
  | str t =>
    rw [readString] at h
    split at h
    · cases h
    · rename_i hchecks
      obtain rfl := Except.ok.inj h
      obtain ⟨hnonempty, htrimmed⟩ := not_or.mp hchecks
      exact ⟨rfl, fun hn hs => hnonempty ⟨hn, hs⟩, fun ht => not_not.mp fun hs => htrimmed ⟨ht, hs⟩⟩
  | _ => cases h

lemma readInt_int {minimum n : ℤ} (h : minimum ≤ n) : readInt minimum name (.int n) = .ok n :=
  if_neg (Int.not_lt.mpr h)

lemma of_readInt {minimum n : ℤ} {v : PyVal} (h : readInt minimum name v = .ok n) :
    minimum ≤ n := by
  cases v with
  | int m =>
    rw [readInt] at h
    split at h
    · cases h
    · rename_i hle
      obtain rfl := Except.ok.inj h
      exact Int.not_lt.mp hle
  | _ => cases h

lemma readCount_int (n : ℕ) : readCount name (.int n) = .ok n := by
  rw [readCount, readInt_int (Int.natCast_nonneg n)]
  rfl

lemma readOptionalString_optional (o : Option String) :
    readOptionalString name (optional .str o) = .ok o := by
  cases o with
  | none => rfl
  | some s =>
    have hread : readString false false name (.str s) = .ok s := readString_free s
    exact congrArg (Except.map some) hread

lemma readOptionalInt_optional {o : Option ℤ} (h : ∀ n ∈ o, 0 ≤ n) :
    readOptionalInt name (optional .int o) = .ok o := by
  cases o with
  | none => rfl
  | some n =>
    have hread : readInt 0 name (.int n) = .ok n := readInt_int (h n rfl)
    exact congrArg (Except.map some) hread

lemma of_readOptionalInt {v : PyVal} {o : Option ℤ} (h : readOptionalInt name v = .ok o) :
    ∀ n ∈ o, 0 ≤ n := by
  by_cases hnone : v = .none
  · subst hnone
    obtain rfl := Except.ok.inj h
    exact fun n hn => absurd hn (Option.not_mem_none n)
  · have hread : readOptionalInt name v = (readInt 0 name v).map some := by
      cases v with
      | none => exact absurd rfl hnone
      | _ => rfl
    rw [hread] at h
    cases hint : readInt 0 name v with
    | error e => rw [hint] at h; cases h
    | ok m =>
      rw [hint] at h
      obtain rfl := Except.ok.inj h
      rintro n hn
      obtain rfl := Option.some.inj hn
      exact of_readInt hint

lemma readOptionalNumber_optional (o : Option PyFloat) :
    readOptionalNumber name (optional floatOf o) = .ok o := by
  cases o <;> rfl

lemma readEnum_value {α : Type} {members : List α} {value : α → String} {a : α}
    (h : members.find? (fun member => value member == value a) = some a) :
    readEnum members value name (.str (value a)) = .ok a := by
  rw [readEnum, h]

lemma readOptionalEnum_optional {α : Type} {members : List α} {value : α → String}
    (h : ∀ a, members.find? (fun member => value member == value a) = some a) (o : Option α) :
    readOptionalEnum members value name (optional (fun a => .str (value a)) o) = .ok o := by
  cases o with
  | none => rfl
  | some a =>
    have hread : readEnum members value name (.str (value a)) = .ok a := readEnum_value (h a)
    exact congrArg (Except.map some) hread

lemma readChoice_str {allowed : List String} {s : String} (h : s ∈ allowed) :
    readChoice allowed name (.str s) = .ok s := if_pos h

lemma of_readChoice {allowed : List String} {v : PyVal} {s : String}
    (h : readChoice allowed name v = .ok s) : s ∈ allowed := by
  cases v with
  | str t =>
    rw [readChoice] at h
    split at h
    · rename_i hmem
      obtain rfl := Except.ok.inj h
      exact hmem
    · cases h
  | _ => cases h

lemma of_readList {v : PyVal} {xs : List PyVal} (h : readList name v = .ok xs) : v = .list xs := by
  cases v with
  | list ys =>
    obtain rfl := Except.ok.inj h
    rfl
  | _ => cases h

/-- What is read from a list is read item by item. -/
lemma forall₂_of_mapM_ok {α β : Type} {read : α → Except PyError β} {xs : List α} {ys : List β}
    (h : xs.mapM read = .ok ys) : List.Forall₂ (fun x y => read x = .ok y) xs ys := by
  induction xs generalizing ys with
  | nil =>
    obtain rfl := Except.ok.inj h
    exact .nil
  | cons x xs ih =>
    rw [List.mapM_cons] at h
    obtain ⟨y, hy, h⟩ := ok_of_bind h
    obtain ⟨rest, hrest, h⟩ := ok_of_bind h
    obtain rfl := Except.ok.inj h
    exact .cons hy (ih hrest)

lemma exists_of_mapM_ok {α β : Type} {read : α → Except PyError β} {xs : List α} {ys : List β}
    (h : xs.mapM read = .ok ys) : ∀ y ∈ ys, ∃ x ∈ xs, read x = .ok y := by
  have hrows := forall₂_of_mapM_ok h
  clear h
  induction hrows with
  | nil => exact fun y hy => absurd hy List.not_mem_nil
  | cons hread _ ih =>
    intro y hy
    rcases List.mem_cons.mp hy with rfl | hy
    · exact ⟨_, List.mem_cons_self, hread⟩
    · obtain ⟨x, hx, hread⟩ := ih y hy
      exact ⟨x, List.mem_cons_of_mem _ hx, hread⟩

lemma readStringList_strings {nonempty : Bool} {xs : List String}
    (h : nonempty = true → ∀ x ∈ xs, IsName x) :
    readStringList nonempty name (strings xs) = .ok xs := by
  change (xs.map PyVal.str).mapM (readString nonempty nonempty name) = .ok xs
  refine Codec.ReadsBack.list (P := fun x => nonempty = true → IsName x) (fun x hx => ?_)
    fun x hx hn => h hn x hx
  exact readString_str (fun hn => (hx hn).1) fun hn => (hx hn).2

lemma of_readStringList {v : PyVal} {xs : List String}
    (h : readStringList true name v = .ok xs) : ∀ x ∈ xs, IsName x := by
  obtain ⟨vs, -, h⟩ := ok_of_bind h
  intro x hx
  obtain ⟨v, -, hread⟩ := exists_of_mapM_ok h x hx
  obtain ⟨-, hnonempty, htrimmed⟩ := of_readString hread
  exact ⟨hnonempty rfl, htrimmed rfl⟩

lemma readIntDict_dict {d : List (String × ℕ)} (h : ∀ e ∈ d, IsName e.1) :
    readIntDict name (.dict (d.map fun e => (e.1, .int e.2))) = .ok d := by
  refine Codec.ReadsBack.list (P := fun e => IsName e.1) (fun e he => ?_) h
  rw [readString_str (fun _ => he.1) fun _ => he.2, readCount_int]
  rfl

lemma of_readIntDict {v : PyVal} {d : List (String × ℕ)} (h : readIntDict name v = .ok d) :
    ∀ e ∈ d, IsName e.1 := by
  cases v with
  | dict rows =>
    intro e he
    obtain ⟨row, -, hread⟩ := exists_of_mapM_ok h e he
    obtain ⟨key, hkey, hread⟩ := ok_of_bind hread
    obtain ⟨value, -, hread⟩ := ok_of_bind hread
    obtain rfl := Except.ok.inj hread
    obtain ⟨-, hnonempty, htrimmed⟩ := of_readString hkey
    exact ⟨hnonempty rfl, htrimmed rfl⟩
  | _ => cases h

end Readers

/-! ### Receipt rows come back -/

lemma receiptText_str {s : String} (h : IsName s) : receiptText (.str s) = some s := if_pos h

lemma of_receiptText {v : PyVal} {s : String} (h : receiptText v = some s) : IsName s := by
  cases v with
  | str t =>
    rw [receiptText] at h
    split at h
    · rename_i hname
      obtain rfl := Option.some.inj h
      exact hname
    · cases h
  | _ => cases h

lemma find?_executionStatus (status : StepExecutionStatus) :
    executionStatuses.find? (fun member => member.value == status.value) = some status := by
  cases status <;> decide

lemma find?_loopState (state : TaskLoopState) :
    loopStates.find? (fun member => member.value == state.value) = some state := by
  cases state <;> decide

lemma find?_stopReason (reason : StopReason) :
    stopReasons.find? (fun member => member.value == reason.value) = some reason := by
  cases reason <;> decide

lemma readExecution_dict {e : StepOperationExecution} (h : ExecutionStorable e) :
    readExecution (.dict (executionToDict e)) = .ok e := by
  have hreceipt : PyDict.get (executionToDict e) "receipt" = .dict (receiptToDict e.receipt) := rfl
  have hstatus : PyDict.get (executionToDict e) "status" = .str e.status.value := rfl
  have hstepId : PyDict.get (receiptToDict e.receipt) "step_id" = .str e.receipt.stepId := rfl
  have hoperation : PyDict.get (receiptToDict e.receipt) "operation" =
    .str e.receipt.operation := rfl
  have hfingerprint : PyDict.get (receiptToDict e.receipt) "operation_contract_fingerprint" =
    .str e.receipt.operationContractFingerprint := rfl
  have hscope : PyDict.get (receiptToDict e.receipt) "scope_preserved" =
    .bool e.receipt.scopePreserved := rfl
  simp only [readExecution, hreceipt, hstepId, hoperation, hfingerprint, hscope, hstatus,
    receiptText_str h.stepId, receiptText_str h.operation, receiptText_str h.fingerprint,
    find?_executionStatus]

lemma of_readExecution {v : PyVal} {e : StepOperationExecution} (h : readExecution v = .ok e) :
    ExecutionStorable e := by
  unfold readExecution at h
  split at h
  · split at h
    · split at h
      · rename_i hstepId hoperation hfingerprint
        split at h
        · split at h
          · split at h
            · obtain rfl := Except.ok.inj h
              exact ⟨of_receiptText hstepId, of_receiptText hoperation,
                of_receiptText hfingerprint⟩
            · cases h
          · cases h
        · cases h
      · cases h
    · cases h
  · cases h

/-! ### Snapshots come back -/

lemma jsonCopy_optional {α : Type} {write : α → PyVal}
    (h : ∀ a, (write a).jsonCopy = some (write a)) (o : Option α) :
    (optional write o).jsonCopy = some (optional write o) := by
  cases o with
  | none => rfl
  | some a => exact h a

lemma jsonCopy_list {vs : List PyVal} (h : ∀ v ∈ vs, v.jsonCopy = some v) :
    (PyVal.list vs).jsonCopy = some (.list vs) :=
  congrArg (Option.map PyVal.list) (jsonCopyItems_of_forall h)

lemma jsonCopy_strings (xs : List String) : (strings xs).jsonCopy = some (strings xs) := by
  refine jsonCopy_list fun v hv => ?_
  obtain ⟨x, -, rfl⟩ := List.mem_map.mp hv
  rfl

/-- The JSON of a snapshot is its dictionary, if its artifacts are JSON. -/
lemma jsonCopy_snapshotToDict {s : TaskLoopSnapshot}
    (h : PyVal.jsonCopyItems s.artifacts = some s.artifacts) :
    (PyVal.dict (snapshotToDict s)).jsonCopy = some (.dict (snapshotToDict s)) := by
  have hretries : (PyVal.dict (s.retryCounts.map fun e => (e.1, .int e.2))).jsonCopy = _ :=
    congrArg (Option.map PyVal.dict) (jsonCopyEntries_of_forall fun e he => by
      obtain ⟨e', -, rfl⟩ := List.mem_map.mp he
      rfl)
  have hexecutions : (PyVal.list
      (s.stepOperationExecutions.map fun e => .dict (executionToDict e))).jsonCopy = _ :=
    jsonCopy_list fun v hv => by
      obtain ⟨e, -, rfl⟩ := List.mem_map.mp hv
      rfl
  refine congrArg (Option.map PyVal.dict) (jsonCopyEntries_of_forall ?_)
  simp only [snapshotToDict, List.forall_mem_cons]
  exact ⟨rfl, rfl, rfl, rfl, rfl, rfl, rfl, rfl, rfl, jsonCopy_optional (fun _ => rfl) _,
    jsonCopy_optional (fun _ => rfl) _, jsonCopy_optional (fun _ => rfl) _, rfl, rfl, rfl, rfl, rfl,
    rfl, jsonCopy_strings _, jsonCopy_strings _, rfl, congrArg (Option.map PyVal.list) h,
    jsonCopy_optional (fun _ => rfl) _, jsonCopy_optional (fun _ => rfl) _,
    jsonCopy_optional (fun _ => rfl) _, rfl, hretries, rfl, rfl,
    jsonCopy_optional (fun _ => rfl) _, hexecutions, fun e he => absurd he List.not_mem_nil⟩

/-- A snapshot that can be stored is read from its dictionary. -/
lemma parseSnapshot_snapshotToDict {s : TaskLoopSnapshot} (h : SnapshotStorable s) :
    parseSnapshot (.dict (snapshotToDict s)) = .ok s := by
  have hexecutions : executionHistory (snapshotToDict s) = .ok s.stepOperationExecutions := by
    change (s.stepOperationExecutions.map fun e => PyVal.dict (executionToDict e)).mapM
      readExecution = _
    exact Codec.ReadsBack.list (P := ExecutionStorable) (fun e he => readExecution_dict he)
      h.executions
  have hpending : readString false true "pending_step" (.str s.pendingStep) = .ok s.pendingStep :=
    readString_str (fun hfalse => absurd hfalse Bool.false_ne_true) fun _ => h.pendingStep
  rw [parseSnapshot, hexecutions]
  simp only [field, fieldOr, snapshotToDict, get?, List.lookup_cons, String.reduceBEq,
    Option.getD_some, bind_ok, readString_free, readCount_int, readEnum_value (find?_loopState _),
    readInt_int h.maxSteps, readInt_int h.maxRetriesPerStep, readInt_int h.maxReplans,
    readInt_int h.noProgressThreshold, readOptionalInt_optional h.maxTotalSteps,
    readOptionalInt_optional h.maxToolCalls, readOptionalNumber_optional, readBool,
    readChoice_str h.approvalMode, readChoice_str h.failureEscalation,
    readStringList_strings fun hfalse => absurd hfalse Bool.false_ne_true,
    readStringList_strings fun _ => h.completedSteps, hpending, readList,
    readOptionalEnum_optional find?_stopReason, readOptionalEnum_optional find?_loopState,
    readOptionalString_optional, readIntDict_dict h.retryCounts]
  rfl

/-- The history of a snapshot is read row by row. -/
lemma of_executionHistory {d : PyDict} {executions : List StepOperationExecution}
    (h : executionHistory d = .ok executions) : ∀ e ∈ executions, ExecutionStorable e := by
  unfold executionHistory at h
  cases hget : get? d "step_operation_executions" with
  | none =>
    rw [hget] at h
    obtain rfl := Except.ok.inj h
    exact fun e he => absurd he List.not_mem_nil
  | some value =>
    rw [hget] at h
    cases value with
    | list rows =>
      intro e he
      obtain ⟨row, -, hrow⟩ := exists_of_mapM_ok h e he
      exact of_readExecution hrow
    | _ => cases h

/-- A value of a JSON record, or the default in its place, is JSON. -/
lemma jsonCopy_fieldOr {d : PyDict} {name : String} {default : PyVal}
    (hd : PyVal.jsonCopyEntries d = some d) (hdefault : default.jsonCopy = some default) :
    (fieldOr d name default).jsonCopy = some (fieldOr d name default) := by
  unfold fieldOr
  cases hget : get? d name with
  | none => exact hdefault
  | some v => exact jsonCopy_of_mem_entries hd (name, v) (mem_of_get? hget)

/-- What the readers of `parse_snapshot` have let through. -/
structure SnapshotRead (d : PyDict) (s : TaskLoopSnapshot) : Prop where
  maxSteps : ∃ v, readInt 1 "max_steps" v = .ok s.maxSteps
  maxRetriesPerStep : ∃ v, readInt 0 "max_retries_per_step" v = .ok s.maxRetriesPerStep
  maxTotalSteps : ∃ v, readOptionalInt "max_total_steps" v = .ok s.maxTotalSteps
  maxToolCalls : ∃ v, readOptionalInt "max_tool_calls" v = .ok s.maxToolCalls
  maxReplans : ∃ v, readInt 0 "max_replans" v = .ok s.maxReplans
  noProgressThreshold : ∃ v, readInt 2 "no_progress_threshold" v = .ok s.noProgressThreshold
  approvalMode : ∃ v, readChoice approvalModes "approval_mode" v = .ok s.approvalMode
  failureEscalation :
    ∃ v, readChoice failureEscalations "failure_escalation" v = .ok s.failureEscalation
  completedSteps : ∃ v, readStringList true "completed_steps" v = .ok s.completedSteps
  pendingStep : ∃ v, readString false true "pending_step" v = .ok s.pendingStep
  artifacts : readList "artifacts" (fieldOr d "artifacts" (.list [])) = .ok s.artifacts
  retryCounts : ∃ v, readIntDict "retry_counts" v = .ok s.retryCounts
  executions : executionHistory d = .ok s.stepOperationExecutions

lemma snapshotRead_of_parseSnapshot {d : PyDict} {s : TaskLoopSnapshot}
    (h : parseSnapshot (.dict d) = .ok s) : SnapshotRead d s := by
  -- the identity, the state and the step the snapshot stands at
  obtain ⟨_, -, h⟩ := ok_of_bind h
  obtain ⟨planId, -, h⟩ := ok_of_bind h
  obtain ⟨_, -, h⟩ := ok_of_bind h
  obtain ⟨conversationId, -, h⟩ := ok_of_bind h
  obtain ⟨_, -, h⟩ := ok_of_bind h
  obtain ⟨objective, -, h⟩ := ok_of_bind h
  obtain ⟨_, -, h⟩ := ok_of_bind h
  obtain ⟨state, -, h⟩ := ok_of_bind h
  obtain ⟨_, -, h⟩ := ok_of_bind h
  obtain ⟨currentStepIndex, -, h⟩ := ok_of_bind h
  -- the budgets
  obtain ⟨_, -, h⟩ := ok_of_bind h
  obtain ⟨maxSteps, hmaxSteps, h⟩ := ok_of_bind h
  obtain ⟨_, -, h⟩ := ok_of_bind h
  obtain ⟨maxRetriesPerStep, hmaxRetries, h⟩ := ok_of_bind h
  obtain ⟨totalSteps, -, h⟩ := ok_of_bind h
  obtain ⟨toolCalls, -, h⟩ := ok_of_bind h
  obtain ⟨maxTotalSteps, hmaxTotalSteps, h⟩ := ok_of_bind h
  obtain ⟨maxToolCalls, hmaxToolCalls, h⟩ := ok_of_bind h
  obtain ⟨deadlineTs, -, h⟩ := ok_of_bind h
  obtain ⟨replanCount, -, h⟩ := ok_of_bind h
  obtain ⟨maxReplans, hmaxReplans, h⟩ := ok_of_bind h
  obtain ⟨loopDetectionEnabled, -, h⟩ := ok_of_bind h
  obtain ⟨noProgressThreshold, hthreshold, h⟩ := ok_of_bind h
  -- the policy
  obtain ⟨approvalMode, hmode, h⟩ := ok_of_bind h
  obtain ⟨failureEscalation, hescalation, h⟩ := ok_of_bind h
  obtain ⟨approvalRequiredTools, -, h⟩ := ok_of_bind h
  -- what has been done
  obtain ⟨completedSteps, hcompleted, h⟩ := ok_of_bind h
  obtain ⟨pendingStep, hpending, h⟩ := ok_of_bind h
  obtain ⟨artifacts, hartifacts, h⟩ := ok_of_bind h
  obtain ⟨stopReason, -, h⟩ := ok_of_bind h
  obtain ⟨waitingReason, -, h⟩ := ok_of_bind h
  obtain ⟨waitingSource, -, h⟩ := ok_of_bind h
  obtain ⟨errorCount, -, h⟩ := ok_of_bind h
  obtain ⟨retryCounts, hretries, h⟩ := ok_of_bind h
  obtain ⟨progressSignature, -, h⟩ := ok_of_bind h
  obtain ⟨noProgressCount, -, h⟩ := ok_of_bind h
  obtain ⟨previousState, -, h⟩ := ok_of_bind h
  obtain ⟨executions, hexecutions, h⟩ := ok_of_bind h
  obtain rfl := Except.ok.inj h
  exact ⟨⟨_, hmaxSteps⟩, ⟨_, hmaxRetries⟩, ⟨_, hmaxTotalSteps⟩, ⟨_, hmaxToolCalls⟩,
    ⟨_, hmaxReplans⟩, ⟨_, hthreshold⟩, ⟨_, hmode⟩, ⟨_, hescalation⟩, ⟨_, hcompleted⟩,
    ⟨_, hpending⟩, hartifacts, ⟨_, hretries⟩, hexecutions⟩

/-- What is read from JSON as a snapshot can be stored. -/
lemma storable_of_parseSnapshot {v : PyVal} {s : TaskLoopSnapshot} (hv : v.jsonCopy = some v)
    (h : parseSnapshot v = .ok s) : SnapshotStorable s := by
  cases v with
  | dict d =>
    have hread := snapshotRead_of_parseSnapshot h
    have hartifacts : (PyVal.list s.artifacts).jsonCopy = some (.list s.artifacts) :=
      of_readList hread.artifacts ▸ jsonCopy_fieldOr (jsonCopyEntries_of_dict hv) rfl
    obtain ⟨_, hpending⟩ := hread.pendingStep
    exact {
      maxSteps := hread.maxSteps.elim fun _ hn => of_readInt hn
      maxRetriesPerStep := hread.maxRetriesPerStep.elim fun _ hn => of_readInt hn
      maxTotalSteps := hread.maxTotalSteps.elim fun _ hn => of_readOptionalInt hn
      maxToolCalls := hread.maxToolCalls.elim fun _ hn => of_readOptionalInt hn
      maxReplans := hread.maxReplans.elim fun _ hn => of_readInt hn
      noProgressThreshold := hread.noProgressThreshold.elim fun _ hn => of_readInt hn
      approvalMode := hread.approvalMode.elim fun _ hs => of_readChoice hs
      failureEscalation := hread.failureEscalation.elim fun _ hs => of_readChoice hs
      completedSteps := hread.completedSteps.elim fun _ hs => of_readStringList hs
      pendingStep := (of_readString hpending).2.2 rfl
      artifacts := jsonCopyItems_of_list hartifacts
      retryCounts := hread.retryCounts.elim fun _ hs => of_readIntDict hs
      executions := of_executionHistory hread.executions }
  | _ => cases h

/-! ### Round trips -/

/-- A snapshot comes back from its JSON exactly when it can be stored; what is read from JSON can
be stored; and no row of the history of a record that is read is left out. -/
theorem snapshot_roundTrip (s : TaskLoopSnapshot) :
    (((PyVal.dict (snapshotToDict s)).jsonCopy.bind fun copy => (parseSnapshot copy).toOption) =
        some s ↔ SnapshotStorable s) ∧
      (∀ v : PyVal, v.jsonCopy = some v → parseSnapshot v = .ok s → SnapshotStorable s) ∧
      ∀ (d : PyDict) (rows : List PyVal),
        get? d "step_operation_executions" = some (.list rows) → parseSnapshot (.dict d) = .ok s →
        List.Forall₂ (fun row execution => readExecution row = .ok execution) rows
          s.stepOperationExecutions := by
  refine ⟨⟨fun h => ?_, fun h => ?_⟩, fun v hv hread => storable_of_parseSnapshot hv hread,
    fun d rows hrows hread => ?_⟩
  · obtain ⟨copy, hcopy, hread⟩ := Option.bind_eq_some_iff.mp h
    refine storable_of_parseSnapshot (jsonCopy_idem hcopy) ?_
    cases hparse : parseSnapshot copy with
    | error e => rw [hparse] at hread; cases hread
    | ok s' =>
      rw [hparse] at hread
      exact congrArg Except.ok (Option.some.inj hread)
  · rw [jsonCopy_snapshotToDict h.artifacts, Option.bind_some, parseSnapshot_snapshotToDict h]
    rfl
  · have hhistory := (snapshotRead_of_parseSnapshot hread).executions
    rw [executionHistory, hrows] at hhistory
    exact forall₂_of_mapM_ok hhistory

/-- A snapshot in the middle of its task: one step done, one to go. -/
def halfwaySnapshot : TaskLoopSnapshot :=
  { planId := "p1", conversationId := "c1", objective := "read", state := .waiting
    currentStepIndex := 1, maxSteps := 4, maxRetriesPerStep := 1, completedSteps := ["s1"]
    artifacts := [.dict [("text", .str "found")]], retryCounts := [("s1", 1)]
    previousState := some .executing
    stepOperationExecutions := [⟨⟨"s1", "read", "f1", true⟩, .success⟩] }

theorem snapshot_roundTrip_halfway :
    ((PyVal.dict (snapshotToDict halfwaySnapshot)).jsonCopy.bind fun copy =>
      (parseSnapshot copy).toOption) = some halfwaySnapshot := by
  have hname : ∀ s ∈ ["s1", "read", "f1"], IsName s := by decide +kernel
  refine (snapshot_roundTrip halfwaySnapshot).1.mpr {
    maxSteps := by decide
    maxRetriesPerStep := by decide
    maxTotalSteps := fun n hn => absurd hn (Option.not_mem_none n)
    maxToolCalls := fun n hn => absurd hn (Option.not_mem_none n)
    maxReplans := by decide
    noProgressThreshold := by decide
    approvalMode := by decide
    failureEscalation := by decide
    completedSteps := List.forall_mem_singleton.mpr (hname "s1" (by decide))
    pendingStep := by decide +kernel
    artifacts := rfl
    retryCounts := List.forall_mem_singleton.mpr (hname "s1" (by decide))
    executions := List.forall_mem_singleton.mpr
      ⟨hname "s1" (by decide), hname "read" (by decide), hname "f1" (by decide)⟩ }

end Trion.TaskResume
