import Trion.Library.OperationRun
import Trion.Library.OrderedDict
import Trion.Pipeline.ContractContext
import Trion.TaskResume.Serialization

/-!
# The store of waiting tasks

`task_resume_store.py` and `task_resume_finalization.py`: a file of task records, each of which
is registered as waiting, claimed or cancelled, and finalized by the claim's owner.  Every
operation loads the whole file, changes it and writes it back under one lock, so a run is a
list of operations.

The time, the identifier of a new task and the limit on tasks are inputs of an operation, and
so is whether the file can be read and parsed and whether it can be written at that moment.
-/

namespace Trion.TaskResume

open Trion.Python Trion.Thinking Trion.TaskLoop OrderedDict OperationRun

/-! ### The file -/

/-- The store file: there is none yet, or it holds a value that JSON text stands for. -/
structure StoreFile where
  content : Option PyVal
  json : ∀ v ∈ content, v.jsonCopy = some v

/-- No file. -/
def StoreFile.absent : StoreFile := ⟨none, by simp⟩

def emptyStore : PyDict := [("tasks", .dict [])]

/-- `_load_store`; a file that cannot be read or parsed counts as an empty store. -/
def loadStore (readable : Bool) (file : StoreFile) : PyDict :=
  match file.content with
  | none => emptyStore
  | some v =>
    if readable then
      match v with
      | .dict payload =>
        match PyDict.get payload "tasks" with
        | .dict _ => payload
        | _ => insert payload "tasks" (.dict [])
      | _ => emptyStore
    else emptyStore

/-- `payload["tasks"]` of a loaded store. -/
def tasksOf (payload : PyDict) : PyDict := (PyDict.get payload "tasks").asDict?.getD []

/-- `_save_store`: nothing is written where the payload is not JSON or the file not writable. -/
def saveStore (writable : Bool) (payload : PyDict) : Except PyError StoreFile :=
  match h : (PyVal.dict payload).jsonCopy with
  | none => .error .typeError
  | some v =>
    if writable then .ok ⟨some v, by simpa using jsonCopy_idem h⟩
    else .error (.callbackError "store_not_writable")

/-- The payload with a record: `_payload_with_task`, and what the operations that change a
record in place leave. -/
def payloadWithTask (payload : PyDict) (key : String) (task : PyDict) : PyDict :=
  insert payload "tasks" (.dict (insert (tasksOf payload) key (.dict task)))

/-! ### Registration -/

/-- What an operation meets outside: the time, and the state of the file system. -/
structure StoreEnv where
  now : String
  readable : Bool := true
  writable : Bool := true
deriving DecidableEq, Repr

/-- The arguments of `register_waiting_task`, with the new identifier and the limit. -/
structure Registration where
  taskId : String
  plan : ThinkingPlan
  snapshot : TaskLoopSnapshot
  orchestratorContext : PyVal := .none
  availableTools : PyVal := .none
  toolTruthSource : PyVal := .none
  maxTasks : ℤ := 200

/-- The record of a new task. -/
def waitingRecord (rt : PyRuntime) (now : String) (r : Registration) : PyDict :=
  [("task_id", .str r.taskId), ("status", .str TaskLoopState.waiting.value),
    ("created_at", .str now), ("updated_at", .str now), ("plan_id", .str r.snapshot.planId),
    ("conversation_id", .str r.snapshot.conversationId),
    ("objective", .str r.snapshot.objective), ("plan", .dict (planToDict r.plan)),
    ("snapshot", .dict (snapshotToDict r.snapshot)),
    ("orchestrator_context", .dict (r.orchestratorContext.asDict?.getD [])),
    ("operation_contract_fingerprint",
      (PyVal.str (Pipeline.operationContractFingerprintFromContext r.orchestratorContext)).or
        .none),
    ("available_tools", .list (r.availableTools.asList?.getD [])),
    ("tool_truth_source",
      if r.toolTruthSource.truthy then .str (r.toolTruthSource.toStr rt) else .none),
    ("result", .none)]

/-- By what `_trim_tasks` orders a record. -/
def trimKey (rt : PyRuntime) (task : PyVal) : Except PyError String := do
  return (← (task.or (.dict [])).getAttr "updated_at").strOr rt ""

/-- The identifiers `_trim_tasks` removes: of the tasks over the limit, the oldest ones. -/
def overflowing (rt : PyRuntime) (tasks : PyDict) (maxTasks : ℤ) : Except PyError (List String) :=
  let limit := (max 10 (if maxTasks = 0 then 200 else maxTasks)).toNat
  if tasks.length ≤ limit then .ok []
  else do
    let dated ← tasks.mapM fun e => return (e.1, ← trimKey rt e.2)
    return ((dated.mergeSort fun a b => a.2 ≤ b.2).take (tasks.length - limit)).map (·.1)

/-- `_trim_tasks`. -/
def trimTasks (rt : PyRuntime) (tasks : PyDict) (maxTasks : ℤ) : Except PyError PyDict := do
  return (← overflowing rt tasks maxTasks).foldl erase tasks

/-- `register_waiting_task`. -/
def registerWaitingTask (rt : PyRuntime) (env : StoreEnv) (r : Registration) (file : StoreFile) :
    Except PyError StoreFile := do
  let payload := loadStore env.readable file
  let tasks ← trimTasks rt (insert (tasksOf payload) r.taskId (.dict (waitingRecord rt env.now r)))
    r.maxTasks
  saveStore env.writable (insert payload "tasks" (.dict tasks))

/-! ### Claim and cancellation -/

/-- What an operation on a record answers, and the file it leaves. -/
abbrev RecordReply := Except PyError (Option PyDict × StoreFile)

/-- The record under a key of the loaded store, if it is a dictionary. -/
def loadedTask (env : StoreEnv) (file : StoreFile) (key : String) : Option PyDict :=
  (get? (tasksOf (loadStore env.readable file)) key).bind PyVal.asDict?

/-- Writes a record that the answer shows. -/
def storeTask (env : StoreEnv) (file : StoreFile) (key : String) (task : PyDict) : RecordReply := do
  let file' ← saveStore env.writable (payloadWithTask (loadStore env.readable file) key task)
  return (some task, file')

/-- `str(task.get("status") or "") == "waiting"`. -/
def isWaiting (rt : PyRuntime) (task : PyDict) : Bool :=
  (PyDict.get task "status").strOr rt "" = TaskLoopState.waiting.value

/-- The snapshot of a record is a dictionary in the state `waiting`. -/
def snapshotWaiting? (rt : PyRuntime) (task : PyDict) : Option PyDict :=
  (PyDict.get task "snapshot").asDict?.filter fun snapshot =>
    (PyDict.get snapshot "state").strOr rt "" = TaskLoopState.waiting.value

/-- `claim_waiting_task`. -/
def claimWaitingTask (rt : PyRuntime) (env : StoreEnv) (taskId : String)
    (expectedUpdatedAt : Option String) (file : StoreFile) : RecordReply :=
  let key := strip taskId
  if key = "" then .ok (none, file)
  else match loadedTask env file key with
    | none => .ok (none, file)
    | some task =>
      if !isWaiting rt task then .error (.valueError s!"task_not_waiting:{key}")
      else if expectedUpdatedAt.any fun version =>
          !(PyDict.get task "updated_at").pyEq (.str version) then
        .error (.valueError s!"task_changed:{key}")
      else match snapshotWaiting? rt task with
        | none => .error (.valueError s!"snapshot_not_waiting:{key}")
        | some _ =>
          storeTask env file key (insert
            (insert task "status" (.str TaskLoopState.executing.value)) "updated_at"
            (.str env.now))

/-- The outcome of a task that the user has cancelled. -/
def cancelledOutcome : PyDict :=
  [("state", .str TaskLoopState.cancelled.value),
    ("stop_reason", .str StopReason.userCancelled.value)]

/-- `cancel_waiting_task`. -/
def cancelWaitingTask (rt : PyRuntime) (env : StoreEnv) (taskId : String) (file : StoreFile) :
    RecordReply :=
  let key := strip taskId
  if key = "" then .ok (none, file)
  else match loadedTask env file key with
    | none => .ok (none, file)
    | some task =>
      if !isWaiting rt task then .error (.valueError s!"task_not_waiting:{key}")
      else match snapshotWaiting? rt task with
        | none => .error (.valueError s!"snapshot_not_waiting:{key}")
        | some snapshot =>
          storeTask env file key (merge task
            [("status", .str TaskLoopState.cancelled.value), ("updated_at", .str env.now),
              ("snapshot", .dict (merge snapshot cancelledOutcome)),
              ("result", .dict cancelledOutcome)])

/-! ### Finalization -/

/-- `_json_copy` of a dictionary. -/
def jsonCopyDict (d : PyDict) : Except PyError PyDict :=
  match PyVal.jsonCopyEntries d with
  | none => .error .typeError
  | some copy => .ok copy

/-- `prepared_result_update`. -/
def preparedResultUpdate (result : TaskLoopResult) (updatedAt : String) : Except PyError PyDict :=
  jsonCopyDict ([("status", .str result.state.value), ("updated_at", .str updatedAt),
    ("snapshot", .dict (snapshotToDict result.snapshot)),
    ("result", .dict [("state", .str result.state.value),
      ("stop_reason", optional (fun reason => .str reason.value) result.stopReason),
      ("visible_content", .str result.visibleContent), ("artifacts", .list result.artifacts)])] ++
    match result.activePlan with
    | none => []
    | some plan => [("plan", .dict (planToDict plan)),
        ("plan_id", .str (orElse plan.planId result.snapshot.planId))])

/-- `prepared_failure_update`. -/
def preparedFailureUpdate (task : PyDict) (updatedAt : String) : Except PyError PyDict :=
  match PyDict.get task "snapshot" with
  | .dict snapshot =>
    jsonCopyDict [("status", .str TaskLoopState.blocked.value), ("updated_at", .str updatedAt),
      ("snapshot", .dict (merge snapshot [("state", .str TaskLoopState.blocked.value),
        ("stop_reason", .str StopReason.stepFailed.value)])),
      ("result", .dict [("state", .str TaskLoopState.blocked.value),
        ("stop_reason", .str StopReason.stepFailed.value),
        ("visible_content", .str "Task loop blocked."), ("artifacts", .list [])])]
  | _ => .error (.valueError "invalid_trusted_snapshot")

/-- The record is executing in the version that a claim has left. -/
def isClaimed (task : PyDict) (version : String) : Bool :=
  (PyDict.get task "status").pyEq (.str TaskLoopState.executing.value) &&
    (PyDict.get task "updated_at").pyEq (.str version)

/-- `finalize_claimed_task`. -/
def finalizeClaimedTask (env : StoreEnv) (taskId : String) (result : TaskLoopResult)
    (expectedUpdatedAt : String) (file : StoreFile) : RecordReply :=
  let key := strip taskId
  if key = "" ∨ expectedUpdatedAt = "" then .ok (none, file)
  else do
    let prepared ← preparedResultUpdate result env.now
    match loadedTask env file key with
    | none => .ok (none, file)
    | some task =>
      if isClaimed task expectedUpdatedAt then storeTask env file key (merge task prepared)
      else .ok (none, file)

/-- `finalize_claimed_failure`. -/
def finalizeClaimedFailure (env : StoreEnv) (taskId : String) (expectedUpdatedAt : String)
    (file : StoreFile) : RecordReply :=
  let key := strip taskId
  if key = "" ∨ expectedUpdatedAt = "" then .ok (none, file)
  else match loadedTask env file key with
    | none => .ok (none, file)
    | some task =>
      if isClaimed task expectedUpdatedAt then do
        let prepared ← preparedFailureUpdate task env.now
        storeTask env file key (merge task prepared)
      else .ok (none, file)

/-! ### Runs -/

inductive StoreOp where
  | register (r : Registration)
  | claim (taskId : String) (expectedUpdatedAt : Option String)
  | cancel (taskId : String)
  | finalizeResult (taskId : String) (result : TaskLoopResult) (expectedUpdatedAt : String)
  | finalizeFailure (taskId : String) (expectedUpdatedAt : String)

/-- What a call answers: the identifier of a new task, a record or none, or an exception. -/
inductive StoreReply where
  | registered (taskId : String)
  | record (task : Option PyDict)
  | raised (error : PyError)

/-- A call and what it met outside. -/
structure StoreCall where
  env : StoreEnv
  op : StoreOp

/-- A call that was answered. -/
structure StoreEvent where
  call : StoreCall
  reply : StoreReply

/-- The identifier a call is about. -/
def StoreOp.key : StoreOp → String
  | .register r => r.taskId
  | .claim taskId _ | .cancel taskId | .finalizeResult taskId _ _ | .finalizeFailure taskId _ =>
    strip taskId

/-- The file and the reply after an operation on a record; one that raises leaves the file. -/
def afterRecord (file : StoreFile) : RecordReply → StoreFile × StoreReply
  | .ok (task, file') => (file', .record task)
  | .error e => (file, .raised e)

/-- An operation, and what it leaves. -/
def runOp (rt : PyRuntime) (file : StoreFile) (call : StoreCall) : StoreFile × StoreReply :=
  match call.op with
  | .register r =>
    match registerWaitingTask rt call.env r file with
    | .ok file' => (file', .registered r.taskId)
    | .error e => (file, .raised e)
  | .claim taskId expectedUpdatedAt =>
    afterRecord file (claimWaitingTask rt call.env taskId expectedUpdatedAt file)
  | .cancel taskId => afterRecord file (cancelWaitingTask rt call.env taskId file)
  | .finalizeResult taskId result expectedUpdatedAt =>
    afterRecord file (finalizeClaimedTask call.env taskId result expectedUpdatedAt file)
  | .finalizeFailure taskId expectedUpdatedAt =>
    afterRecord file (finalizeClaimedFailure call.env taskId expectedUpdatedAt file)

/-- The store: one call after the other, in the order in which they take the lock. -/
def taskStore (rt : PyRuntime) : System StoreFile StoreCall StoreEvent := fun file call =>
  ((runOp rt file call).1, { call := call, reply := (runOp rt file call).2 })

end Trion.TaskResume
