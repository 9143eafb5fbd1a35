import Trion.Cron.JobPolicy
import Trion.Library.OperationRun

/-!
# The scheduler

The store of the scheduler and everything that acts on it: the calls `create_job`,
`update_job`, `delete_job` and `run_now`, the tick of the scheduler, and the two locked
sections of a worker, before and after it submits a run.  All of them hold the lock of the
store, so a run of the scheduler is a list of operations.  An operation carries what the
outside world decides: what the client sent, the time, and the fresh identifiers.
-/

namespace Trion.Cron

open Trion.Python OrderedDict OperationRun

/-- `CronJobStore`: the jobs, the runs that wait, the runs that are carried out, and the queue
of the workers. -/
structure CronJobStore where
  jobs : List (String × Job) := []
  pending : List RunItem := []
  running : List (String × RunItem) := []
  queue : List RunItem := []

/-- Writes several fields of a job. -/
def setFields (job : Job) (fields : List (String × String)) : Job :=
  fields.foldl (fun job field => insert job field.1 (.str field.2)) job

/-- Changes a job of the store, if it is there. -/
def CronJobStore.modifyJob (s : CronJobStore) (jobId : String) (f : Job → Job) : CronJobStore :=
  { s with jobs := modify s.jobs jobId f }

/-- Puts a run into the queue. -/
def CronJobStore.enqueue (s : CronJobStore) (item : RunItem) : CronJobStore :=
  { s with pending := s.pending ++ [item], queue := s.queue ++ [item] }

variable (env : CronRuntime) (policy : Policy)

/-! ### Calls -/

/-- The job `create_job` stores. -/
def newJob (jobId : String) (normalized : Job) (now : DateTime) : Job :=
  merge (merge [("id", .str jobId)] normalized)
    [("created_at", .str (iso now)), ("updated_at", .str (iso now)),
      ("last_triggered_at", .str ""), ("last_run_at", .str ""), ("last_status", .str "never"),
      ("last_job_id", .str ""), ("last_error", .str ""), ("last_trigger_key", .str ""),
      ("last_manual_trigger_at", .str "")]

/-- `create_job`, where `jobId` is the fresh identifier. -/
def createJob (jobId : String) (payload : PyDict) (now : DateTime) (s : CronJobStore) :
    Except CronError CronJobStore := do
  let normalized ← normalizeJobPayload env payload none now
  enforceJobPolicy env policy s.jobs normalized none ""
  return { s with jobs := insert s.jobs jobId (newJob jobId normalized now) }

/-- `update_job`; a job that is not there is left alone. -/
def updateJob (cronJobId : String) (payload : PyDict) (now : DateTime) (s : CronJobStore) :
    Except CronError CronJobStore :=
  let jobId := strip cronJobId
  match get? s.jobs jobId with
  | none => .ok s
  | some current =>
    if current = [] then .ok s
    else do
      let normalized ← normalizeJobPayload env payload (some current) now
      enforceJobPolicy env policy s.jobs normalized (some current) jobId
      let normalized := insert normalized "updated_at" (.str (iso now))
      return { s with jobs := insert s.jobs jobId (merge current normalized) }

/-- `delete_job`. -/
def deleteJob (cronJobId : String) (s : CronJobStore) : CronJobStore :=
  let jobId := strip cronJobId
  { s with
    jobs := erase s.jobs jobId
    pending := s.pending.filter fun item => item.cronJobId != jobId }

/-- The fields `run_now` writes. -/
def runNowFields (job : Job) (item : RunItem) : Job :=
  let job := setFields job [("last_triggered_at", item.queuedAt)]
  let job :=
    if env.lower (strField env job "schedule_mode" "recurring") = "one_shot" then
      insert (setFields job [("last_trigger_key", "one_shot:manual:" ++ item.queuedAt)])
        "enabled" (.bool false)
    else setFields job [("last_trigger_key", "")]
  if item.reason ∈ ["manual", "tool"] then
    setFields job [("last_manual_trigger_at", item.queuedAt)]
  else job

/-- `run_now`, where `runId` is the fresh identifier: the new state and the run it puts into the
queue. -/
def runNow (cronJobId reason runId : String) (now : DateTime) (s : CronJobStore) :
    Except CronError (CronJobStore × List RunItem) :=
  let jobId := strip cronJobId
  match get? s.jobs jobId with
  | none => .ok (s, [])
  | some job =>
    if job = [] then .ok (s, [])
    else
      let reason := orElse reason "manual"
      match checkEnqueuePolicy env jobId reason now s.pending s.running s.jobs
          policy.maxPendingRuns policy.maxPendingRunsPerJob policy.manualRunCooldownS with
      | some error => .error (.policy error)
      | none =>
        let item : RunItem := ⟨runId, jobId, iso now, sliceTo reason 40⟩
        .ok ((s.enqueue item).modifyJob jobId fun job => runNowFields env job item, [item])

/-! ### The tick -/

/-- What a tick finds for one job. -/
inductive TickFinding where
  /-- The job is disabled, already consumed, not due, or has had its run of this minute. -/
  | idle
  /-- The job cannot be interpreted. -/
  | invalid (error : String)
  /-- A run is due: its reason and the trigger key it leaves. -/
  | due (reason triggerKey : String)
deriving DecidableEq, Repr

/-- `strftime("%Y-%m-%dT%H:%M")`. -/
def minuteKey (t : WallTime) : String :=
  String.ofList (padded 4 t.year ++ '-' :: (padded 2 t.month ++ '-' :: (padded 2 t.day ++ 'T' ::
    (padded 2 t.hour ++ ':' :: padded 2 t.minute))))

/-- The local minute of the job's time zone, if `ZoneInfo` knows the zone. -/
def localMinute (job : Job) (now : DateTime) : Option WallTime :=
  (env.zoneInfo (strField env job "timezone" "UTC")).map fun zone => zone now

/-- The one-shot branch of `tick_once`, up to the policy. -/
def oneShotFinding (job : Job) (now : DateTime) : TickFinding :=
  if startsWith (strField env job "last_trigger_key" "") "one_shot:" then .idle
  else match parseIsoDatetime env (strField env job "run_at" "") with
    | none => .invalid "one_shot_run_at_invalid"
    | some runAt =>
      if now.ticks < runAt.ticks then .idle
      else .due "schedule_one_shot" ("one_shot:" ++ strField env job "run_at" "")

/-- The recurring branch of `tick_once`, up to the policy. -/
def recurringFinding (job : Job) (now : DateTime) : TickFinding :=
  match parsedExpr env (strField env job "cron" ""), localMinute env job now with
  | .ok parsed, some minute =>
    if cronMatches parsed minute = false then .idle
    else if strField env job "last_trigger_key" "" = minuteKey minute then .idle
    else .due "schedule" (minuteKey minute)
  | .error (.parse message), _ => .invalid ("cron_parse_error:" ++ message)
  -- the text of a `ZoneInfo` error is not the program's
  | _, _ => .invalid "cron_parse_error:"

/-- What `tick_once` finds for a job. -/
def tickFinding (job : Job) (now : DateTime) : TickFinding :=
  if ((get? job "enabled").getD (.bool true)).truthy = false then .idle
  else if isOneShot env job then oneShotFinding env job now
  else recurringFinding env job now

/-- The fields a tick writes for the run it puts into the queue. -/
def triggerFields (now : DateTime) (triggerKey : String) (job : Job) : Job :=
  let job := setFields job [("last_triggered_at", iso now), ("last_trigger_key", triggerKey)]
  if isOneShot env job then insert job "enabled" (.bool false) else job

/-- `tick_once` for one job: the new state and the run it puts into the queue. -/
def tickJob (now : DateTime) (s : CronJobStore) (jobId runId : String) :
    CronJobStore × List RunItem :=
  match get? s.jobs jobId with
  | none => (s, [])
  | some job =>
    match tickFinding env job now with
    | .idle => (s, [])
    | .invalid error =>
      (s.modifyJob jobId fun job => setFields job [("last_status", "error"), ("last_error", error)],
        [])
    | .due reason triggerKey =>
      match checkEnqueuePolicy env jobId reason now s.pending s.running s.jobs 500 2 30 with
      | some error =>
        (s.modifyJob jobId fun job => setFields job [("last_status", "throttled"),
          ("last_error", error.errorCode), ("updated_at", iso now)], [])
      | none =>
        let item : RunItem := ⟨runId, jobId, iso now, reason⟩
        ((s.enqueue item).modifyJob jobId (triggerFields env now triggerKey), [item])

/-- `tick_once` over the jobs in order, where `runIds` are the fresh identifiers. -/
def tickJobs (now : DateTime) (runIds : String → String) :
    List String → CronJobStore → CronJobStore × List RunItem
  | [], s => (s, [])
  | jobId :: jobIds, s =>
    let first := tickJob env now s jobId (runIds jobId)
    let rest := tickJobs now runIds jobIds first.1
    (rest.1, first.2 ++ rest.2)

/-- `tick_once`. -/
def tickOnce (now : DateTime) (runIds : String → String) (s : CronJobStore) :
    CronJobStore × List RunItem :=
  tickJobs env now runIds (keys s.jobs) s

/-! ### Workers -/

/-- The first locked section of `dispatch_worker`, for the run at the head of the queue. -/
def beginDispatch (now : DateTime) (s : CronJobStore) : CronJobStore :=
  match s.queue with
  | [] => s
  | item :: queue =>
    { s with
      queue := queue
      pending := s.pending.filter fun other => other.runId != item.runId
      running := insert s.running item.runId item
      jobs := modify s.jobs item.cronJobId fun job =>
        if job = [] then job
        else setFields job [("last_run_at", iso now), ("last_status", "dispatching")] }

/-- How a worker ends a run: put off by the hardware guard, submitted, or failed. -/
inductive DispatchEnd where
  | deferred (guardReason : String)
  | submitted (autonomyJobId : String)
  | failed (error : String)

/-- The fields the second locked section of `dispatch_worker` writes. -/
def endDispatchFields (now : DateTime) (outcome : DispatchEnd) (job : Job) : Job :=
  match outcome with
  | .deferred guardReason =>
    setFields job [("last_status", "deferred_hardware"), ("last_error", sliceTo guardReason 300),
      ("updated_at", iso now)]
  | .submitted autonomyJobId =>
    let job := setFields job [("last_status", "submitted"), ("last_job_id", autonomyJobId),
      ("last_error", ""), ("updated_at", iso now)]
    if isOneShot env job then insert job "enabled" (.bool false) else job
  | .failed error =>
    let job := setFields job [("last_status", "failed"), ("last_error", sliceTo error 300),
      ("updated_at", iso now)]
    if env.lower (strField env job "schedule_mode" "") = "one_shot" then
      insert job "enabled" (.bool false)
    else job

/-- The second locked section of `dispatch_worker`, for a run that is carried out. -/
def endDispatch (now : DateTime) (runId : String) (outcome : DispatchEnd) (s : CronJobStore) :
    CronJobStore :=
  match get? s.running runId with
  | none => s
  | some item =>
    { s with
      running := erase s.running runId
      jobs := modify s.jobs item.cronJobId fun job =>
        if job = [] then job else endDispatchFields env now outcome job }

/-! ### The system -/

/-- An operation on the store. -/
inductive CronOp where
  | create (jobId : String) (payload : PyDict)
  | update (cronJobId : String) (payload : PyDict)
  | delete (cronJobId : String)
  | runNow (cronJobId reason runId : String)
  | tick (runIds : String → String)
  | beginDispatch
  | endDispatch (runId : String) (outcome : DispatchEnd)

/-- Keeps the state where a call raises. -/
def orKeep (s : CronJobStore) : Except CronError CronJobStore → CronJobStore
  | .ok s' => s'
  | .error _ => s

/-- The scheduler: an operation at a time, answered by the runs it puts into the queue. -/
def scheduler : System CronJobStore (DateTime × CronOp) (List RunItem) := fun s op =>
  match op with
  | (now, .create jobId payload) => (orKeep s (createJob env policy jobId payload now s), [])
  | (now, .update cronJobId payload) =>
    (orKeep s (updateJob env policy cronJobId payload now s), [])
  | (_, .delete cronJobId) => (deleteJob cronJobId s, [])
  | (now, .runNow cronJobId reason runId) =>
    match runNow env policy cronJobId reason runId now s with
    | .ok (s', items) => (s', items)
    | .error _ => (s, [])
  | (now, .tick runIds) => tickOnce env now runIds s
  | (now, .beginDispatch) => (beginDispatch now s, [])
  | (now, .endDispatch runId outcome) => (endDispatch env now runId outcome s, [])

end Trion.Cron
