import Trion.Cron.StoredJobs

/-!
# Workers, saves and restarts

The scheduler as it runs: besides the store there are the history of the runs, the state file,
and the workers.  A worker takes a run from the queue, and then goes through the locked
sections of `dispatch_worker` one at a time, so that calls of clients, ticks and other workers
come in between.  Every section that changes the store ends with `save`, which may raise; and
the process may stop at any point and start again from what the state file holds.
-/

namespace Trion.Cron

open Trion.Python OrderedDict OperationRun

variable (env : CronRuntime) (policy : Policy)

/-! ### The state -/

/-- An entry of the history. -/
structure HistoryEntry where
  runId : String
  cronJobId : String
  outcome : DispatchEnd
  queuedAt : String
  startedAt : Option String
  finishedAt : String
  reason : String

/-- `entries[-200:]`. -/
def lastEntries {α : Type} (entries : List α) : List α := entries.drop (entries.length - 200)

/-- What the state file holds, as far as `load` reads it. -/
structure StateFile where
  jobs : List Job := []
  history : List HistoryEntry := []

/-- What `dispatch_worker` hands to `submit_cb`: the payload, and what the metadata say beside
the source. -/
structure Submission where
  objective : String
  conversationId : String
  maxLoops : ℤ
  cronJobId : String
  cronJobName : String
  cronRunId : String
  reason : String

/-- Where a worker stands. -/
inductive WorkerPhase where
  /-- It waits for the queue. -/
  | idle
  /-- It has taken a run and waits for its first locked section. -/
  | holding (item : RunItem)
  /-- The run is in the running table; its job is to be looked up. -/
  | started (item : RunItem) (startedAt : String)
  /-- `submit_cb` has been called and has not answered. -/
  | submitting (item : RunItem) (startedAt : String)
  /-- The run has ended; its last locked section is to come. -/
  | ending (item : RunItem) (startedAt : String) (outcome : DispatchEnd)
  /-- An exception has ended the worker's task. -/
  | dead

/-- The scheduler: the store, the history, the state file and the workers. -/
structure SchedulerState where
  store : CronJobStore := {}
  history : List HistoryEntry := []
  file : StateFile := {}
  workers : List WorkerPhase

/-- A scheduler that starts without a state file. -/
def SchedulerState.start (workers : ℕ) : SchedulerState where
  workers := List.replicate workers .idle

namespace SchedulerState

/-- `save`; `saveError` is the text of the exception it raises, if it raises one. -/
def save (st : SchedulerState) (saveError : Option String) : SchedulerState :=
  match saveError with
  | some _ => st
  | none =>
    { st with file := ⟨st.store.jobs.map Prod.snd, lastEntries st.history⟩ }

/-- Moves a worker. -/
def setWorker (st : SchedulerState) (w : ℕ) (phase : WorkerPhase) : SchedulerState :=
  { st with workers := st.workers.set w phase }

end SchedulerState

/-- The jobs `load` reads. -/
def loadJobs (jobs : List Job) : List (String × Job) :=
  jobs.foldl (fun loaded job =>
    let jobId := strip (((get? job "id").getD .none).strOr env.toPyRuntime "")
    if jobId = "" then loaded else insert loaded jobId job) []

/-- The process stops and starts again from the state file. -/
def restart (st : SchedulerState) : SchedulerState where
  store := { jobs := loadJobs env st.file.jobs }
  history := lastEntries st.file.history
  file := st.file
  workers := st.workers.map fun _ => .idle

/-! ### Calls and ticks -/

/-- A call of a client; `jobId` and `runId` are the fresh identifiers. -/
inductive ClientCall where
  | create (jobId : String) (payload : PyDict)
  | update (cronJobId : String) (payload : PyDict)
  | delete (cronJobId : String)
  | runNow (cronJobId reason runId : String)

/-- What a call raises. -/
inductive CallError where
  | cron (error : CronError)
  | save (text : String)

/-- The end of a call: it saves and returns. -/
def saveAndReturn (saveError : Option String) (items : List RunItem) (st : SchedulerState) :
    SchedulerState × List RunItem × Except CallError Unit :=
  (st.save saveError, items,
    match saveError with
    | none => .ok ()
    | some text => .error (.save text))

/-- A call: the new state, the runs it puts into the queue, and whether it raises. -/
def clientCall (now : DateTime) (saveError : Option String) (st : SchedulerState) :
    ClientCall → SchedulerState × List RunItem × Except CallError Unit
  | .create jobId payload =>
    match createJob env policy jobId payload now st.store with
    | .error error => (st, [], .error (.cron error))
    | .ok store => saveAndReturn saveError [] { st with store := store }
  | .update cronJobId payload =>
    if (get? st.store.jobs (strip cronJobId)).getD [] = [] then (st, [], .ok ())
    else match updateJob env policy cronJobId payload now st.store with
      | .error error => (st, [], .error (.cron error))
      | .ok store => saveAndReturn saveError [] { st with store := store }
  | .delete cronJobId =>
    let deleted := { st with store := deleteJob cronJobId st.store }
    if has st.store.jobs (strip cronJobId) then saveAndReturn saveError [] deleted
    else (deleted, [], .ok ())
  | .runNow cronJobId reason runId =>
    if (get? st.store.jobs (strip cronJobId)).getD [] = [] then (st, [], .ok ())
    else match runNow env policy cronJobId reason runId now st.store with
      | .error error => (st, [], .error (.cron error))
      | .ok (store, items) => saveAndReturn saveError items { st with store := store }

/-- `tick_once` with its save; it saves if it has found something to do. -/
def tick (now : DateTime) (saveError : Option String) (runIds : String → String)
    (st : SchedulerState) : SchedulerState × List RunItem :=
  let changed := st.store.jobs.any fun e => tickFinding env e.2 now != .idle
  let ticked := tickOnce env now runIds st.store
  let next := { st with store := ticked.1 }
  (if changed then next.save saveError else next, ticked.2)

/-! ### The sections of a worker -/

/-- The store after the first locked section of `dispatch_worker`. -/
def startRun (now : DateTime) (item : RunItem) (s : CronJobStore) : CronJobStore :=
  { s with
    pending := s.pending.filter fun other => other.runId != item.runId
    running := insert s.running item.runId item
    jobs := modify s.jobs item.cronJobId fun job =>
      if job = [] then job
      else setFields job [("last_run_at", iso now), ("last_status", "dispatching")] }

/-- The store after the last locked section of `dispatch_worker`. -/
def finishRun (now : DateTime) (item : RunItem) (outcome : DispatchEnd) (s : CronJobStore) :
    CronJobStore :=
  { s with
    running := erase s.running item.runId
    jobs := modify s.jobs item.cronJobId fun job =>
      if job = [] then job else endDispatchFields env now outcome job }

@[simp] lemma keys_startRun (now : DateTime) (item : RunItem) (s : CronJobStore) :
    keys (startRun now item s).jobs = keys s.jobs := by
  unfold startRun
  rw [keys_modify]

@[simp] lemma keys_finishRun (now : DateTime) (item : RunItem) (outcome : DispatchEnd)
    (s : CronJobStore) : keys (finishRun env now item outcome s).jobs = keys s.jobs := by
  unfold finishRun
  rw [keys_modify]

/-- The text of a built-in exception, as far as the program decides it. -/
def errorText : PyError → String
  | .valueError message => message
  | .callbackError message => message
  | _ => ""

/-- What a worker does once its run has started: it looks the job up, asks the hardware guard
(`guardReason` is its objection, if it has one) and submits the run. -/
def lookUp (guardReason : Option String) (item : RunItem) (startedAt : String)
    (jobs : List (String × Job)) : WorkerPhase × Option Submission :=
  let job := (get? jobs item.cronJobId).getD []
  if job = [] then (.ending item startedAt (.failed "cron_job_not_found"), none)
  else match guardReason with
    | some reason => (.ending item startedAt (.deferred reason), none)
    | none =>
      let conversationId := strip (strField env job "conversation_id" "")
      if conversationId = "" then (.ending item startedAt (.failed "missing_conversation_id"), none)
      else match ((get? job "max_loops").getD (.int 10)).toInt env.toPyRuntime with
        | .error error => (.ending item startedAt (.failed (errorText error)), none)
        | .ok maxLoops =>
          (.submitting item startedAt, some
            { objective := strField env job "objective" ""
              conversationId := conversationId
              maxLoops := maxLoops
              cronJobId := item.cronJobId
              cronJobName := strField env job "name" ""
              cronRunId := item.runId
              reason := item.reason })

/-- The entry a worker appends to the history.  A failed run's entry takes `started_at` from the
item, which has none. -/
def historyEntry (now : DateTime) (item : RunItem) (startedAt : String) (outcome : DispatchEnd) :
    HistoryEntry where
  runId := item.runId
  cronJobId := item.cronJobId
  outcome := match outcome with
    | .failed error => .failed (sliceTo error 500)
    | outcome => outcome
  queuedAt := item.queuedAt
  startedAt := match outcome with
    | .failed _ => none
    | _ => some startedAt
  finishedAt := iso now
  reason := item.reason

/-- Where a worker goes from its last section.  An exception there leads to the section for
failed runs, and from that one out of the task. -/
def phaseAfterFinish (item : RunItem) (startedAt : String) (outcome : DispatchEnd) :
    Option String → WorkerPhase
  | none => .idle
  | some text =>
    match outcome with
    | .failed _ => .dead
    | _ => .ending item startedAt (.failed text)

/-! ### The system -/

/-- An operation of the running scheduler. -/
inductive SchedulerOp where
  | call (saveError : Option String) (call : ClientCall)
  | tick (saveError : Option String) (runIds : String → String)
  /-- A worker takes the run at the head of the queue. -/
  | take (w : ℕ)
  /-- A worker's first locked section. -/
  | start (w : ℕ) (saveError : Option String)
  /-- A worker looks up the job, asks the guard and submits. -/
  | look (w : ℕ) (guardReason : Option String)
  /-- `submit_cb` answers with the identifier of the submitted job, or raises. -/
  | reply (w : ℕ) (submission : Except String String)
  /-- A worker's last locked section. -/
  | finish (w : ℕ) (saveError : Option String)
  | restart

/-- What happens to runs. -/
inductive RunEvent where
  | enqueued (item : RunItem)
  | submitted (item : RunItem) (submission : Submission)
  | recorded (entry : HistoryEntry)

/-- The section of the worker `w`. -/
def workerStep (now : DateTime) (st : SchedulerState) (w : ℕ) :
    SchedulerOp → WorkerPhase → SchedulerState × List RunEvent
  | .take _, .idle =>
    match st.store.queue with
    | [] => (st, [])
    | item :: queue =>
      ({ st with store := { st.store with queue := queue } }.setWorker w (.holding item), [])
  | .start _ saveError, .holding item =>
    let next := { st with store := startRun now item st.store }.save saveError
    (next.setWorker w (if saveError.isNone then .started item (iso now) else .dead), [])
  | .look _ guardReason, .started item startedAt =>
    let found := lookUp env guardReason item startedAt st.store.jobs
    (st.setWorker w found.1, (found.2.map (.submitted item)).toList)
  | .reply _ submission, .submitting item startedAt =>
    (st.setWorker w (.ending item startedAt (match submission with
      | .ok jobId => .submitted jobId
      | .error text => .failed text)), [])
  | .finish _ saveError, .ending item startedAt outcome =>
    let entry := historyEntry now item startedAt outcome
    let next := { st with
      store := finishRun env now item outcome st.store
      history := lastEntries (st.history ++ [entry]) }.save saveError
    (next.setWorker w (phaseAfterFinish item startedAt outcome saveError), [.recorded entry])
  | _, _ => (st, [])

/-- The worker an operation is about. -/
def SchedulerOp.worker? : SchedulerOp → Option ℕ
  | .take w => some w
  | .start w _ => some w
  | .look w _ => some w
  | .reply w _ => some w
  | .finish w _ => some w
  | _ => none

/-- `AutonomyCronScheduler`: an operation at a time, answered by what happens to runs. -/
def autonomyCronScheduler :
    System SchedulerState (DateTime × SchedulerOp) (List RunEvent) := fun st op =>
  match op with
  | (now, .call saveError call) =>
    let called := clientCall env policy now saveError st call
    (called.1, called.2.1.map .enqueued)
  | (now, .tick saveError runIds) =>
    let ticked := tick env now saveError runIds st
    (ticked.1, ticked.2.map .enqueued)
  | (_, .restart) => (restart env st, [])
  | (now, op) =>
    match op.worker? with
    | none => (st, [])
    | some w => (st.workers[w]?.map (workerStep env now st w op)).getD (st, [])

end Trion.Cron
