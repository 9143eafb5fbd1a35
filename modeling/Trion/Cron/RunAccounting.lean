import Trion.Cron.RunSteps
import Trion.Cron.WellFormed
import Trion.Library.Slots

/-!
# Every run is somewhere

A run that has been put into the queue is in the queue, in the hands of one worker, or
finished, and in one of these places only, as long as no worker is killed between two of them.
The invariant counts: for every identifier, the runs put into the queue under it are as many as
the places it is found in.  As identifiers are fresh, no run is submitted twice, none is pending
and running at a time, and none that has finished is either.
-/

namespace Trion.Cron

open Trion.Python OrderedDict OperationRun Slots

variable {env : CronRuntime} {policy : Policy}

/-! ### What has happened to runs -/

/-- The runs that were put into the queue. -/
def enqueuedRuns (events : List RunEvent) : List RunItem :=
  events.filterMap fun
    | .enqueued item => some item
    | _ => none

/-- The runs that were submitted. -/
def submittedRuns (events : List RunEvent) : List RunItem :=
  events.filterMap fun
    | .submitted item _ => some item
    | _ => none

/-- The entries that were appended to the history. -/
def recordedEntries (events : List RunEvent) : List HistoryEntry :=
  events.filterMap fun
    | .recorded entry => some entry
    | _ => none

section Events

variable (events events' : List RunEvent)

@[simp] lemma enqueuedRuns_append :
    enqueuedRuns (events ++ events') = enqueuedRuns events ++ enqueuedRuns events' :=
  List.filterMap_append ..

@[simp] lemma submittedRuns_append :
    submittedRuns (events ++ events') = submittedRuns events ++ submittedRuns events' :=
  List.filterMap_append ..

@[simp] lemma recordedEntries_append :
    recordedEntries (events ++ events') = recordedEntries events ++ recordedEntries events' :=
  List.filterMap_append ..

@[simp] lemma enqueuedRuns_enqueued (items : List RunItem) :
    enqueuedRuns (items.map .enqueued) = items := by
  unfold enqueuedRuns
  rw [List.filterMap_map]
  exact List.filterMap_some

@[simp] lemma submittedRuns_enqueued (items : List RunItem) :
    submittedRuns (items.map .enqueued) = [] := by
  simp [submittedRuns]

@[simp] lemma recordedEntries_enqueued (items : List RunItem) :
    recordedEntries (items.map .enqueued) = [] := by
  simp [recordedEntries]

end Events

/-- Every run is put into the queue under a fresh identifier, as `uuid4` yields them. -/
def FreshRuns (events : List RunEvent) : Prop := ((enqueuedRuns events).map RunItem.runId).Nodup

lemma FreshRuns.of_append {events events' : List RunEvent}
    (h : FreshRuns (events ++ events')) :
    FreshRuns events := by
  unfold FreshRuns at h ⊢
  rw [enqueuedRuns_append, List.map_append] at h
  exact (List.nodup_append.mp h).1

/-! ### Places -/

namespace WorkerPhase

/-- The worker has taken the run and not started it. -/
def holds (runId : String) : WorkerPhase → Bool
  | .holding item => item.runId == runId
  | _ => false

/-- The worker has started the run and not looked up its job. -/
def hasStarted (runId : String) : WorkerPhase → Bool
  | .started item _ => item.runId == runId
  | _ => false

/-- The worker has looked up the job of the run. -/
def hasLooked (runId : String) : WorkerPhase → Bool
  | .submitting item _ => item.runId == runId
  | .ending item _ _ => item.runId == runId
  | _ => false

end WorkerPhase

/-- The number of runs with the identifier. -/
def runCount (items : List RunItem) (runId : String) : ℕ := items.countP (·.runId == runId)

/-- The number of entries for the identifier. -/
def entryCount (entries : List HistoryEntry) (runId : String) : ℕ :=
  entries.countP (·.runId == runId)

/-- Where the runs are. -/
structure Accounted (events : List RunEvent) (st : SchedulerState) : Prop where
  placed : ∀ runId, runCount (enqueuedRuns events) runId =
    runCount st.store.queue runId + st.workers.countP (WorkerPhase.holds runId) +
      st.workers.countP (WorkerPhase.hasStarted runId) +
      st.workers.countP (WorkerPhase.hasLooked runId) + entryCount (recordedEntries events) runId
  pending : ∀ item ∈ st.store.pending, 0 < runCount st.store.queue item.runId +
    st.workers.countP (WorkerPhase.holds item.runId)
  running : ∀ runId, (get? st.store.running runId).isSome →
    0 < st.workers.countP (WorkerPhase.hasStarted runId) +
      st.workers.countP (WorkerPhase.hasLooked runId)
  submitted : ∀ runId, runCount (submittedRuns events) runId ≤
    st.workers.countP (WorkerPhase.hasLooked runId) + entryCount (recordedEntries events) runId
  history : st.history = lastEntries (recordedEntries events)

lemma lastEntries_append {α : Type} (entries : List α) (entry : α) :
    lastEntries (lastEntries entries ++ [entry]) = lastEntries (entries ++ [entry]) := by
  have hdrop : lastEntries entries ++ [entry] =
      (entries ++ [entry]).drop (entries.length - 200) := by
    rw [List.drop_append_of_le_length (by omega)]
    rfl
  have hcut : entries.length - 200 + ((entries ++ [entry]).length - (entries.length - 200) - 200) =
      (entries ++ [entry]).length - 200 := by
    rw [List.length_append, List.length_singleton]
    omega
  rw [hdrop]
  unfold lastEntries
  rw [List.drop_drop, List.length_drop, hcut]

lemma runCount_append (items items' : List RunItem) (runId : String) :
    runCount (items ++ items') runId = runCount items runId + runCount items' runId :=
  List.countP_append

lemma entryCount_append (entries entries' : List HistoryEntry) (runId : String) :
    entryCount (entries ++ entries') runId = entryCount entries runId + entryCount entries' runId :=
  List.countP_append

lemma runCount_pos {items : List RunItem} {item : RunItem} (h : item ∈ items) :
    0 < runCount items item.runId :=
  List.countP_pos_iff.mpr ⟨item, h, by simp⟩

lemma runCount_le_one {events : List RunEvent} (hfresh : FreshRuns events) (runId : String) :
    runCount (enqueuedRuns events) runId ≤ 1 := by
  have hle := List.nodup_iff_count.mp hfresh runId
  rw [List.count_eq_countP, List.countP_map] at hle
  exact hle

lemma accounted_start (workers : ℕ) : Accounted [] (.start workers) := by
  have hidle : ∀ p : WorkerPhase → Bool, p .idle = false →
      (List.replicate workers WorkerPhase.idle).countP p = 0 := by
    intro p hp
    rw [List.countP_replicate]
    simp [hp]
  constructor
  case placed =>
    intro runId
    have hholds := hidle (WorkerPhase.holds runId) rfl
    have hstarted := hidle (WorkerPhase.hasStarted runId) rfl
    have hlooked := hidle (WorkerPhase.hasLooked runId) rfl
    simp [SchedulerState.start, enqueuedRuns, recordedEntries, runCount, entryCount, hholds,
      hstarted, hlooked]
  case pending => simp [SchedulerState.start]
  case running => simp [SchedulerState.start]
  case submitted => simp [submittedRuns, runCount]
  case history => rfl

/-- The worker sections save, and the process keeps running. -/
def SchedulerOp.Completes : SchedulerOp → Prop
  | .start _ saveError => saveError = none
  | .finish _ saveError => saveError = none
  | .restart => False
  | _ => True

/-! ### One operation -/

variable {events : List RunEvent} {st : SchedulerState} {op : DateTime × SchedulerOp}

/-- A run counts for its identifier. -/
def countsFor (item : RunItem) (runId : String) : ℕ := if item.runId == runId then 1 else 0

lemma runCount_cons (item : RunItem) (items : List RunItem) (runId : String) :
    runCount (item :: items) runId = runCount items runId + countsFor item runId :=
  List.countP_cons

/-- The stages of the three counts, by phase. -/
def stageOf (runId : String) : WorkerPhase → ℕ × ℕ × ℕ
  | .holding item => (countsFor item runId, 0, 0)
  | .started item _ => (0, countsFor item runId, 0)
  | .submitting item _ | .ending item _ _ => (0, 0, countsFor item runId)
  | .idle | .dead => (0, 0, 0)

lemma contribution_stages (runId : String) (phase : WorkerPhase) :
    contribution (WorkerPhase.holds runId) phase = (stageOf runId phase).1 ∧
      contribution (WorkerPhase.hasStarted runId) phase = (stageOf runId phase).2.1 ∧
      contribution (WorkerPhase.hasLooked runId) phase = (stageOf runId phase).2.2 := by
  cases phase <;> exact ⟨rfl, rfl, rfl⟩

/-- The counts of the three stages after a worker has moved. -/
lemma countP_moved {w : ℕ} {phase : WorkerPhase} (h : st.workers[w]? = some phase)
    (phase' : WorkerPhase) (runId : String) :
    (st.workers.set w phase').countP (WorkerPhase.holds runId) + (stageOf runId phase).1 =
        st.workers.countP (WorkerPhase.holds runId) + (stageOf runId phase').1 ∧
      (st.workers.set w phase').countP (WorkerPhase.hasStarted runId) +
          (stageOf runId phase).2.1 =
        st.workers.countP (WorkerPhase.hasStarted runId) + (stageOf runId phase').2.1 ∧
      (st.workers.set w phase').countP (WorkerPhase.hasLooked runId) + (stageOf runId phase).2.2 =
        st.workers.countP (WorkerPhase.hasLooked runId) + (stageOf runId phase').2.2 := by
  obtain ⟨hholds, hstarted, hlooked⟩ := contribution_stages runId phase
  obtain ⟨hholds', hstarted', hlooked'⟩ := contribution_stages runId phase'
  rw [← hholds, ← hstarted, ← hlooked, ← hholds', ← hstarted', ← hlooked']
  exact ⟨countP_set h _ _, countP_set h _ _, countP_set h _ _⟩

/-- How the move of a worker has to add up: what leaves the queue and the old phase comes to the new
phase and to the history, and no run loses its place before its record is changed. -/
structure Moves (phase phase' : WorkerPhase) (s s' : CronJobStore) (happened : List RunEvent) :
    Prop where
  quiet : enqueuedRuns happened = []
  placed : ∀ runId, runCount s.queue runId + ((stageOf runId phase).1 + (stageOf runId phase).2.1 +
      (stageOf runId phase).2.2) =
    runCount s'.queue runId + ((stageOf runId phase').1 + (stageOf runId phase').2.1 +
      (stageOf runId phase').2.2) + entryCount (recordedEntries happened) runId
  pending : ∀ item ∈ s'.pending, item ∈ s.pending ∧
    runCount s.queue item.runId + (stageOf item.runId phase).1 ≤
      runCount s'.queue item.runId + (stageOf item.runId phase').1
  running : ∀ runId, (get? s'.running runId).isSome →
    (stageOf runId phase).2.1 + (stageOf runId phase).2.2 <
        (stageOf runId phase').2.1 + (stageOf runId phase').2.2 ∨
      (get? s.running runId).isSome ∧ (stageOf runId phase).2.1 + (stageOf runId phase).2.2 ≤
        (stageOf runId phase').2.1 + (stageOf runId phase').2.2
  submitted : ∀ runId, runCount (submittedRuns happened) runId + (stageOf runId phase).2.2 ≤
    (stageOf runId phase').2.2 + entryCount (recordedEntries happened) runId

section Moved

variable {w : ℕ} {phase phase' : WorkerPhase} {item : RunItem} {startedAt : String}
  {s' : CronJobStore} {happened : List RunEvent}

/-- A move that adds up keeps every run in its place. -/
lemma Accounted.moved (h : Accounted events st) (hphase : st.workers[w]? = some phase)
    (hmoves : Moves phase phase' st.store s' happened) {history : List HistoryEntry}
    (hhistory : history = lastEntries (recordedEntries (events ++ happened))) (file : StateFile) :
    Accounted (events ++ happened)
      ({ st with store := s', history := history, file := file }.setWorker w phase') := by
  have hmoved := countP_moved hphase phase'
  unfold SchedulerState.setWorker
  constructor
  case placed =>
    intro runId
    have hplaced := h.placed runId
    have hsum := hmoves.placed runId
    have hm := hmoved runId
    rw [enqueuedRuns_append, hmoves.quiet, List.append_nil, recordedEntries_append,
      entryCount_append]
    dsimp only
    omega
  case pending =>
    intro item hitem
    obtain ⟨hmem, hle⟩ := hmoves.pending item hitem
    have hpending := h.pending item hmem
    have hm := hmoved item.runId
    dsimp only
    omega
  case running =>
    intro runId hrun
    have hm := hmoved runId
    dsimp only
    rcases hmoves.running runId hrun with hless | ⟨hbefore, hle⟩
    · omega
    · have hrunning := h.running runId hbefore
      omega
  case submitted =>
    intro runId
    have hsubmitted := h.submitted runId
    have hle := hmoves.submitted runId
    have hm := hmoved runId
    rw [submittedRuns_append, runCount_append, recordedEntries_append, entryCount_append]
    dsimp only
    omega
  case history => exact hhistory

/-- A call or a tick. -/
lemma Accounted.stored (h : Accounted events st) {cronOp : CronOp}
    (hcronOp : op.2.cronOp? = some cronOp) (file : StateFile) :
    Accounted (events ++ (scheduler env policy st.store (op.1, cronOp)).2.map .enqueued)
      { st with store := (scheduler env policy st.store (op.1, cronOp)).1, file := file } := by
  rcases deletes_or_enqueues env policy op.1 st.store hcronOp with ⟨cronJobId, rfl⟩ | henqueues
  · rw [show (scheduler env policy st.store (op.1, .delete cronJobId)).2 = [] from rfl,
      List.map_nil, List.append_nil]
    exact ⟨h.placed, fun item hitem => h.pending item (List.mem_filter.mp hitem).1, h.running,
      h.submitted, h.history⟩
  generalize (scheduler env policy st.store (op.1, cronOp)).2 = items at henqueues
  constructor
  case placed =>
    intro runId
    have hplaced := h.placed runId
    dsimp only
    rw [enqueuedRuns_append, enqueuedRuns_enqueued, recordedEntries_append,
      recordedEntries_enqueued, List.append_nil, runCount_append, henqueues.queue,
      runCount_append]
    omega
  case pending =>
    intro item hitem
    dsimp only at hitem ⊢
    rw [henqueues.pending] at hitem
    rw [henqueues.queue, runCount_append]
    rcases List.mem_append.mp hitem with hitem | hitem
    · have hpending := h.pending item hitem
      omega
    · have hpos := runCount_pos hitem
      omega
  case running =>
    rw [henqueues.running]
    exact h.running
  case submitted => simpa using h.submitted
  case history => simpa using h.history

/-- A worker takes the run at the head of the queue. -/
lemma moves_taken {queue : List RunItem} {s : CronJobStore} (hqueue : s.queue = item :: queue) :
    Moves .idle (.holding item) s { s with queue := queue } [] := by
  have hcount : ∀ runId, runCount s.queue runId = runCount queue runId + countsFor item runId :=
    fun runId => by rw [hqueue, runCount_cons]
  constructor
  case quiet => rfl
  case placed => exact fun runId => by rw [hcount]; rfl
  case pending => exact fun item' hitem' => ⟨hitem', by rw [hcount]; exact Nat.le_refl _⟩
  case running => exact fun runId hrun => .inr ⟨hrun, Nat.le_refl _⟩
  case submitted => exact fun runId => Nat.le_refl _

/-- A worker starts the run it holds. -/
lemma moves_started (now : DateTime) (s : CronJobStore) :
    Moves (.holding item) (.started item startedAt) s (startRun now item s) [] := by
  constructor
  case quiet => rfl
  case placed =>
    intro runId
    dsimp only [stageOf, startRun, recordedEntries, List.filterMap_nil, entryCount,
      List.countP_nil]
    omega
  case pending =>
    intro item' hitem'
    obtain ⟨hmem, hne⟩ := List.mem_filter.mp hitem'
    have hother : countsFor item item'.runId = 0 := by
      simp [countsFor, Ne.symm (by simpa using hne : item'.runId ≠ item.runId)]
    refine ⟨hmem, ?_⟩
    dsimp only [stageOf, startRun]
    omega
  case running =>
    intro runId hrun
    dsimp only [stageOf, startRun] at hrun ⊢
    rw [get?_insert] at hrun
    split at hrun
    · rename_i hid
      have hself : countsFor item runId = 1 := by simp [countsFor, hid]
      omega
    · exact .inr ⟨hrun, Nat.zero_le _⟩
  case submitted => exact fun runId => Nat.le_refl _

/-- A worker looks up the job of its run; one whose job is missing or that is deferred is not
submitted. -/
lemma moves_looked (guardReason : Option String) (s : CronJobStore) :
    Moves (.started item startedAt) (lookUp env guardReason item startedAt s.jobs).1 s s
      ((lookUp env guardReason item startedAt s.jobs).2.map (.submitted item)).toList := by
  have hlooked := lookedUp env guardReason item startedAt s.jobs
  generalize lookUp env guardReason item startedAt s.jobs = looked at hlooked
  have hstage : ∀ runId, stageOf runId looked.1 = (0, 0, countsFor item runId) := by
    cases hlooked <;> exact fun _ => rfl
  have hnone : enqueuedRuns (looked.2.map (RunEvent.submitted item)).toList = [] ∧
      recordedEntries (looked.2.map (RunEvent.submitted item)).toList = [] := by
    cases looked.2 <;> exact ⟨rfl, rfl⟩
  have hsubmissions : ∀ runId,
      runCount (submittedRuns (looked.2.map (RunEvent.submitted item)).toList) runId ≤
        countsFor item runId := by
    intro runId
    cases looked.2 with
    | none => exact Nat.zero_le _
    | some submission => exact (runCount_cons item [] runId).le.trans (by simp [runCount])
  constructor
  case quiet => exact hnone.1
  case placed =>
    intro runId
    rw [hstage, hnone.2]
    dsimp only [stageOf, entryCount, List.countP_nil]
    omega
  case pending => exact fun item' hitem' => ⟨hitem', by rw [hstage]; exact Nat.le_refl _⟩
  case running =>
    refine fun runId hrun => .inr ⟨hrun, ?_⟩
    rw [hstage]
    dsimp only [stageOf]
    omega
  case submitted =>
    intro runId
    rw [hstage]
    exact Nat.le_add_right_of_le (hsubmissions runId)

/-- The loop has answered. -/
lemma moves_replied (outcome : DispatchEnd) (s : CronJobStore) :
    Moves (.submitting item startedAt) (.ending item startedAt outcome) s s [] := by
  constructor
  case quiet => rfl
  case placed => exact fun _ => rfl
  case pending => exact fun item' hitem' => ⟨hitem', Nat.le_refl _⟩
  case running => exact fun runId hrun => .inr ⟨hrun, Nat.le_refl _⟩
  case submitted => exact fun runId => Nat.le_of_eq (Nat.zero_add _)

/-- A worker ends its run. -/
lemma moves_finished (env : CronRuntime) (now : DateTime) (outcome : DispatchEnd) (s : CronJobStore) :
    Moves (.ending item startedAt outcome) .idle s (finishRun env now item outcome s)
      [.recorded (historyEntry now item startedAt outcome)] := by
  have hentry : ∀ runId, entryCount
      (recordedEntries [.recorded (historyEntry now item startedAt outcome)]) runId =
        countsFor item runId := fun runId => (List.countP_cons (l := [])).trans (Nat.zero_add _)
  constructor
  case quiet => rfl
  case placed =>
    intro runId
    rw [hentry]
    dsimp only [stageOf, finishRun]
    omega
  case pending => exact fun item' hitem' => ⟨hitem', Nat.le_refl _⟩
  case running =>
    intro runId hrun
    dsimp only [stageOf, finishRun] at hrun ⊢
    rw [get?_erase] at hrun
    split at hrun
    · cases hrun
    · rename_i hid
      have hother : countsFor item runId = 0 := by simp [countsFor, Ne.symm hid]
      exact .inr ⟨hrun, by omega⟩
  case submitted =>
    intro runId
    rw [hentry]
    exact Nat.le_of_eq (by simp [submittedRuns, runCount, stageOf])

end Moved

/-- One operation keeps every run in one place. -/
theorem accounted_step (h : Accounted events st) (hop : op.2.Completes)
    {st' : SchedulerState} {happened : List RunEvent} (hstep : RunStep env policy st op st' happened) :
    Accounted (events ++ happened) st' := by
  have hkept : st.history = lastEntries (recordedEntries (events ++ [])) := by
    rw [List.append_nil]
    exact h.history
  cases hstep with
  | idle =>
    rw [List.append_nil]
    exact h
  | stored cronOp file hcronOp hfile => exact h.stored hcronOp file
  | taken w item queue hphase hqueue => exact h.moved hphase (moves_taken hqueue) hkept _
  | started w item saveError file hphase hstart =>
    rw [hstart] at hop
    obtain rfl : saveError = none := hop
    exact h.moved hphase (moves_started op.1 st.store) hkept file
  | looked w guardReason item startedAt hphase =>
    refine h.moved hphase (moves_looked guardReason st.store) ?_ _
    rw [recordedEntries_append, h.history]
    cases (lookUp env guardReason item startedAt st.store.jobs).2 <;>
      exact congrArg lastEntries (List.append_nil _).symm
  | replied w item startedAt outcome hphase =>
    exact h.moved hphase (moves_replied outcome st.store) hkept _
  | finished w item startedAt outcome saveError file hphase hfinish =>
    rw [hfinish] at hop
    obtain rfl : saveError = none := hop
    have hhistory : lastEntries (st.history ++ [historyEntry op.1 item startedAt outcome]) =
        lastEntries (recordedEntries
          (events ++ [.recorded (historyEntry op.1 item startedAt outcome)])) := by
      rw [h.history, lastEntries_append, recordedEntries_append]
      rfl
    exact h.moved hphase (moves_finished env op.1 outcome st.store) hhistory file
  | restarted hrestart =>
    rw [hrestart] at hop
    exact hop.elim

/-- Only runs of jobs that are there are submitted. -/
lemma has_of_submitted {st' : SchedulerState} {happened : List RunEvent}
    (hstep : RunStep env policy st op st' happened) {item : RunItem}
    (hitem : item ∈ submittedRuns happened) : has st.store.jobs item.cronJobId = true := by
  cases hstep with
  | stored cronOp file hcronOp hfile => simp at hitem
  | looked w guardReason item' startedAt hphase =>
    generalize hlooked : lookUp env guardReason item' startedAt st.store.jobs = looked at hitem
    cases hlooked ▸ lookedUp env guardReason item' startedAt st.store.jobs with
    | ended outcome => simp [submittedRuns] at hitem
    | submitted submission hhas =>
      obtain rfl : item = item' := by simpa [submittedRuns] using hitem
      exact hhas
  | _ => simp [submittedRuns] at hitem

/-! ### Runs of the scheduler -/

variable (env policy) in
/-- What happens to runs in the course of the operations. -/
def eventsFrom (st : SchedulerState) (ops : List (DateTime × SchedulerOp)) : List RunEvent :=
  ((autonomyCronScheduler env policy).answers st ops).flatten

lemma eventsFrom_cons (st : SchedulerState) (op : DateTime × SchedulerOp)
    (ops : List (DateTime × SchedulerOp)) :
    eventsFrom env policy st (op :: ops) = (autonomyCronScheduler env policy st op).2 ++
      eventsFrom env policy (autonomyCronScheduler env policy st op).1 ops := rfl

lemma eventsFrom_append (st : SchedulerState) (ops ops' : List (DateTime × SchedulerOp)) :
    eventsFrom env policy st (ops ++ ops') = eventsFrom env policy st ops ++
      eventsFrom env policy ((autonomyCronScheduler env policy).after st ops) ops' := by
  unfold eventsFrom
  rw [System.answers_append, List.flatten_append]

/-- No run of a job that is not there is submitted. -/
lemma not_submitted_of_deleted {jobId : String} {ops : List (DateTime × SchedulerOp)}
    (hgone : has st.store.jobs jobId = false) (hcompletes : ∀ op ∈ ops, op.2.Completes)
    (hfresh : ∀ op ∈ ops, ¬ op.2.Creates jobId) :
    ∀ item ∈ submittedRuns (eventsFrom env policy st ops), item.cronJobId ≠ jobId := by
  induction ops generalizing st with
  | nil => simp [eventsFrom, submittedRuns]
  | cons op ops ih =>
    intro item hitem
    have hrestart : op.2 ≠ .restart := fun h => by
      have hop := hcompletes op List.mem_cons_self
      rw [h] at hop
      exact hop
    have hgone' : has (autonomyCronScheduler env policy st op).1.store.jobs jobId = false := by
      by_contra hhas
      have hbefore := (runStep env policy st op).has_of_has hrestart
        (hfresh op List.mem_cons_self) (by simpa using hhas)
      simp [hgone] at hbefore
    have hrest := ih hgone' (fun o ho => hcompletes o (List.mem_cons_of_mem op ho))
      (fun o ho => hfresh o (List.mem_cons_of_mem op ho))
    rw [eventsFrom_cons, submittedRuns_append] at hitem
    rcases List.mem_append.mp hitem with hitem | hitem
    · rintro rfl
      have hnow : has st.store.jobs item.cronJobId = true := has_of_submitted (runStep env policy st op) hitem
      simp [hgone] at hnow
    · exact hrest item hitem

/-- The runs are in order: none is submitted twice, none is pending and running at a time, and a
run that has finished is neither and has its one entry. -/
structure RunsInOrder (events : List RunEvent) (st : SchedulerState) : Prop where
  submittedOnce : ∀ runId, runCount (submittedRuns events) runId ≤ 1
  exclusive : ∀ item ∈ st.store.pending, get? st.store.running item.runId = none
  finished : ∀ entry ∈ recordedEntries events,
    (∀ item ∈ st.store.pending, item.runId ≠ entry.runId) ∧
      get? st.store.running entry.runId = none ∧
      entryCount (recordedEntries events) entry.runId = 1
  history : st.history = lastEntries (recordedEntries events)

lemma Accounted.runsInOrder (h : Accounted events st) (hfresh : FreshRuns events) :
    RunsInOrder events st := by
  have hone := runCount_le_one hfresh
  constructor
  case submittedOnce =>
    intro runId
    have hplaced := h.placed runId
    have hsubmitted := h.submitted runId
    have hle := hone runId
    omega
  case exclusive =>
    intro item hitem
    by_contra hrun
    have hplaced := h.placed item.runId
    have hpending := h.pending item hitem
    have hrunning := h.running item.runId (Option.isSome_iff_ne_none.mpr hrun)
    have hle := hone item.runId
    omega
  case finished =>
    intro entry hentry
    have hplaced := h.placed entry.runId
    have hle := hone entry.runId
    have hpos : 0 < entryCount (recordedEntries events) entry.runId :=
      List.countP_pos_iff.mpr ⟨entry, hentry, by simp⟩
    refine ⟨fun item hitem hid => ?_, ?_, by omega⟩
    · have hpending := h.pending item hitem
      rw [hid] at hpending
      omega
    · by_contra hrun
      have hrunning := h.running entry.runId (Option.isSome_iff_ne_none.mpr hrun)
      omega
  case history => exact h.history

/-- The runs are accounted for after every run of the scheduler that completes its sections. -/
lemma accounted_after (env : CronRuntime) (policy : Policy) (workers : ℕ)
    {ops : List (DateTime × SchedulerOp)} (hcompletes : ∀ op ∈ ops, op.2.Completes) :
    Accounted (eventsFrom env policy (.start workers) ops)
      ((autonomyCronScheduler env policy).after (.start workers) ops) := by
  refine System.answers_invariant (I := fun events st => Accounted events.flatten st) ?_
    (System.always_of_mem hcompletes) (accounted_start workers)
  intro events st op h hop
  simpa using accounted_step h hop (runStep env policy st op)

/-- In every run of the scheduler whose workers can save and that is not interrupted, whatever
clients, ticks and workers do in whichever order, the runs are in order; and from the moment a
job is deleted on no run of it is submitted. -/
theorem runs_in_order (env : CronRuntime) (policy : Policy) (workers : ℕ)
    (ops : List (DateTime × SchedulerOp)) (hcompletes : ∀ op ∈ ops, op.2.Completes)
    (hfresh : FreshRuns (eventsFrom env policy (.start workers) ops)) :
    RunsInOrder (eventsFrom env policy (.start workers) ops)
        ((autonomyCronScheduler env policy).after (.start workers) ops) ∧
      ∀ (ops₁ ops₂ : List (DateTime × SchedulerOp)) (now : DateTime) (saveError : Option String)
        (cronJobId : String),
        ops = ops₁ ++ (now, .call saveError (.delete cronJobId)) :: ops₂ →
        (∀ op ∈ ops₂, ¬ op.2.Creates (strip cronJobId)) →
        ∀ item ∈ submittedRuns (eventsFrom env policy
            ((autonomyCronScheduler env policy).after (.start workers)
              (ops₁ ++ [(now, .call saveError (.delete cronJobId))])) ops₂),
          item.cronJobId ≠ strip cronJobId := by
  constructor
  · exact (accounted_after env policy workers hcompletes).runsInOrder hfresh
  · rintro ops₁ ops₂ now saveError cronJobId rfl hnew
    refine not_submitted_of_deleted ?_
      (fun op hop => hcompletes op (by simp [hop])) hnew
    rw [System.after_append]
    generalize (autonomyCronScheduler env policy).after (.start workers) ops₁ = st
    obtain ⟨file, -, hstate, -⟩ := clientCall_eq env policy now saveError st (.delete cronJobId)
    change has (clientCall env policy now saveError st (.delete cronJobId)).1.store.jobs
      (strip cronJobId) = false
    rw [hstate, has_eq_false_iff]
    exact (get?_erase ..).trans (if_pos rfl)

/-- A one-shot job is created and run by hand, and its run is submitted; in between the clock
ticks and the job is deleted. -/
def deletedRun : List (DateTime × SchedulerOp) :=
  [(noon, .call none (.create "job" (oneShotPayload ""))),
    (noon, .call none (.runNow "job" "api" "run")), (noon, .take 0), (noon, .start 0 none),
    (noon, .tick none fun _ => "ticked"), (noon, .look 0 none),
    (noon, .call none (.delete "job")), (noon, .reply 0 (.ok "loop")), (noon, .finish 0 none)]

theorem runs_in_order_deletedRun :
    RunsInOrder (eventsFrom .ascii .default (.start 1) deletedRun)
        ((autonomyCronScheduler .ascii .default).after (.start 1) deletedRun) ∧
      ∀ item ∈ submittedRuns (eventsFrom .ascii .default
          ((autonomyCronScheduler .ascii .default).after (.start 1) (deletedRun.take 7))
          (deletedRun.drop 7)), item.cronJobId ≠ "job" := by
  have hcompletes : ∀ op ∈ deletedRun, op.2.Completes := by
    simp [deletedRun, SchedulerOp.Completes]
  have hfresh : FreshRuns (eventsFrom .ascii .default (.start 1) deletedRun) := by
    have hids : (enqueuedRuns (eventsFrom .ascii .default (.start 1) deletedRun)).map
        RunItem.runId = ["run"] := by decide +kernel
    unfold FreshRuns
    rw [hids]
    decide
  obtain ⟨horder, hdeleted⟩ := runs_in_order .ascii .default 1 deletedRun hcompletes hfresh
  refine ⟨horder, hdeleted (deletedRun.take 6) (deletedRun.drop 7) noon none "job" rfl ?_⟩
  simp [deletedRun, SchedulerOp.Creates]

/-! ### More runs than the history keeps -/

/-- An identifier for each number. -/
def numberedRun (n : ℕ) : String := String.ofList (List.replicate n 'r')

/-- A run of the job that the hardware guard defers. -/
def deferredRun (n : ℕ) : List (DateTime × SchedulerOp) :=
  [(noon, .call none (.runNow "job" "api" (numberedRun n))), (noon, .take 0),
    (noon, .start 0 none), (noon, .look 0 (some "busy")), (noon, .finish 0 none)]

/-- One worker waits, there is nothing to do, and the job is there. -/
structure Waiting (st : SchedulerState) : Prop where
  pending : st.store.pending = []
  running : st.store.running = []
  queue : st.store.queue = []
  workers : st.workers = [.idle]
  job : ∃ job, get? st.store.jobs "job" = some job ∧ job ≠ []

lemma insert_ne_nil (job : Job) (key : String) (value : PyVal) : insert job key value ≠ [] := by
  intro hnil
  have hself : get? (insert job key value) key = some value := get?_insert_self
  rw [hnil] at hself
  simp at hself

lemma setFields_ne_nil {job : Job} (h : job ≠ []) (fields : List (String × String)) :
    setFields job fields ≠ [] := by
  induction fields generalizing job with
  | nil => exact h
  | cons field fields ih => exact ih (insert_ne_nil job field.1 _)

/-- The job is there after a change that leaves it some field. -/
lemma exists_job_modify {jobs : List (String × Job)} {jobId : String} {f : Job → Job}
    (h : ∃ job, get? jobs jobId = some job ∧ job ≠ []) (hf : ∀ job, job ≠ [] → f job ≠ []) :
    ∃ job, get? (modify jobs jobId f) jobId = some job ∧ job ≠ [] := by
  obtain ⟨job, hjob, hne⟩ := h
  exact ⟨f job, by rw [get?_modify, if_pos rfl, hjob, Option.map_some], hf job hne⟩

lemma runNowFields_ne_nil (env : CronRuntime) {job : Job} (h : job ≠ []) (item : RunItem) :
    runNowFields env job item ≠ [] := by
  unfold runNowFields
  dsimp only
  split
  · refine setFields_ne_nil ?_ _
    split
    · exact insert_ne_nil _ _ _
    · exact setFields_ne_nil (setFields_ne_nil h _) _
  · split
    · exact insert_ne_nil _ _ _
    · exact setFields_ne_nil (setFields_ne_nil h _) _

/-- The run that `deferredRun` puts into the queue. -/
def numberedItem (n : ℕ) : RunItem := ⟨numberedRun n, "job", iso noon, sliceTo "api" 40⟩

section Deferred

variable (env : CronRuntime) {jobs : List (String × Job)} (history : List HistoryEntry)
  (file : StateFile)

lemma exists_called (h : ∃ job, get? jobs "job" = some job ∧ job ≠ []) (n : ℕ) :
    ∃ jobs', autonomyCronScheduler env .default
        ⟨⟨jobs, [], [], []⟩, history, file, [.idle]⟩
        (noon, .call none (.runNow "job" "api" (numberedRun n))) =
          (⟨⟨jobs', [numberedItem n], [], [numberedItem n]⟩, history,
            ⟨jobs'.map Prod.snd, lastEntries history⟩, [.idle]⟩, [.enqueued (numberedItem n)]) ∧
      ∃ job, get? jobs' "job" = some job ∧ job ≠ [] := by
  obtain ⟨job, hjob, hne⟩ := h
  have hstrip : strip "job" = "job" := by decide
  have hkept := exists_job_modify ⟨job, hjob, hne⟩ fun job h =>
    runNowFields_ne_nil env h (numberedItem n)
  refine ⟨_, ?_, hkept⟩
  simp [autonomyCronScheduler, clientCall, hstrip, hjob, hne, runNow, checkEnqueuePolicy,
    Policy.default, orElse, saveAndReturn, SchedulerState.save, CronJobStore.enqueue,
    CronJobStore.modifyJob, numberedItem]

lemma exists_started (h : ∃ job, get? jobs "job" = some job ∧ job ≠ []) (n : ℕ) :
    ∃ jobs', autonomyCronScheduler env .default
        ⟨⟨jobs, [numberedItem n], [], []⟩, history, file, [.holding (numberedItem n)]⟩
        (noon, .start 0 none) =
          (⟨⟨jobs', [], [(numberedRun n, numberedItem n)], []⟩, history,
            ⟨jobs'.map Prod.snd, lastEntries history⟩,
            [.started (numberedItem n) (iso noon)]⟩, []) ∧
      ∃ job, get? jobs' "job" = some job ∧ job ≠ [] := by
  have hkept := exists_job_modify (f := fun job => if job = [] then job
      else setFields job [("last_run_at", iso noon), ("last_status", "dispatching")]) h
    fun job hne => by
      rw [if_neg hne]
      exact setFields_ne_nil hne _
  refine ⟨_, ?_, hkept⟩
  simp [autonomyCronScheduler, SchedulerOp.worker?, workerStep, startRun, SchedulerState.save,
    SchedulerState.setWorker, numberedItem, OrderedDict.insert, OrderedDict.has]

lemma exists_finished (h : ∃ job, get? jobs "job" = some job ∧ job ≠ []) (n : ℕ) :
    ∃ jobs' entry, autonomyCronScheduler env .default
        ⟨⟨jobs, [], [(numberedRun n, numberedItem n)], []⟩, history, file,
          [.ending (numberedItem n) (iso noon) (.deferred "busy")]⟩ (noon, .finish 0 none) =
          (⟨⟨jobs', [], [], []⟩, lastEntries (history ++ [entry]),
            ⟨jobs'.map Prod.snd, lastEntries (lastEntries (history ++ [entry]))⟩, [.idle]⟩,
            [.recorded entry]) ∧
      entry.runId = numberedRun n ∧ ∃ job, get? jobs' "job" = some job ∧ job ≠ [] := by
  have hkept := exists_job_modify (f := fun job => if job = [] then job
      else endDispatchFields env noon (.deferred "busy") job) h fun job hne => by
    rw [if_neg hne]
    exact setFields_ne_nil hne _
  refine ⟨_, historyEntry noon (numberedItem n) (iso noon) (.deferred "busy"), ?_, rfl, hkept⟩
  simp [autonomyCronScheduler, SchedulerOp.worker?, workerStep, finishRun, SchedulerState.save,
    SchedulerState.setWorker, numberedItem, OrderedDict.erase, phaseAfterFinish]

end Deferred

/-- A deferred run leaves its entry and a worker that waits. -/
lemma waiting_deferredRun (env : CronRuntime) {st : SchedulerState} (h : Waiting st) (n : ℕ) :
    Waiting ((autonomyCronScheduler env .default).after st (deferredRun n)) ∧
      ∃ entry, entry.runId = numberedRun n ∧
        recordedEntries (eventsFrom env .default st (deferredRun n)) = [entry] := by
  obtain ⟨⟨jobs, pending, running, queue⟩, history, file, workers⟩ := st
  obtain ⟨hpending, hrunning, hqueue, hworkers, hjob⟩ := h
  dsimp only at hpending hrunning hqueue hworkers hjob
  subst hpending hrunning hqueue hworkers
  obtain ⟨jobs₁, hcalled, hjob₁⟩ := exists_called env history file hjob n
  obtain ⟨jobs₂, hstarted, hjob₂⟩ :=
    exists_started env history ⟨jobs₁.map Prod.snd, lastEntries history⟩ hjob₁ n
  have hlooked : autonomyCronScheduler env .default
      ⟨⟨jobs₂, [], [(numberedRun n, numberedItem n)], []⟩, history,
        ⟨jobs₂.map Prod.snd, lastEntries history⟩,
        [.started (numberedItem n) (iso noon)]⟩ (noon, .look 0 (some "busy")) =
      (⟨⟨jobs₂, [], [(numberedRun n, numberedItem n)], []⟩, history,
        ⟨jobs₂.map Prod.snd, lastEntries history⟩,
        [.ending (numberedItem n) (iso noon) (.deferred "busy")]⟩, []) := by
    obtain ⟨job, hjob, hne⟩ := hjob₂
    simp [autonomyCronScheduler, SchedulerOp.worker?, workerStep, lookUp, numberedItem, hjob, hne,
      SchedulerState.setWorker]
  obtain ⟨jobs₃, entry, hfinished, hid, hjob₃⟩ :=
    exists_finished env history ⟨jobs₂.map Prod.snd, lastEntries history⟩ hjob₂ n
  have htaken : autonomyCronScheduler env .default
      ⟨⟨jobs₁, [numberedItem n], [], [numberedItem n]⟩, history,
        ⟨jobs₁.map Prod.snd, lastEntries history⟩, [.idle]⟩ (noon, .take 0) =
      (⟨⟨jobs₁, [numberedItem n], [], []⟩, history,
        ⟨jobs₁.map Prod.snd, lastEntries history⟩, [.holding (numberedItem n)]⟩, []) := rfl
  have hafter : (autonomyCronScheduler env .default).after
      ⟨⟨jobs, [], [], []⟩, history, file, [.idle]⟩ (deferredRun n) =
      ⟨⟨jobs₃, [], [], []⟩, lastEntries (history ++ [entry]),
        ⟨jobs₃.map Prod.snd, lastEntries (lastEntries (history ++ [entry]))⟩, [.idle]⟩ := by
    simp only [deferredRun, System.after_cons, System.after_nil, hcalled, htaken, hstarted,
      hlooked, hfinished]
  refine ⟨?_, entry, hid, ?_⟩
  · rw [hafter]
    exact ⟨rfl, rfl, rfl, rfl, hjob₃⟩
  · simp [eventsFrom, deferredRun, hcalled, htaken, hstarted, hlooked, hfinished, recordedEntries]

/-- Deferred runs leave their entries in order. -/
lemma recorded_deferredRuns (env : CronRuntime) {st : SchedulerState} (h : Waiting st)
    (ns : List ℕ) :
    (recordedEntries (eventsFrom env .default st (ns.flatMap deferredRun))).map
      HistoryEntry.runId = ns.map numberedRun := by
  induction ns generalizing st with
  | nil => rfl
  | cons n ns ih =>
    obtain ⟨hwaiting, entry, hid, hentries⟩ := waiting_deferredRun env h n
    rw [List.flatMap_cons, eventsFrom_append, recordedEntries_append, List.map_append, ih hwaiting,
      hentries]
    simp [hid]

/-- A job that is created and then run once more than the history has entries. -/
def longRun : List (DateTime × SchedulerOp) :=
  (noon, .call none (.create "job" (oneShotPayload ""))) :: (List.range 201).flatMap deferredRun

/-- The job is created, and nothing has happened to runs. -/
lemma waiting_created :
    Waiting (autonomyCronScheduler .ascii .default (.start 1)
        (noon, .call none (.create "job" (oneShotPayload "")))).1 ∧
      (autonomyCronScheduler .ascii .default (.start 1)
        (noon, .call none (.create "job" (oneShotPayload "")))).2 = [] := by
  have hjob : (createJob .ascii .default "job" (oneShotPayload "") noon {}).toOption.bind
      (fun s => (get? s.jobs "job").map List.isEmpty) = some false := by decide +kernel
  unfold autonomyCronScheduler clientCall
  dsimp only [SchedulerState.start]
  cases hcreate : createJob .ascii .default "job" (oneShotPayload "") noon {} with
  | error error =>
    rw [hcreate] at hjob
    simp [Except.toOption] at hjob
  | ok store =>
    rw [hcreate] at hjob
    obtain ⟨jobs, rfl⟩ := createJob_jobs hcreate
    obtain ⟨job, hsome, hne⟩ := Option.map_eq_some_iff.mp hjob
    exact ⟨⟨rfl, rfl, rfl, rfl, job, hsome, by simpa using hne⟩, rfl⟩

/-- The first of more than two hundred runs has finished and has no entry in the history. -/
theorem runs_in_order_longRun :
    ¬ ∀ entry ∈ recordedEntries (eventsFrom .ascii .default (.start 1) longRun),
      entryCount ((autonomyCronScheduler .ascii .default).after (.start 1) longRun).history
        entry.runId = 1 := by
  intro hall
  have hcompletes : ∀ op ∈ longRun, op.2.Completes := by
    intro op hop
    rcases List.mem_cons.mp hop with rfl | hop
    · trivial
    · obtain ⟨n, -, hop⟩ := List.mem_flatMap.mp hop
      simp only [deferredRun, List.mem_cons, List.not_mem_nil, or_false] at hop
      rcases hop with rfl | rfl | rfl | rfl | rfl
      · trivial
      · trivial
      · rfl
      · trivial
      · rfl
  have hhistory := (accounted_after .ascii .default 1 hcompletes).history
  have hids : (recordedEntries (eventsFrom .ascii .default (.start 1) longRun)).map
      HistoryEntry.runId = numberedRun 0 :: (List.range 200).map fun n => numberedRun (n + 1) := by
    obtain ⟨hwaiting, hnone⟩ := waiting_created
    have hdeferred := recorded_deferredRuns .ascii hwaiting (List.range 201)
    have hrange : List.range 201 = 0 :: (List.range 200).map Nat.succ :=
      List.range_succ_eq_map
    rw [hrange, List.map_cons, List.map_map] at hdeferred
    unfold longRun
    rw [eventsFrom_cons, hnone, List.nil_append, hrange]
    exact hdeferred
  generalize recordedEntries (eventsFrom .ascii .default (.start 1) longRun) = entries at *
  obtain ⟨first, rest, rfl⟩ : ∃ first rest, entries = first :: rest :=
    List.exists_cons_of_ne_nil (by rintro rfl; simp at hids)
  rw [List.map_cons] at hids
  obtain ⟨hfirst, hrest⟩ := List.cons.inj hids
  have hlength : rest.length = 200 := by simpa using congrArg List.length hrest
  have hkept : lastEntries (first :: rest) = rest := by
    unfold lastEntries
    rw [List.length_cons, hlength]
    rfl
  have hcount : entryCount rest first.runId = 0 := by
    refine List.countP_eq_zero.mpr fun entry hentry => ?_
    have hmem : entry.runId ∈ (List.range 200).map fun n => numberedRun (n + 1) :=
      hrest ▸ List.mem_map_of_mem hentry
    obtain ⟨n, -, hn⟩ := List.mem_map.mp hmem
    rw [← hn, hfirst]
    simp [numberedRun]
  have hone := hall first List.mem_cons_self
  rw [hhistory, hkept, hcount] at hone
  exact absurd hone (by decide)

end Trion.Cron
