import Mathlib.Data.List.Induction
import Mathlib.Data.List.Nodup
import Trion.Cron.Consumed
import Trion.Cron.RunAccounting

/-!
# One-shot jobs

The run of a one-shot job marks the job as consumed when it is put into the queue, and the mark
is saved while the queue is not.  So the mark can outlive the run: the process stops before the
run has been submitted, or the hardware guard defers the run.  Apart from these two steps a job
is marked only while its run is pending or running, or after it was submitted or has failed.
-/

namespace Trion.Cron

open Trion.Python OrderedDict OperationRun

variable {env : CronRuntime} {policy : Policy}

/-! ### The last run of a job -/

/-- The run of the job that was put into the queue last. -/
def lastRun (events : List RunEvent) (jobId : String) : Option RunItem :=
  ((enqueuedRuns events).filter fun item => item.cronJobId == jobId).getLast?

lemma mem_of_lastRun {events : List RunEvent} {jobId : String} {item : RunItem}
    (h : lastRun events jobId = some item) :
    item ∈ enqueuedRuns events ∧ item.cronJobId = jobId := by
  have hmem := List.mem_filter.mp (List.mem_of_getLast? h)
  exact ⟨hmem.1, by simpa using hmem.2⟩

lemma lastRun_append_of_none {events events' : List RunEvent} {jobId : String}
    (h : ∀ item ∈ enqueuedRuns events', item.cronJobId ≠ jobId) :
    lastRun (events ++ events') jobId = lastRun events jobId := by
  have hnone : (enqueuedRuns events').filter (fun item => item.cronJobId == jobId) = [] :=
    List.filter_eq_nil_iff.mpr fun item hitem => by simpa using h item hitem
  unfold lastRun
  rw [enqueuedRuns_append, List.filter_append, hnone, List.append_nil]

/-- A run of the job that comes last is one of the new ones. -/
lemma exists_lastRun_append {events events' : List RunEvent} {jobId : String}
    (h : ∃ item ∈ enqueuedRuns events', item.cronJobId = jobId) :
    ∃ item ∈ enqueuedRuns events', lastRun (events ++ events') jobId = some item := by
  obtain ⟨item, hitem, hid⟩ := h
  have hmem : item ∈ (enqueuedRuns events').filter fun item => item.cronJobId == jobId :=
    List.mem_filter.mpr ⟨hitem, by simpa using hid⟩
  obtain ⟨last, hlast⟩ := Option.isSome_iff_exists.mp
    (List.getLast?_isSome.mpr (List.ne_nil_of_mem hmem))
  refine ⟨last, (List.mem_filter.mp (List.mem_of_getLast? hlast)).1, ?_⟩
  unfold lastRun
  rw [enqueuedRuns_append, List.filter_append, List.getLast?_append, hlast]
  rfl

lemma FreshRuns.eq_of_runId {events : List RunEvent} (h : FreshRuns events) {item item' : RunItem}
    (hitem : item ∈ enqueuedRuns events) (hitem' : item' ∈ enqueuedRuns events)
    (hid : item.runId = item'.runId) : item = item' :=
  List.inj_on_of_nodup_map h hitem hitem' hid

/-! ### What has become of a run -/

/-- The run was submitted, or ended with a recorded failure. -/
def Settled (events : List RunEvent) (item : RunItem) : Prop :=
  item ∈ submittedRuns events ∨
    ∃ entry ∈ recordedEntries events, entry.runId = item.runId ∧ ∃ error, entry.outcome = .failed error

/-- The run is pending or running, was submitted, or ended with a recorded failure. -/
def Kept (events : List RunEvent) (st : SchedulerState) (item : RunItem) : Prop :=
  item ∈ st.store.pending ∨ get? st.store.running item.runId = some item ∨ Settled events item

/-- The run waits in the queue, is in a worker's hands, or stands in the running table. -/
def Unfinished (st : SchedulerState) (item : RunItem) : Prop :=
  item ∈ st.store.queue ∨ (∃ phase ∈ st.workers, phase.item? = some item) ∨
    get? st.store.running item.runId = some item

lemma Settled.append {events : List RunEvent} {item : RunItem} (h : Settled events item)
    (events' : List RunEvent) : Settled (events ++ events') item := by
  unfold Settled
  rw [submittedRuns_append, recordedEntries_append]
  rcases h with h | ⟨entry, hentry, h⟩
  · exact .inl (List.mem_append_left _ h)
  · exact .inr ⟨entry, List.mem_append_left _ hentry, h⟩

/-- The operation loses no run of a job that is marked: when the process stops, the last run of
a job that the file marks is not left behind unsubmitted; and the last run of a job that is
marked is not deferred. -/
def SchedulerOp.KeepsOneShots (env : CronRuntime) (events : List RunEvent) (st : SchedulerState) :
    SchedulerOp → Prop
  | .restart => ∀ jobId item, Marked env (loadJobs env st.file.jobs) jobId →
      lastRun events jobId = some item → Unfinished st item → item ∈ submittedRuns events
  | .finish w _ => ∀ item startedAt reason,
      st.workers[w]? = some (.ending item startedAt (.deferred reason)) →
      Marked env st.store.jobs item.cronJobId → lastRun events item.cronJobId ≠ some item
  | _ => True

/-- Where the last runs of the jobs that are marked have gone. -/
structure OneShotsKept (env : CronRuntime) (events : List RunEvent) (st : SchedulerState) :
    Prop where
  identified : Identified env st.store.jobs
  known : ∀ item, item ∈ st.store.queue ∨ (∃ phase ∈ st.workers, phase.item? = some item) →
    item ∈ enqueuedRuns events
  pending : ∀ item ∈ st.store.pending, item ∈ st.store.queue ∨ .holding item ∈ st.workers
  handedOver : ∀ item startedAt, .submitting item startedAt ∈ st.workers ∨
    (∃ jobId, .ending item startedAt (.submitted jobId) ∈ st.workers) →
    item ∈ submittedRuns events
  marked : ∀ jobId, Marked env st.store.jobs jobId →
    ∃ item, lastRun events jobId = some item ∧ Kept events st item
  saved : ∀ jobId, Marked env (loadJobs env st.file.jobs) jobId →
    ∃ item, lastRun events jobId = some item ∧ (Unfinished st item ∨ Settled events item)

lemma oneShotsKept_start (env : CronRuntime) (workers : ℕ) :
    OneShotsKept env [] (.start workers) := by
  have hidle : ∀ phase ∈ (SchedulerState.start workers).workers, phase = .idle := fun phase h =>
    List.eq_of_mem_replicate h
  have hnone : ∀ jobId, ¬ Marked env [] jobId := by
    rintro jobId ⟨job, hjob, -⟩
    simp at hjob
  constructor
  case identified => exact ⟨List.nodup_nil, fun jobId job h => by simp [SchedulerState.start] at h⟩
  case known =>
    rintro item (h | ⟨phase, hphase, hitem⟩)
    · simp [SchedulerState.start] at h
    · rw [hidle phase hphase] at hitem
      simp [WorkerPhase.item?] at hitem
  case pending => simp [SchedulerState.start]
  case handedOver =>
    rintro item startedAt (h | ⟨jobId, h⟩)
    · exact absurd (hidle _ h) (by simp)
    · exact absurd (hidle _ h) (by simp)
  case marked => exact fun jobId h => absurd h (hnone jobId)
  case saved => exact fun jobId h => absurd h (hnone jobId)

/-! ### One operation -/

variable {events : List RunEvent} {st : SchedulerState} {op : DateTime × SchedulerOp}

lemma mem_set_of_ne {α : Type} {l : List α} {i : ℕ} {a b : α} (ha : a ∈ l) (hb : l[i]? = some b)
    (hne : a ≠ b) (c : α) : a ∈ l.set i c := by
  obtain ⟨j, hj⟩ := List.mem_iff_getElem?.mp ha
  have hij : i ≠ j := by
    rintro rfl
    exact hne (Option.some.inj (hj.symm.trans hb))
  exact List.mem_iff_getElem?.mpr ⟨j, (List.getElem?_set_ne hij).trans hj⟩

/-- A run in the hands of a worker stays there if only another worker moves. -/
lemma inHands_set {w : ℕ} {phase : WorkerPhase} {item : RunItem}
    (hphase : st.workers[w]? = some phase) (hitem : ∃ p ∈ st.workers, p.item? = some item)
    (phase' : WorkerPhase) :
    phase.item? = some item ∨ ∃ p ∈ st.workers.set w phase', p.item? = some item := by
  obtain ⟨p, hp, hpitem⟩ := hitem
  by_cases hsame : p = phase
  · exact .inl (hsame ▸ hpitem)
  · exact .inr ⟨p, mem_set_of_ne hp hphase hsame phase', hpitem⟩

/-- A run in the hands of a worker was there, or the worker has just got it. -/
lemma inHands_of_set {workers : List WorkerPhase} {w : ℕ} {phase' : WorkerPhase} {item : RunItem}
    (h : ∃ p ∈ workers.set w phase', p.item? = some item) :
    phase'.item? = some item ∨ ∃ p ∈ workers, p.item? = some item := by
  obtain ⟨p, hp, hitem⟩ := h
  rcases List.mem_or_eq_of_mem_set hp with hp | rfl
  · exact .inr ⟨p, hp, hitem⟩
  · exact .inl hitem

/-- The marks in a file that may have been saved. -/
lemma marked_of_saved {before file : StateFile} {s' : CronJobStore} (hfile : Saved before s' file)
    (h : Identified env s'.jobs) {jobId : String} (hmarked : Marked env (loadJobs env file.jobs) jobId) :
    Marked env (loadJobs env before.jobs) jobId ∨ Marked env s'.jobs jobId := by
  rcases hfile with rfl | hjobs
  · exact .inl hmarked
  · rw [hjobs, loadJobs_of_identified h] at hmarked
    exact .inr hmarked

/-- What is pending or running is unfinished. -/
lemma Kept.unfinished {item : RunItem} (h : Kept events st item)
    (hpending : ∀ item ∈ st.store.pending, item ∈ st.store.queue ∨ .holding item ∈ st.workers) :
    Unfinished st item ∨ Settled events item := by
  rcases h with h | h | h
  · rcases hpending item h with h | h
    · exact .inl (.inl h)
    · exact .inl (.inr (.inl ⟨_, h, rfl⟩))
  · exact .inl (.inr (.inr h))
  · exact .inr h

/-- The marks of the file, once the runs of the file before and of the store are known. -/
lemma saved_of_marked {events' : List RunEvent} {st' : SchedulerState}
    (hfile : Saved st.file st'.store st'.file) (hidentified : Identified env st'.store.jobs)
    (hpending : ∀ item ∈ st'.store.pending, item ∈ st'.store.queue ∨ .holding item ∈ st'.workers)
    (hmarked : ∀ jobId, Marked env st'.store.jobs jobId →
      ∃ item, lastRun events' jobId = some item ∧ Kept events' st' item)
    (hbefore : ∀ jobId, Marked env (loadJobs env st.file.jobs) jobId →
      ∃ item, lastRun events' jobId = some item ∧ (Unfinished st' item ∨ Settled events' item)) :
    ∀ jobId, Marked env (loadJobs env st'.file.jobs) jobId →
      ∃ item, lastRun events' jobId = some item ∧ (Unfinished st' item ∨ Settled events' item) := by
  intro jobId hsaved
  rcases marked_of_saved hfile hidentified hsaved with hold | hnew
  · exact hbefore jobId hold
  · obtain ⟨item, hlast, hkept⟩ := hmarked jobId hnew
    exact ⟨item, hlast, hkept.unfinished hpending⟩

/-- What a call or a tick does to the runs: new ones come to the pending list and to the queue,
and only those of a job that is gone leave the pending list. -/
lemma exists_moves (env : CronRuntime) (policy : Policy) (now : DateTime) (s : CronJobStore)
    {op : SchedulerOp} {cronOp : CronOp} (hop : op.cronOp? = some cronOp) :
    ∃ s' items, scheduler env policy s (now, cronOp) = (s', items) ∧
      s'.queue = s.queue ++ items ∧ s'.running = s.running ∧
      (∀ item, item ∈ s'.pending → item ∈ s.pending ∨ item ∈ items) ∧
      (∀ item, item ∈ items → item ∈ s'.pending) ∧
      ∀ item ∈ s.pending, has s'.jobs item.cronJobId = true → item ∈ s'.pending := by
  rcases deletes_or_enqueues env policy now s hop with ⟨cronJobId, rfl⟩ | henqueues
  · refine ⟨deleteJob cronJobId s, [], rfl, by simp [deleteJob], rfl, ?_, by simp, ?_⟩
    · exact fun item hitem => .inl (List.mem_filter.mp hitem).1
    · intro item hitem hhas
      refine List.mem_filter.mpr ⟨hitem, ?_⟩
      have hne : item.cronJobId ≠ strip cronJobId := by
        intro hid
        have hgone : has (deleteJob cronJobId s).jobs item.cronJobId = false :=
          has_eq_false_iff.mpr ((get?_erase ..).trans (if_pos hid))
        simp [hgone] at hhas
      simpa using hne
  · refine ⟨_, _, rfl, henqueues.queue, henqueues.running, ?_, ?_, ?_⟩
    · exact fun item hitem => List.mem_append.mp (henqueues.pending ▸ hitem)
    · exact fun item hitem => henqueues.pending ▸ List.mem_append_right _ hitem
    · exact fun item hitem _ => henqueues.pending ▸ List.mem_append_left _ hitem

/-- A call or a tick. -/
lemma oneShotsKept_stored (h : OneShotsKept env events st) (hnames : op.2.NamesJobs)
    {cronOp : CronOp} {file : StateFile} (hop : op.2.cronOp? = some cronOp)
    (hfile : Saved st.file (scheduler env policy st.store (op.1, cronOp)).1 file) :
    OneShotsKept env
      (events ++ (scheduler env policy st.store (op.1, cronOp)).2.map .enqueued)
      { st with store := (scheduler env policy st.store (op.1, cronOp)).1, file := file } := by
  have hidentified : Identified env (scheduler env policy st.store (op.1, cronOp)).1.jobs :=
    identified_stored h.identified hop hnames
  have hmarks := fun jobId => marked_of_stored env policy op.1 st.store jobId hop
  obtain ⟨s', items, hresult, hqueue, hrunning, hold, hnew, hstays⟩ :=
    exists_moves env policy op.1 st.store hop
  rw [hresult] at hfile hidentified hmarks ⊢
  dsimp only at hfile hidentified hmarks ⊢
  -- the last run of a job is a new one, or the one it was
  have hlast : ∀ jobId, (∃ item ∈ items,
      lastRun (events ++ items.map .enqueued) jobId = some item) ∨
      ((∀ item ∈ items, item.cronJobId ≠ jobId) ∧
        lastRun (events ++ items.map .enqueued) jobId = lastRun events jobId) := by
    intro jobId
    by_cases hany : ∃ item ∈ items, item.cronJobId = jobId
    · have hsome := @exists_lastRun_append events (items.map RunEvent.enqueued) jobId
        (by simpa using hany)
      simpa using Or.inl hsome
    · have hnone : ∀ item ∈ items, item.cronJobId ≠ jobId := fun item hitem hid =>
        hany ⟨item, hitem, hid⟩
      exact .inr ⟨hnone, lastRun_append_of_none (by simpa using hnone)⟩
  have hpending : ∀ item ∈ s'.pending, item ∈ s'.queue ∨ .holding item ∈ st.workers := by
    intro item hitem
    rw [hqueue]
    rcases hold item hitem with hitem | hitem
    · rcases h.pending item hitem with hqueued | hholding
      · exact .inl (List.mem_append_left _ hqueued)
      · exact .inr hholding
    · exact .inl (List.mem_append_right _ hitem)
  have hmarked : ∀ jobId, Marked env s'.jobs jobId →
      ∃ item, lastRun (events ++ items.map .enqueued) jobId = some item ∧
        Kept (events ++ items.map .enqueued) { st with store := s', file := file } item := by
    intro jobId hmarked
    rcases hlast jobId with ⟨item, hitem, hlast⟩ | ⟨hnone, hlast⟩
    · exact ⟨item, hlast, .inl (hnew item hitem)⟩
    · obtain ⟨item, hitem, hkept⟩ := h.marked jobId (hmarks jobId hnone hmarked)
      refine ⟨item, hlast.trans hitem, ?_⟩
      rcases hkept with hkept | hkept | hkept
      · left
        refine hstays item hkept ?_
        obtain ⟨job, hjob, -⟩ := hmarked
        rw [(mem_of_lastRun hitem).2, has_iff, hjob]
        rfl
      · exact .inr (.inl (hrunning ▸ hkept))
      · exact .inr (.inr (hkept.append _))
  constructor
  case identified => exact hidentified
  case known =>
    intro item hitem
    rw [enqueuedRuns_append, enqueuedRuns_enqueued, List.mem_append]
    dsimp only at hitem
    rw [hqueue, List.mem_append, or_right_comm] at hitem
    rcases hitem with hitem | hitem
    · exact .inl (h.known item hitem)
    · exact .inr hitem
  case pending => exact hpending
  case handedOver =>
    intro item startedAt hphase
    rw [submittedRuns_append]
    exact List.mem_append_left _ (h.handedOver item startedAt hphase)
  case marked => exact hmarked
  case saved =>
    refine saved_of_marked hfile hidentified hpending hmarked fun jobId hsaved => ?_
    rcases hlast jobId with ⟨item, hitem, hlast⟩ | ⟨-, hlast⟩
    · exact ⟨item, hlast, .inl (.inl (hqueue ▸ List.mem_append_right _ hitem))⟩
    · obtain ⟨item, hitem, hkept⟩ := h.saved jobId hsaved
      refine ⟨item, hlast.trans hitem, ?_⟩
      rcases hkept with (hkept | hkept | hkept) | hkept
      · exact .inl (.inl (hqueue ▸ List.mem_append_left _ hkept))
      · exact .inl (.inr (.inl hkept))
      · exact .inl (.inr (.inr (hrunning ▸ hkept)))
      · exact .inr (hkept.append _)

/-- A worker that moves. -/
lemma OneShotsKept.of_moved (h : OneShotsKept env events st) {w : ℕ} {phase' : WorkerPhase}
    {st' : SchedulerState} {happened : List RunEvent}
    (hworkers : st'.workers = st.workers.set w phase') (hnone : enqueuedRuns happened = [])
    (hitem : ∀ i, phase'.item? = some i → i ∈ enqueuedRuns events)
    (hqueue : ∀ i ∈ st'.store.queue, i ∈ st.store.queue)
    (hpending : ∀ i ∈ st'.store.pending, i ∈ st'.store.queue ∨ .holding i ∈ st'.workers)
    (hhanded : ∀ i startedAt, phase' = .submitting i startedAt ∨
      (∃ jobId, phase' = .ending i startedAt (.submitted jobId)) →
      i ∈ submittedRuns (events ++ happened))
    (hidentified : Identified env st'.store.jobs)
    (hmarks : ∀ jobId, Marked env st'.store.jobs jobId → Marked env st.store.jobs jobId)
    (hkept : ∀ i ∈ enqueuedRuns events, Marked env st.store.jobs i.cronJobId →
      lastRun events i.cronJobId = some i → Kept events st i → Kept (events ++ happened) st' i)
    (hfile : (st'.file = st.file ∧ ∀ i ∈ enqueuedRuns events, Unfinished st i →
        Unfinished st' i ∨ Settled (events ++ happened) i) ∨
      st'.file.jobs = st'.store.jobs.map Prod.snd) :
    OneShotsKept env (events ++ happened) st' := by
  have hlast : ∀ jobId, lastRun (events ++ happened) jobId = lastRun events jobId := fun jobId =>
    lastRun_append_of_none (by simp [hnone])
  have hmarked : ∀ jobId, Marked env st'.store.jobs jobId →
      ∃ item, lastRun (events ++ happened) jobId = some item ∧
        Kept (events ++ happened) st' item := by
    intro jobId hmarked
    obtain ⟨item, hitem, hold⟩ := h.marked jobId (hmarks jobId hmarked)
    obtain ⟨hmem, rfl⟩ := mem_of_lastRun hitem
    exact ⟨item, (hlast _).trans hitem, hkept item hmem (hmarks _ hmarked) hitem hold⟩
  constructor
  case identified => exact hidentified
  case known =>
    intro i hi
    rw [enqueuedRuns_append, hnone, List.append_nil]
    rcases hi with hi | hi
    · exact h.known i (.inl (hqueue i hi))
    · rw [hworkers] at hi
      rcases inHands_of_set hi with hi | hi
      · exact hitem i hi
      · exact h.known i (.inr hi)
  case pending => exact hpending
  case handedOver =>
    have hold : ∀ i startedAt, .submitting i startedAt ∈ st.workers ∨
        (∃ jobId, .ending i startedAt (.submitted jobId) ∈ st.workers) →
        i ∈ submittedRuns (events ++ happened) := fun i startedAt hi => by
      rw [submittedRuns_append]
      exact List.mem_append_left _ (h.handedOver i startedAt hi)
    rw [hworkers]
    rintro i startedAt (hi | ⟨jobId, hi⟩)
    · rcases List.mem_or_eq_of_mem_set hi with hi | hi
      · exact hold i startedAt (.inl hi)
      · exact hhanded i startedAt (.inl hi.symm)
    · rcases List.mem_or_eq_of_mem_set hi with hi | hi
      · exact hold i startedAt (.inr ⟨jobId, hi⟩)
      · exact hhanded i startedAt (.inr ⟨jobId, hi.symm⟩)
  case marked => exact hmarked
  case saved =>
    rcases hfile with ⟨hsame, hunfinished⟩ | hjobs
    · refine saved_of_marked (.inl hsame) hidentified hpending hmarked fun jobId hsaved => ?_
      obtain ⟨item, hitem, hold⟩ := h.saved jobId hsaved
      refine ⟨item, (hlast jobId).trans hitem, ?_⟩
      rcases hold with hold | hold
      · exact hunfinished item (mem_of_lastRun hitem).1 hold
      · exact .inr (hold.append _)
    · intro jobId hsaved
      rw [hjobs, loadJobs_of_identified hidentified] at hsaved
      obtain ⟨item, hitem, hkept⟩ := hmarked jobId hsaved
      exact ⟨item, hitem, hkept.unfinished hpending⟩

/-- A worker that takes a run from the queue. -/
lemma oneShotsKept_taken (h : OneShotsKept env events st) {w : ℕ} {item : RunItem}
    {queue : List RunItem} (hphase : st.workers[w]? = some .idle)
    (hqueue : st.store.queue = item :: queue) :
    OneShotsKept env (events ++ [])
      ({ st with store := { st.store with queue := queue } }.setWorker w (.holding item)) := by
  have hhead : item ∈ enqueuedRuns events := h.known item (.inl (hqueue ▸ List.mem_cons_self))
  have hholding : .holding item ∈ st.workers.set w (.holding item) :=
    List.mem_set (List.getElem?_eq_some_iff.mp hphase).1 _
  have hmoved : ∀ i, i ∈ st.store.queue ∨ .holding i ∈ st.workers →
      i ∈ queue ∨ .holding i ∈ st.workers.set w (.holding item) := by
    rintro i (hi | hi)
    · rw [hqueue] at hi
      rcases List.mem_cons.mp hi with rfl | hi
      · exact .inr hholding
      · exact .inl hi
    · exact .inr (mem_set_of_ne hi hphase WorkerPhase.noConfusion _)
  refine h.of_moved rfl rfl ?_ ?_ ?_ ?_ h.identified
    (fun _ hmarked => hmarked) ?_ (.inl ⟨rfl, ?_⟩)
  · rintro i hi
    obtain rfl := Option.some.inj hi
    exact hhead
  · exact fun i hi => hqueue ▸ List.mem_cons_of_mem _ hi
  · exact fun i hi => hmoved i (h.pending i hi)
  · rintro i startedAt (hi | ⟨jobId, hi⟩)
    · exact WorkerPhase.noConfusion hi
    · exact WorkerPhase.noConfusion hi
  · rw [List.append_nil]
    exact fun i _ _ _ hkept => hkept
  · rw [List.append_nil]
    rintro i - (hi | hi | hi)
    · rcases hmoved i (.inl hi) with hi | hi
      · exact .inl (.inl hi)
      · exact .inl (.inr (.inl ⟨_, hi, rfl⟩))
    · rcases inHands_set hphase hi (.holding item) with hi | hi
      · simp [WorkerPhase.item?] at hi
      · exact .inl (.inr (.inl hi))
    · exact .inl (.inr (.inr hi))

/-- A worker that goes on with its run and leaves the store alone. -/
lemma oneShotsKept_carried (h : OneShotsKept env events st) {w : ℕ} {item : RunItem}
    {phase phase' : WorkerPhase} {happened : List RunEvent} (hphase : st.workers[w]? = some phase)
    (hcarries : phase.item? = some item) (hcarries' : phase'.item? = some item)
    (hholding : ∀ i, phase ≠ .holding i) (hnone : enqueuedRuns happened = [])
    (hhanded : ∀ i startedAt, phase' = .submitting i startedAt ∨
      (∃ jobId, phase' = .ending i startedAt (.submitted jobId)) →
      i ∈ submittedRuns (events ++ happened)) :
    OneShotsKept env (events ++ happened) (st.setWorker w phase') := by
  have hmem : phase ∈ st.workers := List.mem_of_getElem? hphase
  have hmem' : phase' ∈ st.workers.set w phase' :=
    List.mem_set (List.getElem?_eq_some_iff.mp hphase).1 _
  refine h.of_moved rfl hnone ?_ (fun _ hi => hi) ?_ hhanded
    h.identified (fun _ hmarked => hmarked) ?_ (.inl ⟨rfl, ?_⟩)
  · intro i hi
    exact h.known i (.inr ⟨phase, hmem, hcarries.trans (hcarries'.symm.trans hi)⟩)
  · intro i hi
    rcases h.pending i hi with hi | hi
    · exact .inl hi
    · exact .inr (mem_set_of_ne hi hphase (hholding i).symm _)
  · rintro i - - - (hi | hi | hi)
    · exact .inl hi
    · exact .inr (.inl hi)
    · exact .inr (.inr (hi.append _))
  · rintro i - (hi | hi | hi)
    · exact .inl (.inl hi)
    · rcases inHands_set hphase hi phase' with hi | hi
      · exact .inl (.inr (.inl ⟨phase', hmem', hcarries'.trans (hcarries.symm.trans hi)⟩))
      · exact .inl (.inr (.inl hi))
    · exact .inl (.inr (.inr hi))

/-- The store after the first section of a worker. -/
lemma identified_startRun (h : Identified env st.store.jobs) (now : DateTime) (item : RunItem) :
    Identified env (startRun now item st.store).jobs := by
  have hwrite : ∀ job, RuntimeWrite job (if job = [] then job
      else setFields job [("last_run_at", iso now), ("last_status", "dispatching")]) := by
    intro job
    split
    · exact .refl job
    · exact runtimeWrite_setFields (by simp [runtimeFields]) job
  refine h.of_writes ?_ (runtimeWrites_of_modify rfl hwrite)
  rw [keys_startRun]
  exact h.nodup

/-- The store after the last section of a worker. -/
lemma identified_finishRun (h : Identified env st.store.jobs) (now : DateTime) (item : RunItem)
    (outcome : DispatchEnd) : Identified env (finishRun env now item outcome st.store).jobs := by
  have hwrite : ∀ job, RuntimeWrite job
      (if job = [] then job else endDispatchFields env now outcome job) := by
    intro job
    split
    · exact .refl job
    · exact endDispatchFields_write now outcome job
  refine h.of_writes ?_ (runtimeWrites_of_modify rfl hwrite)
  rw [keys_finishRun]
  exact h.nodup

/-- A worker's first section: its run goes from the pending list to the running table. -/
lemma oneShotsKept_started (h : OneShotsKept env events st) (hfresh : FreshRuns events) {w : ℕ}
    {item : RunItem} {phase' : WorkerPhase} {now : DateTime} {file : StateFile}
    (hphase : st.workers[w]? = some (.holding item))
    (hphase' : phase' = .started item (iso now) ∨ phase' = .dead)
    (hfile : Saved st.file (startRun now item st.store) file) :
    OneShotsKept env (events ++ [])
      ({ st with store := startRun now item st.store, file := file }.setWorker w phase') := by
  have hmem : item ∈ enqueuedRuns events :=
    h.known item (.inr ⟨_, List.mem_of_getElem? hphase, rfl⟩)
  have hrunning : get? (startRun now item st.store).running item.runId = some item :=
    get?_insert_self
  have hrunning' : ∀ i ∈ enqueuedRuns events, get? st.store.running i.runId = some i →
      get? (startRun now item st.store).running i.runId = some i := by
    intro i hi hrun
    refine (get?_insert ..).trans ?_
    split
    · rename_i hid
      rw [hfresh.eq_of_runId hi hmem hid]
    · exact hrun
  refine h.of_moved rfl rfl ?_ (fun _ hi => hi) ?_ ?_
    (identified_startRun h.identified now item)
    (fun jobId => (keepsTrigger_startRun env now item st.store jobId).marked) ?_ ?_
  · rintro i hi
    rcases hphase' with rfl | rfl
    · obtain rfl := Option.some.inj hi
      exact hmem
    · simp [WorkerPhase.item?] at hi
  · intro i hi
    obtain ⟨hold, hne⟩ := List.mem_filter.mp hi
    rcases h.pending i hold with hi | hi
    · exact .inl hi
    · refine .inr (mem_set_of_ne hi hphase ?_ _)
      rintro hsame
      obtain rfl := WorkerPhase.holding.inj hsame
      simp at hne
  · rintro i startedAt (hi | ⟨jobId, hi⟩)
    · rcases hphase' with rfl | rfl <;> exact WorkerPhase.noConfusion hi
    · rcases hphase' with rfl | rfl <;> exact WorkerPhase.noConfusion hi
  · rintro i hi - - (hkept | hkept | hkept)
    · by_cases hid : i.runId = item.runId
      · obtain rfl := hfresh.eq_of_runId hi hmem hid
        exact .inr (.inl hrunning)
      · exact .inl (List.mem_filter.mpr ⟨hkept, by simpa using hid⟩)
    · exact .inr (.inl (hrunning' i hi hkept))
    · exact .inr (.inr (hkept.append _))
  · rcases hfile with rfl | hjobs
    · refine .inl ⟨rfl, ?_⟩
      rintro i hi (hold | hold | hold)
      · exact .inl (.inl hold)
      · rcases inHands_set hphase hold phase' with hsame | hold
        · obtain rfl := Option.some.inj hsame
          exact .inl (.inr (.inr hrunning))
        · exact .inl (.inr (.inl hold))
      · exact .inl (.inr (.inr (hrunning' i hi hold)))
    · exact .inr hjobs

/-- A worker's last section: its run leaves the running table. -/
lemma oneShotsKept_finished (h : OneShotsKept env events st) (hfresh : FreshRuns events) {w : ℕ}
    {item : RunItem} {startedAt : String} {outcome : DispatchEnd} {now : DateTime}
    {saveError : Option String} {history : List HistoryEntry} {file : StateFile}
    (hphase : st.workers[w]? = some (.ending item startedAt outcome))
    (hkeeps : ∀ reason, outcome = .deferred reason → Marked env st.store.jobs item.cronJobId →
      lastRun events item.cronJobId ≠ some item)
    (hfile : Saved st.file (finishRun env now item outcome st.store) file)
    (hsaves : saveError = none → file.jobs =
      (finishRun env now item outcome st.store).jobs.map Prod.snd) :
    OneShotsKept env (events ++ [.recorded (historyEntry now item startedAt outcome)])
      ({ st with
          store := finishRun env now item outcome st.store
          history := history
          file := file }.setWorker w (phaseAfterFinish item startedAt outcome saveError)) := by
  have hinHands : .ending item startedAt outcome ∈ st.workers := List.mem_of_getElem? hphase
  have hmem : item ∈ enqueuedRuns events := h.known item (.inr ⟨_, hinHands, rfl⟩)
  have hrunning : ∀ i ∈ enqueuedRuns events, i ≠ item →
      get? st.store.running i.runId = some i →
      get? (finishRun env now item outcome st.store).running i.runId = some i := by
    intro i hi hne hrun
    refine (get?_erase ..).trans ?_
    rw [if_neg fun hid => hne (hfresh.eq_of_runId hi hmem hid)]
    exact hrun
  -- a run that is not deferred is settled
  have hsettled : (∀ reason, outcome ≠ .deferred reason) →
      Settled (events ++ [.recorded (historyEntry now item startedAt outcome)]) item := by
    intro hne
    cases outcome with
    | deferred reason => exact absurd rfl (hne reason)
    | submitted jobId =>
      left
      rw [submittedRuns_append]
      exact List.mem_append_left _ (h.handedOver item startedAt (.inr ⟨jobId, hinHands⟩))
    | failed error =>
      refine .inr ⟨historyEntry now item startedAt (.failed error), ?_, rfl, _, rfl⟩
      rw [recordedEntries_append]
      exact List.mem_append_right _ List.mem_cons_self
  refine h.of_moved rfl rfl ?_ (fun _ hi => hi) ?_ ?_ (identified_finishRun h.identified now item outcome)
    (fun jobId => (keepsTrigger_finishRun env now item outcome st.store jobId).marked) ?_ ?_
  · intro i hi
    cases saveError with
    | none => simp [phaseAfterFinish, WorkerPhase.item?] at hi
    | some text =>
      cases outcome with
      | failed error => simp [phaseAfterFinish, WorkerPhase.item?] at hi
      | _ =>
        obtain rfl := Option.some.inj hi
        exact hmem
  · intro i hi
    rcases h.pending i hi with hi | hi
    · exact .inl hi
    · exact .inr (mem_set_of_ne hi hphase WorkerPhase.noConfusion _)
  · intro i startedAt' hi
    cases saveError with
    | none => simp [phaseAfterFinish] at hi
    | some text => cases outcome <;> simp [phaseAfterFinish] at hi
  · rintro i hi hmarked hlast hkept
    by_cases hsame : i = item
    · subst hsame
      exact .inr (.inr (hsettled fun reason houtcome => hkeeps reason houtcome hmarked hlast))
    · rcases hkept with hkept | hkept | hkept
      · exact .inl hkept
      · exact .inr (.inl (hrunning i hi hsame hkept))
      · exact .inr (.inr (hkept.append _))
  · cases saveError with
    | none => exact .inr (hsaves rfl)
    | some text =>
      rcases hfile with rfl | hjobs
      · refine .inl ⟨rfl, fun i hi hold => ?_⟩
        by_cases hsame : i = item
        · subst hsame
          cases outcome with
          | deferred reason =>
            have hnew : WorkerPhase.ending i startedAt (.failed text) ∈
                st.workers.set w (.ending i startedAt (.failed text)) :=
              List.mem_set (List.getElem?_eq_some_iff.mp hphase).1 _
            exact .inl (.inr (.inl ⟨_, hnew, rfl⟩))
          | submitted jobId => exact .inr (hsettled fun _ => DispatchEnd.noConfusion)
          | failed error => exact .inr (hsettled fun _ => DispatchEnd.noConfusion)
        · rcases hold with hold | hold | hold
          · exact .inl (.inl hold)
          · rcases inHands_set hphase hold (phaseAfterFinish item startedAt outcome (some text))
              with hi' | hi'
            · exact absurd (Option.some.inj hi').symm hsame
            · exact .inl (.inr (.inl hi'))
          · exact .inl (.inr (.inr (hrunning i hi hsame hold)))
      · exact .inr hjobs

/-- The process stops and starts again. -/
lemma oneShotsKept_restarted (h : OneShotsKept env events st)
    (hkeeps : ∀ jobId item, Marked env (loadJobs env st.file.jobs) jobId →
      lastRun events jobId = some item → Unfinished st item → item ∈ submittedRuns events) :
    OneShotsKept env (events ++ []) (restart env st) := by
  have hidle : ∀ phase ∈ (restart env st).workers, phase = .idle := by
    intro phase hphase
    obtain ⟨-, -, rfl⟩ := List.mem_map.mp hphase
    rfl
  have hsettled : ∀ jobId, Marked env (loadJobs env st.file.jobs) jobId →
      ∃ item, lastRun events jobId = some item ∧ Settled events item := by
    intro jobId hmarked
    obtain ⟨item, hlast, hold⟩ := h.saved jobId hmarked
    refine ⟨item, hlast, ?_⟩
    rcases hold with hold | hold
    · exact .inl (hkeeps jobId item hmarked hlast hold)
    · exact hold
  rw [List.append_nil]
  constructor
  case identified => exact identified_loadJobs env st.file.jobs
  case known =>
    rintro item (hitem | ⟨phase, hphase, hitem⟩)
    · simp [restart] at hitem
    · rw [hidle phase hphase] at hitem
      simp [WorkerPhase.item?] at hitem
  case pending => simp [restart]
  case handedOver =>
    rintro item startedAt (hphase | ⟨jobId, hphase⟩)
    · exact absurd (hidle _ hphase) (by simp)
    · exact absurd (hidle _ hphase) (by simp)
  case marked =>
    intro jobId hmarked
    obtain ⟨item, hlast, hsettled⟩ := hsettled jobId hmarked
    exact ⟨item, hlast, .inr (.inr hsettled)⟩
  case saved =>
    intro jobId hmarked
    obtain ⟨item, hlast, hsettled⟩ := hsettled jobId hmarked
    exact ⟨item, hlast, .inr hsettled⟩

/-- A worker that looks up its job either hands its run over or is going to end it otherwise. -/
lemma lookUp_phase (env : CronRuntime) (guardReason : Option String) (item : RunItem)
    (startedAt : String) (jobs : List (String × Job)) {phase' : WorkerPhase}
    {submission : Option Submission}
    (hlooked : lookUp env guardReason item startedAt jobs = (phase', submission)) :
    phase'.item? = some item ∧
      ((submission.isSome ∧ phase' = .submitting item startedAt) ∨
        ∃ outcome, phase' = .ending item startedAt outcome ∧ ∀ jobId, outcome ≠ .submitted jobId) := by
  unfold lookUp at hlooked
  dsimp only at hlooked
  split at hlooked
  · obtain ⟨rfl, -⟩ := Prod.mk.inj hlooked
    exact ⟨rfl, .inr ⟨_, rfl, fun _ => DispatchEnd.noConfusion⟩⟩
  · split at hlooked
    · obtain ⟨rfl, -⟩ := Prod.mk.inj hlooked
      exact ⟨rfl, .inr ⟨_, rfl, fun _ => DispatchEnd.noConfusion⟩⟩
    · split at hlooked
      · obtain ⟨rfl, -⟩ := Prod.mk.inj hlooked
        exact ⟨rfl, .inr ⟨_, rfl, fun _ => DispatchEnd.noConfusion⟩⟩
      · split at hlooked
        · obtain ⟨rfl, -⟩ := Prod.mk.inj hlooked
          exact ⟨rfl, .inr ⟨_, rfl, fun _ => DispatchEnd.noConfusion⟩⟩
        · obtain ⟨rfl, rfl⟩ := Prod.mk.inj hlooked
          exact ⟨rfl, .inl ⟨rfl, rfl⟩⟩

/-- One operation that loses no run of a marked job. -/
theorem oneShotsKept_step (h : OneShotsKept env events st) (hfresh : FreshRuns events)
    (hnames : op.2.NamesJobs) (hkeeps : op.2.KeepsOneShots env events st)
    {st' : SchedulerState} {happened : List RunEvent}
    (hstep : RunStep env policy st op st' happened)
    (hsaves : ∀ w item startedAt outcome, op.2 = .finish w none →
      st.workers[w]? = some (.ending item startedAt outcome) →
      st'.file.jobs = st'.store.jobs.map Prod.snd) :
    OneShotsKept env (events ++ happened) st' := by
  cases hstep with
  | idle =>
    rw [List.append_nil]
    exact h
  | stored cronOp file hcronOp hfile => exact oneShotsKept_stored h hnames hcronOp hfile
  | taken w item queue hphase hqueue => exact oneShotsKept_taken h hphase hqueue
  | started w item saveError file hphase hstart hfile =>
    refine oneShotsKept_started h hfresh hphase ?_ hfile
    split
    · exact .inl rfl
    · exact .inr rfl
  | looked w guardReason item startedAt hphase =>
    generalize hlooked : lookUp env guardReason item startedAt st.store.jobs = looked
    obtain ⟨phase', submission⟩ := looked
    obtain ⟨hcarries, hcases⟩ := lookUp_phase env guardReason item startedAt _ hlooked
    refine oneShotsKept_carried h hphase rfl hcarries (fun _ => WorkerPhase.noConfusion) ?_ ?_
    · cases submission <;> rfl
    · intro i startedAt' hi
      rw [submittedRuns_append]
      rcases hcases with ⟨hsome, rfl⟩ | ⟨outcome, rfl, hne⟩
      · obtain ⟨submission, rfl⟩ := Option.isSome_iff_exists.mp hsome
        rcases hi with hi | ⟨jobId, hi⟩
        · obtain ⟨rfl, -⟩ := WorkerPhase.submitting.inj hi
          exact List.mem_append_right _ List.mem_cons_self
        · exact WorkerPhase.noConfusion hi
      · rcases hi with hi | ⟨jobId, hi⟩
        · exact WorkerPhase.noConfusion hi
        · exact absurd (WorkerPhase.ending.inj hi).2.2 (hne jobId)
  | replied w item startedAt outcome hphase hne =>
    refine oneShotsKept_carried h hphase rfl rfl (fun _ => WorkerPhase.noConfusion) rfl ?_
    rintro i startedAt' (hi | ⟨jobId, hi⟩)
    · exact WorkerPhase.noConfusion hi
    · obtain ⟨rfl, rfl, -⟩ := WorkerPhase.ending.inj hi
      rw [submittedRuns_append]
      exact List.mem_append_left _
        (h.handedOver item startedAt (.inl (List.mem_of_getElem? hphase)))
  | finished w item startedAt outcome saveError file hphase hfinish hfile =>
    refine oneShotsKept_finished h hfresh hphase ?_ hfile ?_
    · rintro reason rfl hmarked
      rw [hfinish] at hkeeps
      exact hkeeps item startedAt reason hphase hmarked
    · rintro rfl
      exact hsaves w item startedAt outcome hfinish hphase
  | restarted hrestart =>
    rw [hrestart] at hkeeps
    exact oneShotsKept_restarted h hkeeps

/-- A last section that saves leaves the jobs of the store in the file. -/
lemma finish_saves (env : CronRuntime) (policy : Policy) (st : SchedulerState) (now : DateTime)
    {w : ℕ} {item : RunItem} {startedAt : String} {outcome : DispatchEnd}
    (hphase : st.workers[w]? = some (.ending item startedAt outcome)) :
    (autonomyCronScheduler env policy st (now, .finish w none)).1.file.jobs =
      (autonomyCronScheduler env policy st (now, .finish w none)).1.store.jobs.map Prod.snd := by
  unfold autonomyCronScheduler
  dsimp only [SchedulerOp.worker?]
  rw [hphase]
  rfl

/-- Whatever clients, ticks and workers do in whichever order, and wherever the process stops:
a one-shot job is marked as consumed only if its last run is pending or running, was submitted,
or ended with a recorded failure, as long as the process does not stop while the last run of a
job that the file marks is left unsubmitted, and no last run of a marked job is deferred. -/
theorem one_shots_kept (env : CronRuntime) (policy : Policy) (workers : ℕ)
    (ops : List (DateTime × SchedulerOp)) (hnames : ∀ op ∈ ops, op.2.NamesJobs)
    (hfresh : FreshRuns (eventsFrom env policy (.start workers) ops))
    (hkeeps : ∀ ops₁ op ops₂, ops = ops₁ ++ op :: ops₂ →
      op.2.KeepsOneShots env (eventsFrom env policy (.start workers) ops₁)
        ((autonomyCronScheduler env policy).after (.start workers) ops₁)) :
    ∀ jobId job, get? ((autonomyCronScheduler env policy).after (.start workers) ops).store.jobs
        jobId = some job → isOneShot env job = true → isConsumed env job = true →
      ∃ item, lastRun (eventsFrom env policy (.start workers) ops) jobId = some item ∧
        Kept (eventsFrom env policy (.start workers) ops)
          ((autonomyCronScheduler env policy).after (.start workers) ops) item := by
  suffices hkept : OneShotsKept env (eventsFrom env policy (.start workers) ops)
      ((autonomyCronScheduler env policy).after (.start workers) ops) from
    fun jobId job hjob _ hconsumed => hkept.marked jobId ⟨job, hjob, hconsumed⟩
  -- by induction on the run, its last operation taken off
  induction ops using List.reverseRecOn with
  | nil => exact oneShotsKept_start env workers
  | append_singleton ops op ih =>
    rw [eventsFrom_append] at hfresh
    have hbefore := ih (fun o ho => hnames o (List.mem_append_left _ ho)) hfresh.of_append
      fun ops₁ o ops₂ heq => hkeeps ops₁ o (ops₂ ++ [op]) (by simp [heq])
    have hstep := oneShotsKept_step hbefore hfresh.of_append
      (hnames op (List.mem_append_right _ List.mem_cons_self)) (hkeeps ops op [] rfl)
      (runStep env policy _ op) fun w item startedAt outcome hop hphase => by
        obtain ⟨now, op⟩ := op
        obtain rfl := hop
        exact finish_saves env policy _ now hphase
    rw [eventsFrom_append, System.after_append, eventsFrom_cons]
    simpa [eventsFrom] using hstep

/-- The decompositions of a run at its operations. -/
lemma forall_decompositions {α : Type} {P : List α → α → Prop} {o : α} {os : List α}
    (hhead : P [] o) (htail : ∀ os₁ o' os₂, os = os₁ ++ o' :: os₂ → P (o :: os₁) o') :
    ∀ os₁ o' os₂, o :: os = os₁ ++ o' :: os₂ → P os₁ o' := by
  rintro (_ | ⟨o₁, os₁⟩) o' os₂ heq
  · obtain ⟨rfl, -⟩ := List.cons.inj heq
    exact hhead
  · obtain ⟨rfl, hrest⟩ := List.cons.inj heq
    exact htail os₁ o' os₂ hrest

/-- No run is in the queue, in a worker's hands or running. -/
lemma not_unfinished {st : SchedulerState} (hqueue : st.store.queue.map RunItem.runId = [])
    (hworkers : st.workers.all fun phase => phase.item?.isNone)
    (hrunning : keys st.store.running = []) (item : RunItem) : ¬ Unfinished st item := by
  rintro (hitem | ⟨phase, hphase, hitem⟩ | hitem)
  · simp [List.map_eq_nil_iff.mp hqueue] at hitem
  · have hnone := List.all_eq_true.mp hworkers phase hphase
    simp [hitem] at hnone
  · have hmem := mem_keys_iff.mpr (Option.isSome_iff_exists.mpr ⟨item, hitem⟩)
    simp [hrunning] at hmem

/-- The time of `oneShotPayload`. -/
def newYear : DateTime := ⟨2030, 1, 1, 0, 0, 0, 0, by decide⟩

/-- A one-shot job is created, and becomes due. -/
def dueRun : List (DateTime × SchedulerOp) :=
  [(noon, .call none (.create "job" (oneShotPayload ""))), (newYear, .tick none fun _ => "run")]

/-- The run is submitted, and then the process is restarted. -/
def submittedRun : List (DateTime × SchedulerOp) :=
  dueRun ++ [(newYear, .take 0), (newYear, .start 0 none), (newYear, .look 0 none),
    (newYear, .reply 0 (.ok "loop")), (newYear, .finish 0 none), (newYear, .restart)]

/-- The dispatch has submitted its job. -/
def DispatchEnd.isSubmitted : DispatchEnd → Bool
  | .submitted _ => true
  | _ => false

/-- The dispatch has failed. -/
def DispatchEnd.isFailed : DispatchEnd → Bool
  | .failed _ => true
  | _ => false

/-- The worker is at the end of a dispatch that has submitted its job. -/
def WorkerPhase.hasSubmitted : WorkerPhase → Bool
  | .ending _ _ outcome => outcome.isSubmitted
  | _ => false

theorem one_shots_kept_submittedRun :
    ∃ job, get? ((autonomyCronScheduler .ascii .default).after (.start 1) submittedRun).store.jobs
        "job" = some job ∧ isOneShot .ascii job = true ∧ isConsumed .ascii job = true ∧
      ∃ item, lastRun (eventsFrom .ascii .default (.start 1) submittedRun) "job" = some item ∧
        Kept (eventsFrom .ascii .default (.start 1) submittedRun)
          ((autonomyCronScheduler .ascii .default).after (.start 1) submittedRun) item := by
  -- one evaluation of the run for all that is read off it
  have hvalues : (get? ((autonomyCronScheduler .ascii .default).after (.start 1)
      submittedRun).store.jobs "job").map (fun job => isOneShot .ascii job && isConsumed .ascii job) =
        some true ∧
      (enqueuedRuns (eventsFrom .ascii .default (.start 1) submittedRun)).map RunItem.runId =
        ["run"] ∧
      ((autonomyCronScheduler .ascii .default).after (.start 1)
        (submittedRun.take 6)).workers[0]?.map WorkerPhase.hasSubmitted = some true ∧
      ((autonomyCronScheduler .ascii .default).after (.start 1)
        (submittedRun.take 7)).store.queue.map RunItem.runId = [] ∧
      ((autonomyCronScheduler .ascii .default).after (.start 1)
        (submittedRun.take 7)).workers.all (fun phase => phase.item?.isNone) ∧
      keys ((autonomyCronScheduler .ascii .default).after (.start 1)
        (submittedRun.take 7)).store.running = [] := by decide +kernel
  obtain ⟨hjob, hids, hended, hqueue, hworkers, hrunning⟩ := hvalues
  obtain ⟨job, hjob, hconsumed⟩ := Option.map_eq_some_iff.mp hjob
  obtain ⟨hone, hconsumed⟩ := Bool.and_eq_true_iff.mp hconsumed
  have hnames : ∀ op ∈ submittedRun, op.2.NamesJobs := by
    intro op hop jobId hcreates
    obtain ⟨saveError, payload, hcreates⟩ := hcreates
    have hid : jobId = "job" := by
      simp only [submittedRun, dueRun, List.cons_append, List.nil_append, List.mem_cons,
        List.not_mem_nil, or_false] at hop
      rcases hop with rfl | rfl | rfl | rfl | rfl | rfl | rfl | rfl
      · exact (ClientCall.create.inj (SchedulerOp.call.inj hcreates).2).1.symm
      all_goals exact SchedulerOp.noConfusion hcreates
    subst hid
    decide
  have hfresh : FreshRuns (eventsFrom .ascii .default (.start 1) submittedRun) := by
    unfold FreshRuns
    rw [hids]
    decide
  refine ⟨job, hjob, hone, hconsumed, one_shots_kept .ascii .default 1 submittedRun hnames hfresh ?_
    "job" job hjob hone hconsumed⟩
  -- only the last section and the restart have something to lose
  refine forall_decompositions trivial (forall_decompositions trivial
    (forall_decompositions trivial (forall_decompositions trivial (forall_decompositions trivial
      (forall_decompositions trivial (forall_decompositions ?_ (forall_decompositions ?_ ?_)))))))
  · intro item startedAt reason hphase
    have hphase : ((autonomyCronScheduler .ascii .default).after (.start 1)
        (submittedRun.take 6)).workers[0]? = some (.ending item startedAt (.deferred reason)) :=
      hphase
    rw [hphase] at hended
    simp [WorkerPhase.hasSubmitted, DispatchEnd.isSubmitted] at hended
  · intro jobId item _ _ hunfinished
    exact absurd hunfinished (not_unfinished hqueue hworkers hrunning item)
  · rintro ops₁ op ops₂ hnil
    simp at hnil

/-- The process stops after the run has been put into the queue. -/
def lostRun : List (DateTime × SchedulerOp) := dueRun ++ [(newYear, .restart)]

/-- The hardware guard defers the run. -/
def putOffRun : List (DateTime × SchedulerOp) :=
  dueRun ++ [(newYear, .take 0), (newYear, .start 0 none), (newYear, .look 0 (some "busy")),
    (newYear, .finish 0 none)]

/-- Nothing is left of the run, and it was neither submitted nor has it failed. -/
lemma not_kept {events : List RunEvent} {st : SchedulerState}
    (hpending : st.store.pending.map RunItem.runId = []) (hrunning : keys st.store.running = [])
    (hsubmitted : (submittedRuns events).map RunItem.runId = [])
    (hfailed : (recordedEntries events).all fun entry => !entry.outcome.isFailed)
    (item : RunItem) : ¬ Kept events st item := by
  rintro (hitem | hitem | hitem | ⟨entry, hentry, -, error, hitem⟩)
  · simp [List.map_eq_nil_iff.mp hpending] at hitem
  · have hmem := mem_keys_iff.mpr (Option.isSome_iff_exists.mpr ⟨item, hitem⟩)
    simp [hrunning] at hmem
  · simp [List.map_eq_nil_iff.mp hsubmitted] at hitem
  · have hall := List.all_eq_true.mp hfailed entry hentry
    rw [hitem] at hall
    simp [DispatchEnd.isFailed] at hall

/-- In the run the job is marked as consumed and no run of it is kept. -/
def LosesJob (ops : List (DateTime × SchedulerOp)) : Prop :=
  ∃ job, get? ((autonomyCronScheduler .ascii .default).after (.start 1) ops).store.jobs "job" =
      some job ∧ isOneShot .ascii job = true ∧ isConsumed .ascii job = true ∧
    ¬ ∃ item, lastRun (eventsFrom .ascii .default (.start 1) ops) "job" = some item ∧
      Kept (eventsFrom .ascii .default (.start 1) ops)
        ((autonomyCronScheduler .ascii .default).after (.start 1) ops) item

private lemma losesJob : ∀ ops ∈ [lostRun, putOffRun], LosesJob ops := by
  have hvalues : ∀ ops ∈ [lostRun, putOffRun],
      (get? ((autonomyCronScheduler .ascii .default).after (.start 1) ops).store.jobs "job").map
        (fun job => isOneShot .ascii job && isConsumed .ascii job) = some true ∧
      ((autonomyCronScheduler .ascii .default).after (.start 1) ops).store.pending.map
        RunItem.runId = [] ∧
      keys ((autonomyCronScheduler .ascii .default).after (.start 1) ops).store.running = [] ∧
      (submittedRuns (eventsFrom .ascii .default (.start 1) ops)).map RunItem.runId = [] ∧
      (recordedEntries (eventsFrom .ascii .default (.start 1) ops)).all fun entry =>
        !entry.outcome.isFailed := by decide +kernel
  intro ops hops
  obtain ⟨hjob, hpending, hrunning, hsubmitted, hfailed⟩ := hvalues ops hops
  obtain ⟨job, hjob, hconsumed⟩ := Option.map_eq_some_iff.mp hjob
  obtain ⟨hone, hconsumed⟩ := Bool.and_eq_true_iff.mp hconsumed
  refine ⟨job, hjob, hone, hconsumed, ?_⟩
  rintro ⟨item, -, hkept⟩
  exact not_kept hpending hrunning hsubmitted hfailed item hkept

/-- A due one-shot job whose run is lost with the queue, or is deferred, is marked as consumed
and is not run. -/
theorem one_shot_lost : LosesJob lostRun ∧ LosesJob putOffRun :=
  ⟨losesJob lostRun (by simp), losesJob putOffRun (by simp)⟩

end Trion.Cron
