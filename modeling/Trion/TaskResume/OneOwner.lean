import Trion.Library.Leases
import Trion.TaskResume.RecordCases

/-!
# A waiting task has one owner and is not lost

A task of the store is a lease: it is offered while its record is waiting, a claim takes it in
the version that the claim writes, and a finalization with that version returns it, to wait
again or for good.  Over every run of the store the log of each task is well kept.  So each
waiting of a task is left by one claim or one cancellation, only the version of the last claim
finalizes, at most once, and a task that is cancelled or finalized for good stays as it is.

A file that cannot be read counts as an empty store, and a registration drops the oldest
records over the limit.  In a run in which every read succeeds and no registration reaches its
limit neither happens: each call leaves every record but the one it names, and each task that
was registered is still there as its last note says, so a finalization with the version of the
last claim finds it.
-/

namespace Trion.TaskResume

open Trion.Python Trion.Thinking Trion.TaskLoop OrderedDict OperationRun Lease

variable {rt : PyRuntime}

/-! ### The log -/

/-- The version that a record shows. -/
def versionOf (task : PyDict) : String :=
  match PyDict.get task "updated_at" with
  | .str version => version
  | _ => ""

/-- What an answered call has done to the task it names: nothing if it raised or answered
nothing. -/
def StoreEvent.note (event : StoreEvent) : Option (Note String) :=
  match event.call.op, event.reply with
  | .register _, .registered _ => some .opened
  | .claim _ _, .record (some task) => some (.taken (versionOf task))
  | .cancel _, .record (some _) => some .withdrawn
  | .finalizeResult _ result version, .record (some _) =>
    some (.returned version (result.state = .waiting))
  | .finalizeFailure _ version, .record (some _) => some (.returned version false)
  | _, _ => none

/-- The log of the tasks. -/
def taskLog (events : List StoreEvent) : List (String × Note String) :=
  events.filterMap fun event => event.note.map (event.call.op.key, ·)

/-- The identifier of the task that a call registers. -/
def StoreCall.newTask? (call : StoreCall) : Option String :=
  match call.op with
  | .register r => some r.taskId
  | _ => none

/-- The time of a claim. -/
def StoreCall.claimTime? (call : StoreCall) : Option String :=
  match call.op with
  | .claim _ _ => some call.env.now
  | _ => none

/-- The loop has not left the task executing. -/
def StoreOp.Settled : StoreOp → Prop
  | .finalizeResult _ result _ => result.state ≠ .executing
  | _ => True

/-! ### What a record shows -/

/-- A record that stands as the last note about it says. -/
def Shows (task : PyDict) : Note String → Prop
  | .opened => PyDict.get task "status" = .str TaskLoopState.waiting.value
  | .taken version => PyDict.get task "status" = .str TaskLoopState.executing.value ∧
    PyDict.get task "updated_at" = .str version
  | .returned _ again => ∃ state : TaskLoopState, PyDict.get task "status" = .str state.value ∧
    state ≠ .executing ∧ (state = .waiting ↔ again = true)
  | .withdrawn => PyDict.get task "status" = .str TaskLoopState.cancelled.value

/-- The log of a task is well kept, and its record, if it is still there, shows the last note. -/
structure Accounted (log : List (String × Note String)) (file : StoreFile) (key : String) :
    Prop where
  kept : WellKept (notesOf log key)
  shows : ∀ v, file.recordAt key = some v →
    ∃ task note, v = .dict task ∧ (notesOf log key).getLast? = some note ∧ Shows task note

variable {log : List (String × Note String)} {file file' : StoreFile} {key : String}
  {task loaded stored : PyDict} {note : Note String} {call : StoreCall}

lemma state_value_injective {s t : TaskLoopState} (h : s.value = t.value) : s = t := by
  cases s <;> cases t <;> first | rfl | exact absurd h (by decide)

/-- A waiting record is offered. -/
lemma offers_of_isWaiting (hshows : Shows task note) (h : isWaiting rt task = true) :
    note.Offers := by
  cases note with
  | opened => trivial
  | taken version => exact absurd ((isWaiting_iff hshows.1).mp h) (by decide)
  | returned version again =>
    obtain ⟨state, hstatus, -, hagain⟩ := hshows
    exact hagain.mp (state_value_injective ((isWaiting_iff hstatus).mp h))
  | withdrawn => exact absurd ((isWaiting_iff hshows).mp h) (by decide)

/-- A record that is claimed in a version was taken in that version. -/
lemma taken_of_isClaimed {version : String} (hshows : Shows task note)
    (h : isClaimed task version = true) : note = .taken version := by
  obtain ⟨hstatus, hversion⟩ := isClaimed_iff.mp h
  have hexecuting := eq_of_pyEq_str hstatus
  cases note with
  | opened => exact absurd (PyVal.str.inj (hshows.symm.trans hexecuting)) (by decide)
  | taken v =>
    have hv := hshows.2.symm.trans (eq_of_pyEq_str hversion)
    rw [PyVal.str.inj hv]
  | returned v again =>
    obtain ⟨state, hstate, hne, -⟩ := hshows
    exact absurd (state_value_injective (PyVal.str.inj (hstate.symm.trans hexecuting))) hne
  | withdrawn => exact absurd (PyVal.str.inj (hshows.symm.trans hexecuting)) (by decide)

/-! ### One step -/

/-- A record that stays or goes, and of which the new entries of the log say nothing. -/
lemma Accounted.unchanged {new : List (String × Note String)} (h : Accounted log file key)
    (hnew : notesOf new key = [])
    (hfile : file'.recordAt key = none ∨ file'.recordAt key = file.recordAt key) :
    Accounted (log ++ new) file' key := by
  have hnotes : notesOf (log ++ new) key = notesOf log key := by
    rw [notesOf_append, hnew, List.append_nil]
  refine ⟨hnotes ▸ h.kept, fun v hv => ?_⟩
  rw [hnotes]
  rcases hfile with hnone | hsame
  · rw [hnone] at hv
    cases hv
  · exact h.shows v (hsame ▸ hv)

lemma notesOf_singleton_of_ne {key' : String} (hne : key ≠ key') :
    notesOf [(key', note)] key = [] := by
  unfold notesOf
  simp [hne.symm]

lemma notesOf_singleton : notesOf [(key, note)] key = [note] := by
  unfold notesOf
  simp

/-- The record of the task is rewritten as a note that may follow says. -/
lemma Accounted.rewritten {key' : String} (h : ∀ key, Accounted log file key)
    (hrewrites : Rewrites file file' key' loaded stored)
    (hfollows : ∀ last, Shows loaded last → Follows last note) (hstored : Shows stored note)
    (key : String) : Accounted (log ++ [(key', note)]) file' key := by
  by_cases hkey : key = key'
  · subst hkey
    obtain ⟨task, last, htask, hlast, hshows⟩ := (h key).shows _ hrewrites.found
    obtain rfl := PyVal.dict.inj htask
    have hnotes : notesOf (log ++ [(key, note)]) key = notesOf log key ++ [note] := by
      rw [notesOf_append, notesOf_singleton]
    refine ⟨hnotes ▸ (h key).kept.append hlast (hfollows last hshows), fun v hv => ?_⟩
    obtain rfl := Option.some.inj (hrewrites.written.symm.trans hv)
    exact ⟨stored, note, rfl, by rw [hnotes, List.getLast?_concat], hstored⟩
  · exact (h key).unchanged (notesOf_singleton_of_ne hkey) (.inr (hrewrites.others key hkey))

/-- The log of one event. -/
def entriesOf (call : StoreCall) (reply : StoreReply) : List (String × Note String) :=
  taskLog [⟨call, reply⟩]

/-- What an operation on a record may do: nothing, or rewrite the record that it names. -/
def RecordStep (file : StoreFile) (call : StoreCall) (reply : RecordReply) : Prop :=
  (∀ e, entriesOf call (.raised e) = []) ∧
    ∀ answer file', reply = .ok (answer, file') →
      (file' = file ∧ entriesOf call (.record answer) = []) ∨
      ∃ note loaded stored, entriesOf call (.record answer) = [(call.op.key, note)] ∧
        Rewrites file file' call.op.key loaded stored ∧
        (∀ last, Shows loaded last → Follows last note) ∧ Shows stored note

lemma RecordStep.accounted {reply : RecordReply} (hstep : RecordStep file call reply)
    (h : ∀ key, Accounted log file key) (key : String) :
    Accounted (log ++ entriesOf call (afterRecord file reply).2) (afterRecord file reply).1 key := by
  cases reply with
  | error e =>
    exact (h key).unchanged (by rw [afterRecord, hstep.1 e, notesOf_nil]) (.inr rfl)
  | ok answered =>
    obtain ⟨answer, file'⟩ := answered
    rcases hstep.2 answer file' rfl with
      ⟨rfl, hnone⟩ | ⟨note, loaded, stored, hnote, hrewrites, hfollows, hstored⟩
    · exact (h key).unchanged (by rw [afterRecord, hnone, notesOf_nil]) (.inr rfl)
    · rw [afterRecord, hnote]
      exact Accounted.rewritten h hrewrites hfollows hstored key

/-- A record of which the answer says nothing stays. -/
lemma RecordStep.untouched {reply : RecordReply} (hstep : RecordStep file call reply)
    (hnone : notesOf (entriesOf call (afterRecord file reply).2) key = []) :
    (afterRecord file reply).1.recordAt key = file.recordAt key := by
  cases reply with
  | error e => rfl
  | ok answered =>
    obtain ⟨answer, file'⟩ := answered
    rcases hstep.2 answer file' rfl with ⟨rfl, -⟩ | ⟨note, loaded, stored, hnote, hrewrites, -, -⟩
    · rfl
    · refine hrewrites.others key ?_
      rintro rfl
      rw [afterRecord, hnote, notesOf_singleton] at hnone
      cases hnone

lemma recordStep_claim {taskId : String} {expected : Option String} (env : StoreEnv) :
    RecordStep file ⟨env, .claim taskId expected⟩
      (claimWaitingTask rt env taskId expected file) := by
  refine ⟨fun e => rfl, fun answer file' hreply => ?_⟩
  rcases claimWaitingTask_spec hreply with
    ⟨rfl, rfl⟩ | ⟨task, loaded, stored, rfl, hversion, hrewrites, hwaiting, hstored⟩
  · exact .inl ⟨rfl, rfl⟩
  · refine .inr ⟨.taken (versionOf task), loaded, stored, rfl, hrewrites, fun last hlast => ?_, ?_⟩
    · exact .take (offers_of_isWaiting hlast hwaiting)
    · have hnow : versionOf task = env.now := by rw [versionOf, hversion]
      rw [hnow]
      exact hstored

lemma recordStep_cancel {taskId : String} (env : StoreEnv) :
    RecordStep file ⟨env, .cancel taskId⟩ (cancelWaitingTask rt env taskId file) := by
  refine ⟨fun e => rfl, fun answer file' hreply => ?_⟩
  rcases cancelWaitingTask_spec hreply with
    ⟨rfl, rfl⟩ | ⟨task, loaded, stored, rfl, hrewrites, hwaiting, hstored⟩
  · exact .inl ⟨rfl, rfl⟩
  · exact .inr ⟨.withdrawn, loaded, stored, rfl, hrewrites,
      fun last hlast => .withdraw (offers_of_isWaiting hlast hwaiting), hstored⟩

lemma recordStep_finalizeResult {taskId version : String} {result : TaskLoopResult}
    (env : StoreEnv) (hsettled : result.state ≠ .executing) :
    RecordStep file ⟨env, .finalizeResult taskId result version⟩
      (finalizeClaimedTask env taskId result version file) := by
  refine ⟨fun e => rfl, fun answer file' hreply => ?_⟩
  rcases finalizeClaimedTask_spec hreply with
    ⟨rfl, rfl⟩ | ⟨task, loaded, stored, rfl, hrewrites, hclaimed, hstored⟩
  · exact .inl ⟨rfl, rfl⟩
  · refine .inr ⟨.returned version (result.state = .waiting), loaded, stored, rfl, hrewrites,
      fun last hlast => ?_, result.state, hstored, hsettled, (decide_eq_true_iff).symm⟩
    rw [taken_of_isClaimed hlast hclaimed]
    exact .giveBack

lemma recordStep_finalizeFailure {taskId version : String} (env : StoreEnv) :
    RecordStep file ⟨env, .finalizeFailure taskId version⟩
      (finalizeClaimedFailure env taskId version file) := by
  refine ⟨fun e => rfl, fun answer file' hreply => ?_⟩
  rcases finalizeClaimedFailure_spec hreply with
    ⟨rfl, rfl⟩ | ⟨task, loaded, stored, rfl, hrewrites, hclaimed, hstored⟩
  · exact .inl ⟨rfl, rfl⟩
  · refine .inr ⟨.returned version false, loaded, stored, rfl, hrewrites, fun last hlast => ?_,
      .blocked, hstored, by decide, by decide⟩
    rw [taken_of_isClaimed hlast hclaimed]
    exact .giveBack

/-- Every call but a registration is an operation on a record. -/
lemma exists_recordStep (rt : PyRuntime) (file : StoreFile) {call : StoreCall}
    (hsettled : call.op.Settled) (hop : ∀ r, call.op ≠ .register r) :
    ∃ reply, runOp rt file call = afterRecord file reply ∧ RecordStep file call reply := by
  obtain ⟨env, op⟩ := call
  cases op with
  | register r => exact absurd rfl (hop r)
  | claim taskId expected => exact ⟨_, rfl, recordStep_claim env⟩
  | cancel taskId => exact ⟨_, rfl, recordStep_cancel env⟩
  | finalizeResult taskId result version =>
    exact ⟨_, rfl, recordStep_finalizeResult env hsettled⟩
  | finalizeFailure taskId version => exact ⟨_, rfl, recordStep_finalizeFailure env⟩

lemma accounted_registered {env : StoreEnv} {r : Registration}
    (h : ∀ key, Accounted log file key) (hfresh : notesOf log r.taskId = [])
    (hregister : registerWaitingTask rt env r file = .ok file') (key : String) :
    Accounted (log ++ [(r.taskId, .opened)]) file' key := by
  by_cases hkey : key = r.taskId
  · subst hkey
    have hnotes : notesOf (log ++ [(r.taskId, .opened)]) r.taskId = [.opened] := by
      rw [notesOf_append, hfresh, notesOf_singleton, List.nil_append]
    refine ⟨hnotes ▸ wellKept_opened, fun v hv => ?_⟩
    rcases recordAt_registered hregister with hnone | ⟨stored, hsome, hstatus⟩
    · rw [hnone] at hv
      cases hv
    · obtain rfl := Option.some.inj (hsome.symm.trans hv)
      exact ⟨stored, .opened, rfl, by rw [hnotes]; rfl, hstatus⟩
  · exact (h key).unchanged (notesOf_singleton_of_ne hkey) (recordAt_others hregister hkey)

/-- Every call keeps the accounts, if a new task has a new identifier and no continuation ends
executing. -/
theorem accounted_step (h : ∀ key, Accounted log file key) (hsettled : call.op.Settled)
    (hfresh : ∀ id ∈ call.newTask?, notesOf log id = []) (key : String) :
    Accounted (log ++ taskLog [(taskStore rt file call).2]) (taskStore rt file call).1 key := by
  obtain ⟨env, op⟩ := call
  change Accounted (log ++ entriesOf ⟨env, op⟩ (runOp rt file ⟨env, op⟩).2)
    (runOp rt file ⟨env, op⟩).1 key
  cases op with
  | register r =>
    unfold runOp
    dsimp only
    split
    · rename_i file' hregister
      exact accounted_registered h (hfresh _ rfl) hregister key
    · exact (h key).unchanged rfl (.inr rfl)
  | _ =>
    obtain ⟨reply, heq, hstep⟩ := exists_recordStep rt file hsettled fun _ => StoreOp.noConfusion
    rw [heq]
    exact hstep.accounted h key

/-- A record of which the call's entry says nothing stays or is dropped. -/
theorem untouched_step (hsettled : call.op.Settled)
    (hnone : notesOf (taskLog [(taskStore rt file call).2]) key = []) :
    (taskStore rt file call).1.recordAt key = none ∨
      (taskStore rt file call).1.recordAt key = file.recordAt key := by
  obtain ⟨env, op⟩ := call
  change notesOf (entriesOf ⟨env, op⟩ (runOp rt file ⟨env, op⟩).2) key = [] at hnone
  change (runOp rt file ⟨env, op⟩).1.recordAt key = none ∨
    (runOp rt file ⟨env, op⟩).1.recordAt key = file.recordAt key
  cases op with
  | register r =>
    unfold runOp at hnone ⊢
    dsimp only at hnone ⊢
    cases hregister : registerWaitingTask rt env r file with
    | error e => exact .inr rfl
    | ok file' =>
      rw [hregister] at hnone
      refine recordAt_others hregister ?_
      rintro rfl
      rw [show entriesOf ⟨env, .register r⟩ (.registered r.taskId) = [(r.taskId, .opened)] from rfl,
        notesOf_singleton] at hnone
      cases hnone
  | _ =>
    obtain ⟨reply, heq, hstep⟩ := exists_recordStep rt file hsettled fun _ => StoreOp.noConfusion
    rw [heq] at hnone ⊢
    exact .inr (hstep.untouched hnone)

/-! ### Runs -/

/-- The store after calls, from no file on. -/
def storeAfter (rt : PyRuntime) (calls : List StoreCall) : StoreFile :=
  (taskStore rt).after .absent calls

/-- The answered calls, from no file on. -/
def storeEvents (rt : PyRuntime) (calls : List StoreCall) : List StoreEvent :=
  (taskStore rt).answers .absent calls

variable {calls : List StoreCall}

lemma storeAfter_concat (calls : List StoreCall) (call : StoreCall) :
    storeAfter rt (calls ++ [call]) = (taskStore rt (storeAfter rt calls) call).1 :=
  System.after_append

lemma taskLog_concat (calls : List StoreCall) (call : StoreCall) :
    taskLog (storeEvents rt (calls ++ [call])) = taskLog (storeEvents rt calls) ++
      taskLog [(taskStore rt (storeAfter rt calls) call).2] := by
  have hevents : storeEvents rt (calls ++ [call]) =
      storeEvents rt calls ++ [(taskStore rt (storeAfter rt calls) call).2] :=
    System.answers_append
  rw [hevents, taskLog, List.filterMap_append]
  rfl

lemma call_of_mem_taskLog {entry : String × Note String}
    (h : entry ∈ taskLog (storeEvents rt calls)) : ∃ event : StoreEvent, event.call ∈ calls ∧
      event.call.op.key = entry.1 ∧ event.note = some entry.2 := by
  induction calls using List.reverseRecOn with
  | nil => cases h
  | append_singleton calls call ih =>
    rw [taskLog_concat, List.mem_append] at h
    rcases h with hold | hnew
    · obtain ⟨event, hcall, hkey, hnote⟩ := ih hold
      exact ⟨event, List.mem_append_left _ hcall, hkey, hnote⟩
    · obtain ⟨event, hevent, hentry⟩ := List.mem_filterMap.mp hnew
      obtain rfl := List.mem_singleton.mp hevent
      obtain ⟨note, hnote, rfl⟩ := Option.map_eq_some_iff.mp hentry
      exact ⟨_, List.mem_append_right _ List.mem_cons_self, rfl, hnote⟩

/-- Only a registration offers a task. -/
lemma newTask_of_opened {event : StoreEvent} (h : event.note = some .opened) :
    event.call.newTask? = some event.call.op.key := by
  obtain ⟨⟨env, op⟩, reply⟩ := event
  cases op with
  | register r => rfl
  | _ => cases reply <;> first | cases h | (rename_i answer; cases answer <;> cases h)

/-- Nothing is said about a task that was not registered. -/
lemma notesOf_eq_nil {id : String} (h : ∀ key, Accounted (taskLog (storeEvents rt calls)) file key)
    (hnew : id ∉ calls.filterMap StoreCall.newTask?) :
    notesOf (taskLog (storeEvents rt calls)) id = [] := by
  by_contra hne
  obtain ⟨event, hcall, hkey, hnote⟩ :=
    call_of_mem_taskLog (mem_notesOf.mp ((h id).kept.opened_mem hne))
  refine hnew (List.mem_filterMap.mpr ⟨event.call, hcall, ?_⟩)
  rw [newTask_of_opened hnote, hkey]

variable (rt) in
/-- The accounts are kept over every run. -/
theorem accounted_run (hids : (calls.filterMap StoreCall.newTask?).Nodup)
    (hsettled : ∀ call ∈ calls, call.op.Settled) (key : String) :
    Accounted (taskLog (storeEvents rt calls)) (storeAfter rt calls) key := by
  induction calls using List.reverseRecOn generalizing key with
  | nil => exact ⟨wellKept_nil, fun v hv => by cases hv⟩
  | append_singleton calls call ih =>
    rw [List.filterMap_append, List.nodup_append] at hids
    have hrest := ih hids.1 fun c hc => hsettled c (List.mem_append_left _ hc)
    rw [taskLog_concat, storeAfter_concat]
    refine accounted_step hrest (hsettled call (List.mem_append_right _ List.mem_cons_self))
      (fun id hid => notesOf_eq_nil hrest fun hmem => ?_) key
    exact hids.2.2 id hmem id (List.mem_filterMap.mpr ⟨call, List.mem_cons_self, hid⟩) rfl

/-! ### Versions -/

/-- The version that a claim answers is the time at which it was made. -/
lemma claimTime_of_taken {version : String}
    (h : (taskStore rt file call).2.note = some (.taken version)) :
    call.claimTime? = some version := by
  obtain ⟨env, op⟩ := call
  change StoreEvent.note ⟨⟨env, op⟩, (runOp rt file ⟨env, op⟩).2⟩ = _ at h
  generalize hreply : (runOp rt file ⟨env, op⟩).2 = reply at h
  cases op with
  | claim taskId expected =>
    change (afterRecord file (claimWaitingTask rt env taskId expected file)).2 = reply at hreply
    cases hclaim : claimWaitingTask rt env taskId expected file with
    | error e =>
      rw [hclaim] at hreply
      obtain rfl : StoreReply.raised e = reply := hreply
      cases h
    | ok answered =>
      obtain ⟨answer, file'⟩ := answered
      rw [hclaim] at hreply
      obtain rfl : StoreReply.record answer = reply := hreply
      rcases claimWaitingTask_spec hclaim with
        ⟨rfl, -⟩ | ⟨task, loaded, stored, rfl, hversion, -⟩
      · cases h
      · have hnow : versionOf task = env.now := by rw [versionOf, hversion]
        obtain rfl := Note.taken.inj (Option.some.inj h)
        exact congrArg some hnow.symm
  | register r => cases reply <;> cases h
  | _ => cases reply <;> first | cases h | (rename_i answer; cases answer <;> cases h)

lemma takings_append (log log' : List (String × Note String)) :
    takings (log ++ log') = takings log ++ takings log' :=
  List.filterMap_append

/-- The versions in the log are times of claims. -/
lemma takings_sublist (rt : PyRuntime) (calls : List StoreCall) :
    ((takings (taskLog (storeEvents rt calls))).map Prod.snd).Sublist
      (calls.filterMap StoreCall.claimTime?) := by
  induction calls using List.reverseRecOn with
  | nil => exact .slnil
  | append_singleton calls call ih =>
    rw [taskLog_concat, takings_append, List.map_append, List.filterMap_append]
    refine ih.append ?_
    generalize hevent : (taskStore rt (storeAfter rt calls) call).2 = event
    cases hnote : event.note with
    | none => simp [taskLog, hnote, takings]
    | some note =>
      cases note with
      | taken version =>
        rw [← hevent] at hnote
        simp [taskLog, ← hevent, hnote, takings, Note.taken?, claimTime_of_taken hnote]
      | _ => simp [taskLog, hnote, takings, Note.taken?]

/-! ### Owners -/

/-- The task was cancelled or finalized for good. -/
def Over (rt : PyRuntime) (calls : List StoreCall) (key : String) : Prop :=
  ∃ note, (notesOf (taskLog (storeEvents rt calls)) key).getLast? = some note ∧ note.Ends

lemma Over.concat (hids : ((calls ++ [call]).filterMap StoreCall.newTask?).Nodup)
    (hsettled : ∀ c ∈ calls ++ [call], c.op.Settled) (h : Over rt calls key) :
    Over rt (calls ++ [call]) key ∧
      ((storeAfter rt (calls ++ [call])).recordAt key = none ∨
        (storeAfter rt (calls ++ [call])).recordAt key = (storeAfter rt calls).recordAt key) := by
  obtain ⟨note, hlast, hends⟩ := h
  have hkept := (accounted_run rt hids hsettled key).kept
  rw [taskLog_concat, notesOf_append] at hkept
  obtain ⟨front, hfront⟩ : ∃ front, notesOf (taskLog (storeEvents rt calls)) key =
      front ++ [note] :=
    ⟨_, (List.dropLast_append_getLast? note hlast).symm⟩
  -- the notes that the call adds come after the last one
  have hnone : notesOf (taskLog [(taskStore rt (storeAfter rt calls) call).2]) key = [] := by
    rw [hfront, List.append_assoc, List.singleton_append] at hkept
    exact hkept.nothing_after hends
  refine ⟨⟨note, ?_, hends⟩, ?_⟩
  · rw [taskLog_concat, notesOf_append, hnone, List.append_nil, hlast]
  · rw [storeAfter_concat]
    exact untouched_step (hsettled call (List.mem_append_right _ List.mem_cons_self)) hnone

/-- What is over stays over, and its record stays as it is until it is dropped. -/
lemma Over.append {later : List StoreCall}
    (hids : ((calls ++ later).filterMap StoreCall.newTask?).Nodup)
    (hsettled : ∀ c ∈ calls ++ later, c.op.Settled) (h : Over rt calls key) :
    Over rt (calls ++ later) key ∧
      ((storeAfter rt (calls ++ later)).recordAt key = none ∨
        (storeAfter rt (calls ++ later)).recordAt key = (storeAfter rt calls).recordAt key) := by
  induction later using List.reverseRecOn with
  | nil => exact ⟨by rwa [List.append_nil], .inr (by rw [List.append_nil])⟩
  | append_singleton later call ih =>
    rw [← List.append_assoc] at hids hsettled ⊢
    rw [List.filterMap_append, List.nodup_append] at hids
    obtain ⟨hover, hrecord⟩ := ih hids.1 fun c hc => hsettled c (List.mem_append_left _ hc)
    have hall : ((calls ++ later ++ [call]).filterMap StoreCall.newTask?).Nodup := by
      rw [List.filterMap_append, List.nodup_append]
      exact hids
    obtain ⟨hover', hrecord'⟩ := hover.concat hall hsettled
    refine ⟨hover', ?_⟩
    rcases hrecord' with hnone | hsame
    · exact .inl hnone
    · rw [hsame]
      exact hrecord

/-- A waiting task has one owner: in every run of the store, with new tasks under new
identifiers and claims at different times, the log of each task is well kept and its record
shows the last note, no two finalizations have the same version, and the record of a task that
is over stays as it is until it is dropped. -/
theorem taskStore_oneOwner (hids : (calls.filterMap StoreCall.newTask?).Nodup)
    (htimes : (calls.filterMap StoreCall.claimTime?).Nodup)
    (hsettled : ∀ call ∈ calls, call.op.Settled) :
    (∀ key, Accounted (taskLog (storeEvents rt calls)) (storeAfter rt calls) key) ∧
      ((returns (taskLog (storeEvents rt calls))).map Prod.snd).Nodup ∧
      ∀ before later key, calls = before ++ later → Over rt before key →
        (storeAfter rt calls).recordAt key = none ∨
          (storeAfter rt calls).recordAt key = (storeAfter rt before).recordAt key := by
  have haccounts := accounted_run rt hids hsettled
  have hreturns := nodup_returns (fun key => (haccounts key).kept)
    ((takings_sublist rt calls).nodup htimes)
  refine ⟨haccounts, hreturns, ?_⟩
  rintro before later key rfl hover
  exact (hover.append hids hsettled).2

/-- A task that is claimed twice, the second time in vain, and that then fails. -/
def contestedCalls : List StoreCall :=
  [⟨{ now := "1" }, .register
      { taskId := "t1"
        plan := { intent := "read", steps := [], needsTaskLoop := true, riskLevel := .safe }
        snapshot :=
          { planId := "p1", conversationId := "c1", objective := "read", state := .waiting
            currentStepIndex := 0, maxSteps := 4, maxRetriesPerStep := 1 } }⟩,
    ⟨{ now := "2" }, .claim "t1" (some "1")⟩, ⟨{ now := "3" }, .claim "t1" (some "1")⟩,
    ⟨{ now := "4" }, .finalizeFailure "t1" "3"⟩, ⟨{ now := "5" }, .finalizeFailure "t1" "2"⟩]

theorem taskStore_oneOwner_contested :
    taskLog (storeEvents .ascii contestedCalls) =
        [("t1", .opened), ("t1", .taken "2"), ("t1", .returned "2" false)] ∧
      Accounted (taskLog (storeEvents .ascii contestedCalls)) (storeAfter .ascii contestedCalls)
        "t1" :=
  ⟨by decide +kernel, (taskStore_oneOwner (by decide) (by decide) fun call hcall => by
    simp only [contestedCalls, List.mem_cons, List.not_mem_nil, or_false] at hcall
    rcases hcall with rfl | rfl | rfl | rfl | rfl <;> trivial).1 "t1"⟩

/-! ### Room -/

/-- How many tasks the calls register. -/
def registrations (calls : List StoreCall) : ℕ := (calls.filterMap StoreCall.newTask?).length

/-- Every read succeeds, and no registration reaches its limit. -/
structure Roomy (calls : List StoreCall) : Prop where
  readable : ∀ call ∈ calls, call.env.readable = true
  room : ∀ call ∈ calls, ∀ r, call.op = .register r → registrations calls ≤ r.limit

lemma Roomy.earlier {before later : List StoreCall} (h : Roomy (before ++ later)) :
    Roomy before := by
  refine ⟨fun call hcall => h.readable call (List.mem_append_left _ hcall), ?_⟩
  intro call hcall r hr
  refine le_trans ?_ (h.room call (List.mem_append_left _ hcall) r hr)
  rw [registrations, registrations, List.filterMap_append, List.length_append]
  exact Nat.le_add_right _ _

/-! ### One call with room -/

/-- What a call does when nothing is dropped. -/
structure KeepsOthers (file file' : StoreFile) (call : StoreCall) : Prop where
  others : ∀ key ≠ call.op.key, file'.recordAt key = file.recordAt key
  named : (file.recordAt call.op.key).isSome → (file'.recordAt call.op.key).isSome
  count : file'.count ≤ file.count + registrations [call]

lemma keepsOthers_refl : KeepsOthers file file call :=
  ⟨fun _ _ => rfl, id, Nat.le_add_right _ _⟩

lemma RecordStep.keepsOthers {reply : RecordReply} (h : RecordStep file call reply) :
    KeepsOthers file (afterRecord file reply).1 call := by
  cases reply with
  | error e => exact keepsOthers_refl
  | ok answered =>
    obtain ⟨answer, file'⟩ := answered
    rcases h.2 answer file' rfl with ⟨rfl, -⟩ | ⟨note, loaded, stored, -, hrewrites, -, -⟩
    · exact keepsOthers_refl
    · refine ⟨hrewrites.others, fun _ => ?_, ?_⟩
      · rw [afterRecord, hrewrites.written]
        rfl
      · rw [afterRecord, hrewrites.count]
        exact Nat.le_add_right _ _

variable (rt) in
/-- A call that reads the file, and that has room if it registers a task, drops nothing. -/
theorem keepsOthers_step (hsettled : call.op.Settled) (hread : call.env.readable = true)
    (hroom : ∀ r, call.op = .register r → file.count < r.limit) :
    KeepsOthers file (taskStore rt file call).1 call := by
  obtain ⟨env, op⟩ := call
  change KeepsOthers file (runOp rt file ⟨env, op⟩).1 ⟨env, op⟩
  cases op with
  | register r =>
    unfold runOp
    dsimp only
    split
    · rename_i file' hregister
      obtain ⟨⟨stored, hstored, -⟩, hothers, hcount⟩ :=
        registerWaitingTask_of_room hread (hroom r rfl) hregister
      refine ⟨hothers, fun _ => ?_, hcount⟩
      rw [show StoreOp.key (.register r) = r.taskId from rfl, hstored]
      rfl
    · exact keepsOthers_refl
  | _ =>
    obtain ⟨reply, heq, hstep⟩ := exists_recordStep rt file hsettled fun _ => StoreOp.noConfusion
    rw [heq]
    exact hstep.keepsOthers

/-! ### Runs with room -/

lemma registrations_append (calls later : List StoreCall) :
    registrations (calls ++ later) = registrations calls + registrations later := by
  rw [registrations, List.filterMap_append, List.length_append, registrations, registrations]

/-- A registration has room for its task, if no registration reaches its limit. -/
lemma Roomy.count_lt {r : Registration} (h : Roomy (calls ++ [call]))
    (hcount : (storeAfter rt calls).count ≤ registrations calls) (hr : call.op = .register r) :
    (storeAfter rt calls).count < r.limit := by
  have hlimit := h.room call (List.mem_append_right _ List.mem_cons_self) r hr
  have hone : registrations [call] = 1 := by
    rw [registrations, List.filterMap_cons, StoreCall.newTask?, hr]
    rfl
  rw [registrations_append, hone] at hlimit
  omega

/-- There are at most as many records as registrations. -/
lemma count_le (hsettled : ∀ call ∈ calls, call.op.Settled) (hroomy : Roomy calls) :
    (storeAfter rt calls).count ≤ registrations calls := by
  induction calls using List.reverseRecOn with
  | nil => exact Nat.le_refl 0
  | append_singleton calls call ih =>
    have hmem : call ∈ calls ++ [call] := List.mem_append_right _ List.mem_cons_self
    have hrest := ih (fun c hc => hsettled c (List.mem_append_left _ hc)) hroomy.earlier
    have hstep := keepsOthers_step rt (hsettled call hmem) (hroomy.readable call hmem)
      fun r hr => hroomy.count_lt hrest hr
    rw [storeAfter_concat, registrations_append]
    exact hstep.count.trans (Nat.add_le_add_right hrest _)

/-- Every call of a roomy run drops nothing. -/
lemma Roomy.keepsOthers {before later : List StoreCall}
    (hsettled : ∀ c ∈ before ++ call :: later, c.op.Settled)
    (hroomy : Roomy (before ++ call :: later)) :
    KeepsOthers (storeAfter rt before) (storeAfter rt (before ++ [call])) call := by
  rw [List.append_cons] at hsettled hroomy
  have hmem : call ∈ before ++ [call] := List.mem_append_right _ List.mem_cons_self
  have hearlier := hroomy.earlier
  have hcount : (storeAfter rt before).count ≤ registrations before :=
    count_le (fun c hc => hsettled c (List.mem_append_left _ (List.mem_append_left _ hc)))
      hearlier.earlier
  rw [storeAfter_concat]
  exact keepsOthers_step rt (hsettled call (List.mem_append_left _ hmem))
    (hearlier.readable call hmem) fun r hr => hearlier.count_lt hcount hr

/-- A task is there after the call that registers it. -/
lemma isSome_recordAt_registered (hread : call.env.readable = true)
    (hroom : ∀ r, call.op = .register r → file.count < r.limit)
    (hnote : (taskStore rt file call).2.note = some .opened) :
    ((taskStore rt file call).1.recordAt call.op.key).isSome := by
  have hnew := newTask_of_opened hnote
  obtain ⟨env, op⟩ := call
  change (StoreCall.mk env op).newTask? = some op.key at hnew
  change ((runOp rt file ⟨env, op⟩).1.recordAt op.key).isSome
  change StoreEvent.note ⟨⟨env, op⟩, (runOp rt file ⟨env, op⟩).2⟩ = _ at hnote
  cases op with
  | register r =>
    unfold runOp at hnote ⊢
    dsimp only at hnote ⊢
    cases hregister : registerWaitingTask rt env r file with
    | error e =>
      rw [hregister] at hnote
      cases hnote
    | ok file' =>
      obtain ⟨⟨stored, hstored, -⟩, -⟩ :=
        registerWaitingTask_of_room hread (hroom r rfl) hregister
      rw [show StoreOp.key (.register r) = r.taskId from rfl, hstored]
      rfl
  | _ => cases hnew

/-- A registered task is there. -/
lemma isSome_recordAt (hids : (calls.filterMap StoreCall.newTask?).Nodup)
    (hsettled : ∀ call ∈ calls, call.op.Settled) (hroomy : Roomy calls)
    (hnotes : notesOf (taskLog (storeEvents rt calls)) key ≠ []) :
    ((storeAfter rt calls).recordAt key).isSome := by
  induction calls using List.reverseRecOn with
  | nil => exact absurd rfl hnotes
  | append_singleton calls call ih =>
    have hmem : call ∈ calls ++ [call] := List.mem_append_right _ List.mem_cons_self
    have hsettled' : ∀ c ∈ calls, c.op.Settled := fun c hc => hsettled c (List.mem_append_left _ hc)
    have hroom : ∀ r, call.op = .register r → (storeAfter rt calls).count < r.limit :=
      fun r hr => hroomy.count_lt (count_le hsettled' hroomy.earlier) hr
    have hkept := (accounted_run rt hids hsettled key).kept
    rw [taskLog_concat, notesOf_append] at hnotes hkept
    rw [storeAfter_concat]
    by_cases hold : notesOf (taskLog (storeEvents rt calls)) key = []
    · -- the first note about the task is its registration by this call
      rw [hold, List.nil_append] at hnotes hkept
      obtain ⟨event, hevent, hentry⟩ :=
        List.mem_filterMap.mp (mem_notesOf.mp (hkept.opened_mem hnotes))
      obtain rfl := List.mem_singleton.mp hevent
      obtain ⟨note, hnote, heq⟩ := Option.map_eq_some_iff.mp hentry
      obtain ⟨rfl, rfl⟩ := Prod.mk.inj heq
      exact isSome_recordAt_registered (hroomy.readable call hmem) hroom hnote
    · rw [List.filterMap_append, List.nodup_append] at hids
      have hbefore := ih hids.1 hsettled' hroomy.earlier hold
      have hkeeps := keepsOthers_step rt (hsettled call hmem)
        (hroomy.readable call hmem) hroom
      by_cases hkey : key = call.op.key
      · subst hkey
        exact hkeeps.named hbefore
      · rw [hkeeps.others key hkey]
        exact hbefore

/-- What a load finds while the file can be read. -/
lemma loadedTask_of_recordAt {env : StoreEnv} {task : PyDict} (hread : env.readable = true)
    (h : file.recordAt key = some (.dict task)) : loadedTask env file key = some task := by
  unfold loadedTask
  rw [hread, show get? (tasksOf (loadStore true file)) key = some (.dict task) from h]
  rfl

lemma isClaimed_of_shows {task : PyDict} {version : String} (h : Shows task (.taken version)) :
    isClaimed task version = true := by
  rw [isClaimed_iff, h.1, h.2]
  exact ⟨beq_self_eq_true _, beq_self_eq_true _⟩

/-- No task is lost while there is room: in a run whose reads succeed and in which no
registration reaches its limit, each task that was registered has a record, which shows the last
note about it; each call leaves the records of all other tasks as they are; and a finalization
of the last claim finds its record. -/
theorem taskStore_noneLost (hids : (calls.filterMap StoreCall.newTask?).Nodup)
    (hsettled : ∀ call ∈ calls, call.op.Settled) (hroomy : Roomy calls) :
    (∀ key, notesOf (taskLog (storeEvents rt calls)) key ≠ [] → ∃ task note,
      (storeAfter rt calls).recordAt key = some (.dict task) ∧
      (notesOf (taskLog (storeEvents rt calls)) key).getLast? = some note ∧ Shows task note) ∧
    (∀ before call later, calls = before ++ call :: later → ∀ key ≠ call.op.key,
      (storeAfter rt (before ++ [call])).recordAt key = (storeAfter rt before).recordAt key) ∧
    ∀ key version, (notesOf (taskLog (storeEvents rt calls)) key).getLast? =
        some (.taken version) →
      ∀ env : StoreEnv, env.readable = true →
        ∃ task, loadedTask env (storeAfter rt calls) key = some task ∧
          isClaimed task version = true := by
  have hthere : ∀ key, notesOf (taskLog (storeEvents rt calls)) key ≠ [] → ∃ task note,
      (storeAfter rt calls).recordAt key = some (.dict task) ∧
      (notesOf (taskLog (storeEvents rt calls)) key).getLast? = some note ∧ Shows task note := by
    intro key hnotes
    obtain ⟨v, hv⟩ := Option.isSome_iff_exists.mp (isSome_recordAt hids hsettled hroomy hnotes)
    obtain ⟨task, note, rfl, hlast, hshows⟩ := (accounted_run rt hids hsettled key).shows v hv
    exact ⟨task, note, hv, hlast, hshows⟩
  refine ⟨hthere, ?_, ?_⟩
  · rintro before call later rfl key hne
    exact (hroomy.keepsOthers hsettled).others key hne
  · intro key version hlast env hread
    obtain ⟨task, note, hrecord, hnote, hshows⟩ := hthere key (by
      intro hnil
      rw [hnil] at hlast
      cases hlast)
    obtain rfl := Option.some.inj (hlast.symm.trans hnote)
    exact ⟨task, loadedTask_of_recordAt hread hrecord, isClaimed_of_shows hshows⟩

theorem taskStore_noneLost_contested : ∃ task note,
    (storeAfter .ascii contestedCalls).recordAt "t1" = some (.dict task) ∧
      (notesOf (taskLog (storeEvents .ascii contestedCalls)) "t1").getLast? = some note ∧
      Shows task note := by
  refine (taskStore_noneLost (by decide) (fun call hcall => ?_) ⟨by decide, ?_⟩).1 "t1"
    (by decide +kernel)
  · simp only [contestedCalls, List.mem_cons, List.not_mem_nil, or_false] at hcall
    rcases hcall with rfl | rfl | rfl | rfl | rfl <;> trivial
  · intro call hcall r hr
    simp only [contestedCalls, List.mem_cons, List.not_mem_nil, or_false] at hcall
    rcases hcall with rfl | rfl | rfl | rfl | rfl <;> cases hr
    decide

end Trion.TaskResume
