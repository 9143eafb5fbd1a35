import Trion.TaskResume.Store

/-!
# What an operation does to the records

An operation of the store either leaves the file as it is, or it rewrites the record that it
names, or it registers a task.  A rewriting leaves every other record as it is; a registration
leaves it or drops it.  The proofs about runs go by these cases.
-/

namespace Trion.TaskResume

open Trion.Python Trion.Thinking Trion.TaskLoop OrderedDict

/-- The record under a key. -/
def StoreFile.recordAt (file : StoreFile) (key : String) : Option PyVal :=
  get? (tasksOf (loadStore true file)) key

/-- How many records there are. -/
def StoreFile.count (file : StoreFile) : ℕ := (tasksOf (loadStore true file)).length

variable {rt : PyRuntime} {env : StoreEnv} {file file' : StoreFile} {key key' : String}
  {task : PyDict} {answer : Option PyDict}

/-! ### Copies -/

lemma get_eq_getD (d : PyDict) (key : String) : PyDict.get d key = (get? d key).getD .none := rfl

/-- A string survives the copy. -/
lemma get_of_jsonCopyEntries {d copy : PyDict} {s : String}
    (h : PyVal.jsonCopyEntries d = some copy) (hs : get? d key = some (.str s)) :
    PyDict.get copy key = .str s := by
  rw [get_eq_getD, get?_jsonCopyEntries h, hs]
  rfl

/-! ### Loading and saving -/

/-- The tasks of a store that could not be read are none. -/
lemma tasksOf_loadStore {readable : Bool} :
    tasksOf (loadStore readable file) = [] ∨
      tasksOf (loadStore readable file) = tasksOf (loadStore true file) := by
  cases readable with
  | true => exact .inr rfl
  | false =>
    refine .inl ?_
    unfold loadStore
    cases file.content <;> rfl

/-- The records of a file are the entries of its `tasks`. -/
lemma tasksOf_of_content {payload tasks : PyDict} (hcontent : file.content = some (.dict payload))
    (htasks : get? payload "tasks" = some (.dict tasks)) :
    tasksOf (loadStore true file) = tasks := by
  have hget : PyDict.get payload "tasks" = .dict tasks := by rw [get_eq_getD, htasks]; rfl
  have hload : loadStore true file = payload := by
    unfold loadStore
    rw [hcontent]
    dsimp only
    rw [if_pos rfl, hget]
  rw [hload, tasksOf, hget]
  rfl

lemma exists_content {v : PyVal} (h : file.recordAt key = some v) :
    ∃ payload tasks, file.content = some (.dict payload) ∧
      get? payload "tasks" = some (.dict tasks) ∧ get? tasks key = some v := by
  unfold StoreFile.recordAt loadStore at h
  split at h
  · cases h
  · rename_i w hcontent
    rw [if_pos rfl] at h
    split at h
    · rename_i payload
      split at h
      · rename_i tasks htasks
        rw [tasksOf, htasks] at h
        refine ⟨payload, tasks, hcontent, ?_, h⟩
        cases hget : get? payload "tasks" with
        | none => rw [get_eq_getD, hget] at htasks; cases htasks
        | some t => rw [get_eq_getD, hget] at htasks; exact congrArg some htasks
      · rw [tasksOf, get_eq_getD, get?_insert_self] at h
        cases h
    · cases h

/-- The records of a file are JSON. -/
lemma jsonCopy_of_recordAt {v : PyVal} (h : file.recordAt key = some v) : v.jsonCopy = some v := by
  obtain ⟨payload, tasks, hcontent, htasks, hv⟩ := exists_content h
  obtain ⟨copy, hcopy, hentries⟩ := jsonCopy_dict (file.json _ hcontent)
  obtain rfl := PyVal.dict.inj hcopy
  obtain ⟨w, hw, hget⟩ := exists_jsonCopy hentries htasks
  obtain ⟨taskCopy, rfl, htaskEntries⟩ := jsonCopy_dict hw
  obtain rfl := PyVal.dict.inj (Option.some.inj (htasks.symm.trans hget))
  obtain ⟨w, hw, hget⟩ := exists_jsonCopy htaskEntries hv
  rw [hw, ← hget, hv]

lemma bind_jsonCopy_recordAt : (file.recordAt key).bind PyVal.jsonCopy = file.recordAt key := by
  cases h : file.recordAt key with
  | none => rfl
  | some v => exact jsonCopy_of_recordAt h

/-- After saving, the records are the copies of the tasks. -/
lemma records_of_saveStore {writable : Bool} {payload tasks : PyDict}
    (h : saveStore writable (insert payload "tasks" (.dict tasks)) = .ok file') :
    ∃ copy, PyVal.jsonCopyEntries tasks = some copy ∧
      tasksOf (loadStore true file') = copy := by
  unfold saveStore at h
  split at h
  · cases h
  · rename_i v hv
    split at h
    · obtain rfl := Except.ok.inj h
      obtain ⟨copy, rfl, hcopy⟩ := jsonCopy_dict hv
      obtain ⟨w, hw, htasks⟩ := exists_jsonCopy hcopy get?_insert_self
      obtain ⟨taskCopy, rfl, htaskCopy⟩ := jsonCopy_dict hw
      exact ⟨taskCopy, htaskCopy, tasksOf_of_content rfl htasks⟩
    · cases h

/-! ### Rewriting a record -/

/-- One record is rewritten, and every other record stays. -/
structure Rewrites (file file' : StoreFile) (key : String) (loaded stored : PyDict) : Prop where
  found : file.recordAt key = some (.dict loaded)
  written : file'.recordAt key = some (.dict stored)
  others : ∀ key' ≠ key, file'.recordAt key' = file.recordAt key'
  count : file'.count = file.count

/-- A record that was loaded is one of the file, and the load has found all of them. -/
lemma loadedTask_spec (h : loadedTask env file key = some task) :
    file.recordAt key = some (.dict task) ∧
      tasksOf (loadStore env.readable file) = tasksOf (loadStore true file) := by
  obtain ⟨v, hv, htask⟩ := Option.bind_eq_some_iff.mp h
  rcases @tasksOf_loadStore file env.readable with hnone | hall
  · rw [hnone] at hv
    cases hv
  · rw [hall] at hv
    refine ⟨?_, hall⟩
    cases v with
    | dict entries =>
      obtain rfl := Option.some.inj htask
      exact hv
    | _ => cases htask

/-- What `storeTask` writes. -/
lemma storeTask_spec {loaded : PyDict} (hloaded : loadedTask env file key = some loaded)
    (h : storeTask env file key task = .ok (answer, file')) :
    answer = some task ∧ ∃ stored, PyVal.jsonCopyEntries task = some stored ∧
      Rewrites file file' key loaded stored := by
  obtain ⟨hfound, htasks⟩ := loadedTask_spec hloaded
  unfold storeTask payloadWithTask at h
  cases hsave : saveStore env.writable (insert (loadStore env.readable file) "tasks"
      (.dict (insert (tasksOf (loadStore env.readable file)) key (.dict task)))) with
  | error e => rw [hsave] at h; cases h
  | ok saved =>
    rw [hsave] at h
    obtain ⟨rfl, rfl⟩ := Prod.mk.inj (Except.ok.inj h)
    obtain ⟨tasks, hcopy, hsaved⟩ := records_of_saveStore hsave
    rw [htasks] at hcopy
    obtain ⟨w, hw, hget⟩ := exists_jsonCopy hcopy get?_insert_self
    obtain ⟨stored, rfl, htask⟩ := jsonCopy_dict hw
    refine ⟨rfl, stored, htask, hfound, ?_, fun key' hne => ?_, ?_⟩
    · rw [StoreFile.recordAt, hsaved, hget]
    · rw [StoreFile.recordAt, hsaved, get?_jsonCopyEntries hcopy, get?_insert_of_ne hne]
      exact bind_jsonCopy_recordAt
    · have hhas : has (tasksOf (loadStore true file)) key = true := by
        rw [has_iff, show get? (tasksOf (loadStore true file)) key = _ from hfound]
        rfl
      rw [StoreFile.count, hsaved, length_jsonCopyEntries hcopy, OrderedDict.insert, if_pos hhas,
        List.length_map, StoreFile.count]

/-! ### The operations -/

lemma isWaiting_iff {status : String} (h : PyDict.get task "status" = .str status) :
    isWaiting rt task = true ↔ status = TaskLoopState.waiting.value := by
  unfold isWaiting PyVal.strOr PyVal.or
  rw [h]
  by_cases hempty : status = ""
  · subst hempty
    simp [PyVal.truthy, PyVal.toStr, TaskLoopState.value]
  · simp [PyVal.truthy, PyVal.toStr, hempty]

lemma isClaimed_iff {version : String} : isClaimed task version = true ↔
    (PyDict.get task "status").pyEq (.str TaskLoopState.executing.value) = true ∧
      (PyDict.get task "updated_at").pyEq (.str version) = true := by
  rw [isClaimed, Bool.and_eq_true]

/-- A value that equals a string is that string. -/
lemma eq_of_pyEq_str {v : PyVal} {s : String} (h : v.pyEq (.str s) = true) : v = .str s := by
  cases v with
  | str t => rw [eq_of_beq (show (t == s) = true from h)]
  | _ => simp [PyVal.pyEq, PyVal.number?] at h

/-- The answer of an operation that leaves the file as it is. -/
lemma unchanged_of_ok (h : (.ok (none, file) : RecordReply) = .ok (answer, file')) :
    answer = none ∧ file' = file := by
  obtain ⟨rfl, rfl⟩ := Prod.mk.inj (Except.ok.inj h)
  exact ⟨rfl, rfl⟩

/-- `claim_waiting_task` answers nothing, or takes a waiting record. -/
theorem claimWaitingTask_spec {taskId : String} {expected : Option String}
    (h : claimWaitingTask rt env taskId expected file = .ok (answer, file')) :
    (answer = none ∧ file' = file) ∨
      ∃ task loaded stored, answer = some task ∧ PyDict.get task "updated_at" = .str env.now ∧
        Rewrites file file' (strip taskId) loaded stored ∧ isWaiting rt loaded = true ∧
        PyDict.get stored "status" = .str TaskLoopState.executing.value ∧
        PyDict.get stored "updated_at" = .str env.now := by
  unfold claimWaitingTask at h
  dsimp only at h
  split at h
  · exact .inl (unchanged_of_ok h)
  · split at h
    · exact .inl (unchanged_of_ok h)
    · rename_i loaded hloaded
      split at h
      · cases h
      · rename_i hwaiting
        split at h
        · cases h
        · split at h
          · cases h
          · have hstatus : ∀ d : PyDict, get? (insert (insert d "status"
                (.str TaskLoopState.executing.value)) "updated_at" (.str env.now)) "status" =
                  some (.str TaskLoopState.executing.value) := fun d => by
              rw [get?_insert_of_ne (by decide), get?_insert_self]
            obtain ⟨rfl, stored, hcopy, hrewrites⟩ := storeTask_spec hloaded h
            refine .inr ⟨_, loaded, stored, rfl, ?_, hrewrites, by simpa using hwaiting,
              get_of_jsonCopyEntries hcopy (hstatus loaded),
              get_of_jsonCopyEntries hcopy get?_insert_self⟩
            rw [get_eq_getD, get?_insert_self]
            rfl

/-- `cancel_waiting_task` answers nothing, or cancels a waiting record. -/
theorem cancelWaitingTask_spec {taskId : String}
    (h : cancelWaitingTask rt env taskId file = .ok (answer, file')) :
    (answer = none ∧ file' = file) ∨
      ∃ task loaded stored, answer = some task ∧ Rewrites file file' (strip taskId) loaded stored ∧
        isWaiting rt loaded = true ∧
        PyDict.get stored "status" = .str TaskLoopState.cancelled.value := by
  unfold cancelWaitingTask at h
  dsimp only at h
  split at h
  · exact .inl (unchanged_of_ok h)
  · split at h
    · exact .inl (unchanged_of_ok h)
    · rename_i loaded hloaded
      split at h
      · cases h
      · rename_i hwaiting
        split at h
        · cases h
        · obtain ⟨rfl, stored, hcopy, hrewrites⟩ := storeTask_spec hloaded h
          refine .inr ⟨_, loaded, stored, rfl, hrewrites, by simpa using hwaiting,
            get_of_jsonCopyEntries hcopy ?_⟩
          rw [get?_merge]
          rfl

lemma get?_preparedResultUpdate {result : TaskLoopResult} {now : String} {prepared : PyDict}
    (h : preparedResultUpdate result now = .ok prepared) :
    get? prepared "status" = some (.str result.state.value) := by
  unfold preparedResultUpdate jsonCopyDict at h
  split at h
  · cases h
  · rename_i copy hcopy
    obtain rfl := Except.ok.inj h
    rw [get?_jsonCopyEntries hcopy]
    rfl

lemma get?_preparedFailureUpdate {now : String} {prepared : PyDict}
    (h : preparedFailureUpdate task now = .ok prepared) :
    get? prepared "status" = some (.str TaskLoopState.blocked.value) := by
  unfold preparedFailureUpdate at h
  split at h
  · unfold jsonCopyDict at h
    split at h
    · cases h
    · rename_i copy hcopy
      obtain rfl := Except.ok.inj h
      rw [get?_jsonCopyEntries hcopy]
      rfl
  · cases h

/-- `finalize_claimed_task` answers nothing, or writes the result to the record that is claimed
in this version. -/
theorem finalizeClaimedTask_spec {taskId version : String} {result : TaskLoopResult}
    (h : finalizeClaimedTask env taskId result version file = .ok (answer, file')) :
    (answer = none ∧ file' = file) ∨
      ∃ task loaded stored, answer = some task ∧ Rewrites file file' (strip taskId) loaded stored ∧
        isClaimed loaded version = true ∧ PyDict.get stored "status" = .str result.state.value := by
  unfold finalizeClaimedTask at h
  dsimp only at h
  split at h
  · exact .inl (unchanged_of_ok h)
  · obtain ⟨prepared, hprepared, h⟩ := ok_of_bind h
    split at h
    · exact .inl (unchanged_of_ok h)
    · rename_i loaded hloaded
      split at h
      · rename_i hclaimed
        obtain ⟨rfl, stored, hcopy, hrewrites⟩ := storeTask_spec hloaded h
        refine .inr ⟨_, loaded, stored, rfl, hrewrites, hclaimed, get_of_jsonCopyEntries hcopy ?_⟩
        rw [get?_merge, get?_preparedResultUpdate hprepared]
        rfl
      · exact .inl (unchanged_of_ok h)

/-- `finalize_claimed_failure` answers nothing, or blocks the record that is claimed in this
version. -/
theorem finalizeClaimedFailure_spec {taskId version : String}
    (h : finalizeClaimedFailure env taskId version file = .ok (answer, file')) :
    (answer = none ∧ file' = file) ∨
      ∃ task loaded stored, answer = some task ∧ Rewrites file file' (strip taskId) loaded stored ∧
        isClaimed loaded version = true ∧ PyDict.get stored "status" = .str TaskLoopState.blocked.value := by
  unfold finalizeClaimedFailure at h
  dsimp only at h
  split at h
  · exact .inl (unchanged_of_ok h)
  · split at h
    · exact .inl (unchanged_of_ok h)
    · rename_i loaded hloaded
      split at h
      · rename_i hclaimed
        cases hprepared : preparedFailureUpdate loaded env.now with
        | error e => rw [hprepared] at h; cases h
        | ok prepared =>
          rw [hprepared] at h
          obtain ⟨rfl, stored, hcopy, hrewrites⟩ := storeTask_spec hloaded h
          refine .inr ⟨_, loaded, stored, rfl, hrewrites, hclaimed,
            get_of_jsonCopyEntries hcopy ?_⟩
          rw [get?_merge, get?_preparedFailureUpdate hprepared]
          rfl
      · exact .inl (unchanged_of_ok h)

/-! ### Registration -/

lemma get?_foldl_erase (keys : List String) (tasks : PyDict) (key : String) :
    get? (keys.foldl erase tasks) key = if key ∈ keys then none else get? tasks key := by
  induction keys generalizing tasks with
  | nil => simp
  | cons k keys ih =>
    rw [List.foldl_cons, ih, get?_erase]
    by_cases hkey : key = k <;> simp [hkey]

lemma trimTasks_spec {tasks kept : PyDict} {maxTasks : ℤ}
    (h : trimTasks rt tasks maxTasks = .ok kept) :
    ∃ dropped, overflowing rt tasks maxTasks = .ok dropped ∧ kept = dropped.foldl erase tasks := by
  unfold trimTasks at h
  cases hdropped : overflowing rt tasks maxTasks with
  | error e => rw [hdropped] at h; cases h
  | ok dropped =>
    rw [hdropped] at h
    exact ⟨dropped, rfl, (Except.ok.inj h).symm⟩

/-- `register_waiting_task` adds the record of the new task and drops those over the limit. -/
theorem registerWaitingTask_spec {r : Registration}
    (h : registerWaitingTask rt env r file = .ok file') :
    ∃ dropped copy, overflowing rt (insert (tasksOf (loadStore env.readable file)) r.taskId
        (.dict (waitingRecord rt env.now r))) r.maxTasks = .ok dropped ∧
      PyVal.jsonCopyEntries (dropped.foldl erase (insert (tasksOf (loadStore env.readable file))
        r.taskId (.dict (waitingRecord rt env.now r)))) = some copy ∧
      tasksOf (loadStore true file') = copy := by
  unfold registerWaitingTask at h
  dsimp only at h
  cases htrim : trimTasks rt (insert (tasksOf (loadStore env.readable file)) r.taskId
      (.dict (waitingRecord rt env.now r))) r.maxTasks with
  | error e => rw [htrim] at h; cases h
  | ok kept =>
    rw [htrim] at h
    obtain ⟨dropped, hdropped, rfl⟩ := trimTasks_spec htrim
    obtain ⟨copy, hcopy, hsaved⟩ := records_of_saveStore h
    exact ⟨dropped, copy, hdropped, hcopy, hsaved⟩

lemma get?_waitingRecord {r : Registration} {now : String} :
    get? (waitingRecord rt now r) "status" = some (.str TaskLoopState.waiting.value) := rfl

/-- The new record is waiting, if it is not dropped at once. -/
lemma recordAt_registered {r : Registration} (h : registerWaitingTask rt env r file = .ok file') :
    file'.recordAt r.taskId = none ∨ ∃ stored, file'.recordAt r.taskId = some (.dict stored) ∧
      PyDict.get stored "status" = .str TaskLoopState.waiting.value := by
  obtain ⟨dropped, copy, -, hcopy, hsaved⟩ := registerWaitingTask_spec h
  rw [StoreFile.recordAt, hsaved]
  by_cases hmem : r.taskId ∈ dropped
  · left
    rw [get?_jsonCopyEntries hcopy, get?_foldl_erase, if_pos hmem]
    rfl
  · right
    have hget : get? (dropped.foldl erase (insert (tasksOf (loadStore env.readable file)) r.taskId
        (.dict (waitingRecord rt env.now r)))) r.taskId =
        some (.dict (waitingRecord rt env.now r)) := by
      rw [get?_foldl_erase, if_neg hmem, get?_insert_self]
    obtain ⟨w, hw, hrecord⟩ := exists_jsonCopy hcopy hget
    obtain ⟨stored, rfl, hstored⟩ := jsonCopy_dict hw
    exact ⟨stored, hrecord, get_of_jsonCopyEntries hstored get?_waitingRecord⟩

/-- A registration leaves every other record as it is or drops it. -/
lemma recordAt_others {r : Registration} (h : registerWaitingTask rt env r file = .ok file')
    (hne : key ≠ r.taskId) :
    file'.recordAt key = none ∨ file'.recordAt key = file.recordAt key := by
  obtain ⟨dropped, copy, -, hcopy, hsaved⟩ := registerWaitingTask_spec h
  rw [StoreFile.recordAt, hsaved, get?_jsonCopyEntries hcopy, get?_foldl_erase]
  split
  · exact .inl rfl
  · rw [get?_insert_of_ne hne]
    rcases @tasksOf_loadStore file env.readable with hnone | hall
    · rw [hnone]
      exact .inl rfl
    · rw [hall]
      exact .inr bind_jsonCopy_recordAt

/-! ### Room -/

/-- How many records a registration leaves at most. -/
def Registration.limit (r : Registration) : ℕ :=
  (max 10 (if r.maxTasks = 0 then 200 else r.maxTasks)).toNat

lemma length_insert_le (d : PyDict) (key : String) (v : PyVal) :
    (insert d key v).length ≤ d.length + 1 := by
  unfold OrderedDict.insert
  split
  · rw [List.length_map]
    exact Nat.le_succ _
  · rw [List.length_append]
    exact Nat.le_refl _

/-- A registration that finds room drops nothing. -/
theorem registerWaitingTask_of_room {r : Registration} (hread : env.readable = true)
    (hroom : file.count < r.limit) (h : registerWaitingTask rt env r file = .ok file') :
    (∃ stored, file'.recordAt r.taskId = some (.dict stored) ∧
      PyDict.get stored "status" = .str TaskLoopState.waiting.value) ∧
    (∀ key ≠ r.taskId, file'.recordAt key = file.recordAt key) ∧
    file'.count ≤ file.count + 1 := by
  obtain ⟨dropped, copy, hdropped, hcopy, hsaved⟩ := registerWaitingTask_spec h
  rw [hread] at hdropped hcopy
  have hle : (insert (tasksOf (loadStore true file)) r.taskId
      (.dict (waitingRecord rt env.now r))).length ≤ r.limit :=
    (length_insert_le _ _ _).trans hroom
  have hnone : overflowing rt (insert (tasksOf (loadStore true file)) r.taskId
      (.dict (waitingRecord rt env.now r))) r.maxTasks = .ok [] := if_pos hle
  obtain rfl : [] = dropped := Except.ok.inj (hnone.symm.trans hdropped)
  obtain ⟨w, hw, hrecord⟩ := exists_jsonCopy hcopy get?_insert_self
  obtain ⟨stored, rfl, hstored⟩ := jsonCopy_dict hw
  refine ⟨⟨stored, ?_, get_of_jsonCopyEntries hstored get?_waitingRecord⟩, fun key hne => ?_, ?_⟩
  · rw [StoreFile.recordAt, hsaved, hrecord]
  · rw [StoreFile.recordAt, hsaved, get?_jsonCopyEntries hcopy, List.foldl_nil,
      get?_insert_of_ne hne]
    exact bind_jsonCopy_recordAt
  · rw [StoreFile.count, hsaved, length_jsonCopyEntries hcopy]
    exact length_insert_le _ _ _

end Trion.TaskResume
