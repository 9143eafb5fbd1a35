import Trion.Cron.CronParser
import Trion.Library.OrderedDict

/-!
# Normalising the fields of a job

A job is a dictionary.  `create_job` and `update_job` hand the fields a client sent to
`normalize_job_payload`, which checks and normalises those that are there (all of them for a
new job) and writes them over the job's old fields.  Each field has its own function here: it
yields the value to write, or `none` where the old one stays.
-/

namespace Trion.Cron

open Trion.Python OrderedDict

variable (env : CronRuntime)

/-- A job as it is stored. -/
abbrev Job := PyDict

/-- `str(d.get(key, default))`. -/
def strField (d : PyDict) (key default : String) : String :=
  ((get? d key).getD (.str default)).toStr env.toPyRuntime

/-- `str(job.get("schedule_mode", "recurring")).strip().lower() == "one_shot"`. -/
def isOneShot (job : Job) : Bool :=
  env.lower (strip (strField env job "schedule_mode" "recurring")) == "one_shot"

/-! ### Notes and links -/

/-- `normalize_reference_links(raw)`. -/
def normalizeReferenceLinks (raw : PyVal) : List PyVal :=
  let step (acc : List String × List PyVal) (entry : PyVal) :=
    let item := entry.asDict?.getD []
    let name := strip (strField env item "name" "")
    let url := strip (strField env item "url" "")
    if 12 ≤ acc.2.length ∨ name = "" ∨ url = "" ∨ env.lower url ∈ acc.1 then acc
    else (acc.1 ++ [env.lower url], acc.2 ++ [.dict [
      ("name", .str (sliceTo name 120)),
      ("url", .str (sliceTo url 500)),
      ("description", .str (sliceTo (strip (strField env item "description" "")) 300)),
      ("read_only", .bool true)]])
  ((raw.asList?.getD []).foldl step ([], [])).2

/-- `build_default_job_note_md(job)`. -/
def buildDefaultJobNoteMd (job : Job) : String :=
  let field key default missing := orElse (strip (strField env job key default)) missing
  let mode := orElse (env.lower (strip (strField env job "schedule_mode" "recurring"))) "recurring"
  let maxLoops : ℤ :=
    match (((get? job "max_loops").getD (.int 1)).or (.int 1)).toInt env.toPyRuntime with
    | .ok n => n
    | .error _ => 1
  let lines := [
    "# Cron Job: " ++ field "name" "" "cron-job", "",
    "## Objective", sliceTo (field "objective" "" "No objective provided.") 1000, "",
    "## Schedule", "- Mode: `" ++ mode ++ "`",
    if mode = "one_shot" then "- Run at (UTC): `" ++ field "run_at" "" "-" ++ "`"
    else "- Cron: `" ++ field "cron" "" "-" ++ "`",
    "- Timezone: `" ++ field "timezone" "UTC" "UTC" ++ "`", "",
    "## Runtime", "- Created by: `" ++ field "created_by" "user" "user" ++ "`",
    "- Conversation: `" ++ field "conversation_id" "" "-" ++ "`",
    "- Max loops: `" ++ toString maxLoops ++ "`"]
  sliceTo (strip ("\n".intercalate lines)) 6000

/-! ### The fields -/

section Fields

variable (payload : PyDict) (existing : Option Job)

/-- `not existing`: there is no job yet. -/
def isFresh : Bool := (existing.getD []).isEmpty

/-- `key in payload or not existing`: the field is to be normalised. -/
def isGiven (key : String) : Bool := has payload key || isFresh existing

/-- `payload.get(key) if key in payload else prev.get(key, default)`. -/
def given (key : String) (default : PyVal) : PyVal :=
  if has payload key then PyDict.get payload key
  else (get? (existing.getD []) key).getD default

/-- The mode of the job and the value to write. -/
def normalizeScheduleMode : Except CronError (String × Option PyVal) :=
  if isGiven payload existing "schedule_mode" then
    let raw := given payload existing "schedule_mode" (.str "recurring")
    let mode := env.lower (strip (raw.strOr env.toPyRuntime "recurring"))
    if mode ≠ "recurring" ∧ mode ≠ "one_shot" then
      valueError "schedule_mode must be one of: recurring, one_shot"
    else .ok (mode, some (.str mode))
  else
    let stored := strField env (existing.getD []) "schedule_mode" "recurring"
    .ok (orElse (env.lower (strip stored)) "recurring", none)

/-- A text that must not be empty, cut at `limit` characters. -/
def normalizeRequiredText (key : String) (limit : ℕ) : Except CronError (Option PyVal) :=
  if isGiven payload existing key then
    let text := strip ((given payload existing key (.str "")).toStr env.toPyRuntime)
    if text = "" then valueError s!"{key} is required"
    else .ok (some (.str (sliceTo text limit)))
  else .ok none

def normalizeName := normalizeRequiredText env payload existing "name" 120

def normalizeObjective := normalizeRequiredText env payload existing "objective" 1000

def normalizeConversationId := normalizeRequiredText env payload existing "conversation_id" 120

/-- `cron` and `run_at` of a recurring job. -/
def normalizeRecurring : Except CronError (Option PyVal × Option PyVal) :=
  if isGiven payload existing "cron" then
    let cronExpr := strip ((given payload existing "cron" (.str "")).toStr env.toPyRuntime)
    if cronExpr = "" then valueError "cron is required for recurring schedule"
    else (validateCronExpression env.toPyRuntime cronExpr).map fun normalized =>
      (some (.str normalized), some (.str ""))
  else .ok (none, some (.str ""))

/-- `cron` of a one-shot job: it is validated if there is one, and a new job gets a default. -/
def normalizeOneShotCron : Except CronError (Option PyVal) :=
  if has payload "cron" then
    let cronExpr := strip ((PyDict.get payload "cron").strOr env.toPyRuntime "")
    if cronExpr = "" then .ok none
    else (validateCronExpression env.toPyRuntime cronExpr).map fun normalized =>
      some (.str normalized)
  else if isFresh existing then .ok (some (.str "*/15 * * * *"))
  else .ok none

/-- `run_at` of a one-shot job. -/
def normalizeRunAt (now : DateTime) : Except CronError PyVal :=
  let raw := (given payload existing "run_at" (.str "")).strOr env.toPyRuntime ""
  match parseIsoDatetime env raw with
  | none => valueError "run_at is required for one_shot schedule"
  | some runAt =>
    if (existing.isNone || has payload "run_at") && decide (runAt.ticks ≤ now.ticks) then
      valueError "run_at must be in the future for one_shot schedule"
    else .ok (.str (iso runAt))

/-- `cron` and `run_at` of a job in the given mode. -/
def normalizeSchedule (mode : String) (now : DateTime) :
    Except CronError (Option PyVal × Option PyVal) :=
  if mode = "recurring" then normalizeRecurring env payload existing
  else do
    let cron ← normalizeOneShotCron env payload existing
    let runAt ← normalizeRunAt env payload existing now
    return (cron, some runAt)

def normalizeTimezone : Except CronError (Option PyVal) :=
  if isGiven payload existing "timezone" then
    let raw := (given payload existing "timezone" (.str "UTC")).toStr env.toPyRuntime
    let name := orElse (strip raw) "UTC"
    match env.zoneInfo name with
    | none => valueError s!"timezone invalid: {name}"
    | some _ => .ok (some (.str name))
  else .ok none

def normalizeMaxLoops : Except CronError (Option PyVal) :=
  if isGiven payload existing "max_loops" then
    match (given payload existing "max_loops" (.int 10)).toInt env.toPyRuntime with
    | .error _ => valueError "max_loops must be an integer"
    | .ok maxLoops =>
      if maxLoops < 1 ∨ maxLoops > 200 then valueError "max_loops must be between 1 and 200"
      else .ok (some (.int maxLoops))
  else .ok none

def normalizeCreatedBy : Except CronError (Option PyVal) :=
  if isGiven payload existing "created_by" then
    let raw := (given payload existing "created_by" (.str "user")).toStr env.toPyRuntime
    let createdBy := orElse (env.lower (strip raw)) "user"
    if createdBy ≠ "user" ∧ createdBy ≠ "trion" then
      valueError "created_by must be one of: user, trion"
    else .ok (some (.str createdBy))
  else .ok none

/-- A flag: a new job gets the default. -/
def normalizeFlag (key : String) (default : Bool) : Option PyVal :=
  if has payload key then some (.bool (PyDict.get payload key).truthy)
  else if isFresh existing then some (.bool default)
  else none

def normalizeEnabled := normalizeFlag payload existing "enabled" true

def normalizeUserApproved := normalizeFlag payload existing "user_approved" false

def normalizeReferences : Option PyVal × Option PyVal :=
  (if has payload "reference_links" then
      some (.list (normalizeReferenceLinks env (PyDict.get payload "reference_links")))
    else none,
    if has payload "reference_source" then
      some (.str (sliceTo (strip (strField env payload "reference_source" "")) 120))
    else none)

/-- The fields whose change renews a note that was not written by hand. -/
def coreFields : List String :=
  ["name", "objective", "schedule_mode", "cron", "run_at", "timezone", "conversation_id",
    "max_loops", "created_by"]

/-- `job_note_md`, where `out` holds the other fields of the job. -/
def normalizeJobNote (out : Job) : Option PyVal :=
  let prev := existing.getD []
  if has payload "job_note_md" then
    let note := (PyDict.get payload "job_note_md").strOr env.toPyRuntime ""
    some (.str (sliceTo (strip note) 6000))
  else if isFresh existing then some (.str (buildDefaultJobNoteMd env out))
  else
    let note := strip (strField env prev "job_note_md" "")
    if coreFields.any (has payload) && (note == "" || note == buildDefaultJobNoteMd env prev) then
      some (.str (buildDefaultJobNoteMd env out))
    else none

/-- Writes a field if there is a value for it. -/
def setSome (job : Job) (key : String) : Option PyVal → Job
  | none => job
  | some value => insert job key value

/-- `normalize_job_payload(payload, existing)`, called at the time `now`. -/
def normalizeJobPayload (now : DateTime) : Except CronError Job := do
  let (mode, scheduleMode) ← normalizeScheduleMode env payload existing
  let name ← normalizeName env payload existing
  let objective ← normalizeObjective env payload existing
  let conversationId ← normalizeConversationId env payload existing
  let (cron, runAt) ← normalizeSchedule env payload existing mode now
  let timezone ← normalizeTimezone env payload existing
  let maxLoops ← normalizeMaxLoops env payload existing
  let createdBy ← normalizeCreatedBy env payload existing
  let out := setSome (existing.getD []) "schedule_mode" scheduleMode
  let out := setSome (setSome out "name" name) "objective" objective
  let out := setSome (setSome out "conversation_id" conversationId) "cron" cron
  let out := setSome (setSome out "run_at" runAt) "timezone" timezone
  let out := setSome (setSome out "max_loops" maxLoops) "created_by" createdBy
  let out := setSome out "enabled" (normalizeEnabled payload existing)
  let out := setSome out "user_approved" (normalizeUserApproved payload existing)
  let out := setSome out "reference_links" (normalizeReferences env payload).1
  let out := setSome out "reference_source" (normalizeReferences env payload).2
  return setSome out "job_note_md" (normalizeJobNote env payload existing out)

end Fields

/-! ### What a normalised job holds -/

lemma get?_setSome (job : Job) (key key' : String) (value : Option PyVal) :
    get? (setSome job key value) key' =
      if key' = key then value.or (get? job key) else get? job key' := by
  cases value with
  | none =>
    by_cases h : key' = key
    · simp [setSome, h]
    · simp [setSome, h]
  | some v => simp [setSome, get?_insert]

lemma isSome_get?_setSome {job : Job} {key' : String} (h : (get? job key').isSome) (key : String)
    (value : Option PyVal) : (get? (setSome job key value) key').isSome := by
  rw [get?_setSome]
  split
  · cases value with
    | none => simpa using ‹key' = key› ▸ h
    | some v => rfl
  · exact h

/-- The fields `normalize_job_payload` writes. -/
def normalizedFields : List String :=
  ["schedule_mode", "name", "objective", "conversation_id", "cron", "run_at", "timezone",
    "max_loops", "created_by", "enabled", "user_approved", "reference_links", "reference_source",
    "job_note_md"]

/-- The result of `normalize_job_payload`, field by field, as far as the scheduler reads it: a
field comes from its own function, or stays. -/
structure Normalizes (payload : PyDict) (existing : Option Job) (now : DateTime) (out : Job) :
    Prop where
  schedule : ∃ mode scheduleMode,
    normalizeScheduleMode env payload existing = .ok (mode, scheduleMode) ∧
    get? out "schedule_mode" = scheduleMode.or (get? (existing.getD []) "schedule_mode") ∧
    ((mode = "recurring" ∧ ∃ fields, normalizeRecurring env payload existing = .ok fields ∧
        get? out "cron" = fields.1.or (get? (existing.getD []) "cron")) ∨
      (mode ≠ "recurring" ∧ ∃ cron runAt, normalizeOneShotCron env payload existing = .ok cron ∧
        normalizeRunAt env payload existing now = .ok runAt ∧
        get? out "cron" = cron.or (get? (existing.getD []) "cron") ∧
        get? out "run_at" = some runAt))
  name : ∃ value, normalizeName env payload existing = .ok value ∧
    get? out "name" = value.or (get? (existing.getD []) "name")
  objective : ∃ value, normalizeObjective env payload existing = .ok value ∧
    get? out "objective" = value.or (get? (existing.getD []) "objective")
  conversationId : ∃ value, normalizeConversationId env payload existing = .ok value ∧
    get? out "conversation_id" = value.or (get? (existing.getD []) "conversation_id")
  timezone : ∃ value, normalizeTimezone env payload existing = .ok value ∧
    get? out "timezone" = value.or (get? (existing.getD []) "timezone")
  maxLoops : ∃ value, normalizeMaxLoops env payload existing = .ok value ∧
    get? out "max_loops" = value.or (get? (existing.getD []) "max_loops")
  other : ∀ key ∉ normalizedFields, get? out key = get? (existing.getD []) key
  keeps : ∀ key, (get? (existing.getD []) key).isSome → (get? out key).isSome

variable {env}

theorem normalizes_of_ok {payload : PyDict} {existing : Option Job} {now : DateTime} {out : Job}
    (h : normalizeJobPayload env payload existing now = .ok out) :
    Normalizes env payload existing now out := by
  unfold normalizeJobPayload at h
  obtain ⟨⟨mode, scheduleMode⟩, hmode, h⟩ := ok_of_bind h
  obtain ⟨name, hname, h⟩ := ok_of_bind h
  obtain ⟨objective, hobjective, h⟩ := ok_of_bind h
  obtain ⟨conversationId, hconversationId, h⟩ := ok_of_bind h
  obtain ⟨⟨cron, runAt⟩, hschedule, h⟩ := ok_of_bind h
  obtain ⟨timezone, htimezone, h⟩ := ok_of_bind h
  obtain ⟨maxLoops, hmaxLoops, h⟩ := ok_of_bind h
  obtain ⟨createdBy, -, h⟩ := ok_of_bind h
  obtain rfl := Except.ok.inj h
  constructor
  case schedule =>
    refine ⟨mode, scheduleMode, hmode, by simp [get?_setSome], ?_⟩
    unfold normalizeSchedule at hschedule
    by_cases hrec : mode = "recurring"
    · rw [if_pos hrec] at hschedule
      exact .inl ⟨hrec, _, hschedule, by simp [get?_setSome]⟩
    · rw [if_neg hrec] at hschedule
      obtain ⟨cron', hcron, hrest⟩ := ok_of_bind hschedule
      obtain ⟨runAt', hrunAt, hrest⟩ := ok_of_bind hrest
      obtain ⟨rfl, rfl⟩ := Prod.mk.inj (Except.ok.inj hrest)
      exact .inr ⟨hrec, _, _, hcron, hrunAt, by simp [get?_setSome], by simp [get?_setSome]⟩
  case name => exact ⟨name, hname, by simp [get?_setSome]⟩
  case objective => exact ⟨objective, hobjective, by simp [get?_setSome]⟩
  case conversationId => exact ⟨conversationId, hconversationId, by simp [get?_setSome]⟩
  case timezone => exact ⟨timezone, htimezone, by simp [get?_setSome]⟩
  case maxLoops => exact ⟨maxLoops, hmaxLoops, by simp [get?_setSome]⟩
  case other =>
    intro key hkey
    simp only [normalizedFields, List.mem_cons, List.not_mem_nil, or_false, not_or] at hkey
    simp only [get?_setSome]
    simp [hkey]
  case keeps =>
    intro key hkey
    repeat' apply isSome_get?_setSome
    exact hkey

end Trion.Cron
