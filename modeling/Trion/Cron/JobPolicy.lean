import Trion.Cron.JobNormalizer

/-!
# The policy of the cron server

What `create_job` and `update_job` ask of a normalised job (limits on the number of jobs, the
smallest interval of a cron expression, the rules for jobs the agent makes), and what stands
between a due job and its place in the queue.
-/

namespace Trion.Cron

open Trion.Python OrderedDict

variable (env : CronRuntime)

/-- A run that waits in the queue or is carried out. -/
structure RunItem where
  runId : String
  cronJobId : String
  queuedAt : String
  reason : String
deriving DecidableEq, Repr

/-- `AutonomyCronScheduler._policy`, as far as the modelled code reads it. -/
structure Policy where
  maxJobs : ℤ
  maxJobsPerConversation : ℤ
  minIntervalS : ℤ
  maxPendingRuns : ℤ
  maxPendingRunsPerJob : ℤ
  manualRunCooldownS : ℤ
  trionSafeMode : Bool
  trionMinIntervalS : ℤ
  trionMaxLoops : ℤ
  trionRequireApprovalForRisky : Bool
deriving Repr

/-- The policy of a scheduler made with the default arguments. -/
def Policy.default : Policy where
  maxJobs := 200
  maxJobsPerConversation := 30
  minIntervalS := 300
  maxPendingRuns := 500
  maxPendingRunsPerJob := 2
  manualRunCooldownS := 30
  trionSafeMode := true
  trionMinIntervalS := 900
  trionMaxLoops := 12
  trionRequireApprovalForRisky := true

/-- The policy `AutonomyCronScheduler.__init__` makes of its arguments. -/
def Policy.configured (arguments : Policy) : Policy where
  maxJobs := max 1 arguments.maxJobs
  maxJobsPerConversation := max 1 arguments.maxJobsPerConversation
  minIntervalS := max 60 arguments.minIntervalS
  maxPendingRuns := max 1 arguments.maxPendingRuns
  maxPendingRunsPerJob := max 1 arguments.maxPendingRunsPerJob
  manualRunCooldownS := max 0 arguments.manualRunCooldownS
  trionSafeMode := arguments.trionSafeMode
  trionMinIntervalS := max 60 arguments.trionMinIntervalS
  trionMaxLoops := max 1 arguments.trionMaxLoops
  trionRequireApprovalForRisky := arguments.trionRequireApprovalForRisky

/-- `raise CronPolicyError(...)`. -/
def violation {α : Type} (errorCode message : String) (statusCode : ℤ) (details : PyDict) :
    Except CronError α :=
  .error (.policy ⟨errorCode, message, statusCode, details⟩)

/-- A check that raises a policy error has been passed. -/
lemma ok_of_violation {α : Type} {p : Prop} [Decidable p] {errorCode message : String}
    {statusCode : ℤ} {details : PyDict} {rest : Except CronError α} {a : α}
    (h : (if p then (violation errorCode message statusCode details : Except CronError PUnit) >>=
      fun _ => rest else rest) = .ok a) : ¬ p ∧ rest = .ok a := by
  split at h
  · simp [violation, bind, Except.bind] at h
  · rename_i hp
    exact ⟨hp, h⟩

/-! ### Keywords -/

/-- `\b` between two characters, either of which may be missing. -/
def isBoundary (a b : Option Char) : Bool :=
  a.any env.isWordChar != b.any env.isWordChar

/-- `re.search(r"\btoken\b", text)` from a position on, where `prev` is the character before. -/
def wordSearch (token : List Char) (prev : Option Char) : List Char → Bool
  | [] => false
  | c :: cs =>
    (token.isPrefixOf (c :: cs) && isBoundary env prev (some c) &&
      isBoundary env token.getLast? ((c :: cs).drop token.length).head?) ||
      wordSearch token (some c) cs

/-- `collect_keyword_hits`. -/
def collectKeywordHits (text : String) (keywords : List String) : List String :=
  let raw := env.lower text
  ((keywords.filter fun key =>
    let token := env.lower (strip key)
    if token = "" then false
    else if ' ' ∈ token.toList ∨ '-' ∈ token.toList ∨ '/' ∈ token.toList then containsStr raw token
    else wordSearch env token.toList none raw.toList).map fun key => env.lower (strip key)).eraseDups

/-- A list of keywords as a value. -/
def keywordList (keywords : List String) : PyVal := .list (keywords.map .str)

/-! ### Jobs of the agent -/

/-- `parsed_expr` of the store, whose cache changes no result. -/
def parsedExpr (expr : String) : Except CronError ParsedCron :=
  parseCronExpression env.toPyRuntime (strip expr)

/-- The interval the agent's jobs are judged by: the one computed before, or that of the stored
expression. -/
def trionInterval (normalized existing : Job) (minIntervalS : Option ℤ) :
    Except CronError (Option ℤ) :=
  match minIntervalS with
  | some interval => .ok (some interval)
  | none =>
    let cronExpr := strip (((get? normalized "cron").getD
      ((get? existing "cron").getD (.str ""))).toStr env.toPyRuntime)
    if cronExpr = "" then .ok none
    else (parsedExpr env cronExpr).map fun parsed => some (estimateMinIntervalSeconds parsed)

/-- `enforce_trion_policy`. -/
def enforceTrionPolicy (policy : Policy) (normalized existing : Job) (minIntervalS : Option ℤ)
    (scheduleMode : String) : Except CronError Unit := do
  let field (key : String) (default : PyVal) : PyVal :=
    (get? normalized key).getD ((get? existing key).getD default)
  let actor := env.lower (strip ((field "created_by" (.str "user")).toStr env.toPyRuntime))
  if actor ≠ "trion" ∨ policy.trionSafeMode = false then return
  let objective := strip ((field "objective" (.str "")).toStr env.toPyRuntime)
  if objective = "" then
    violation "cron_trion_objective_required" "trion cron objective is required" 400 []
  let hardHits := collectKeywordHits env objective trionObjectiveHardBlockHints
  if hardHits ≠ [] then
    violation "cron_trion_objective_forbidden" "trion objective contains forbidden action pattern"
      403 [("forbidden_keywords", keywordList hardHits)]
  let allowHits := collectKeywordHits env objective trionObjectiveAllowedHints
  if allowHits = [] then
    violation "cron_trion_objective_not_allowed"
      "trion objective does not match allowed automation categories" 409
      [("required_any_of", keywordList trionObjectiveAllowedHints)]
  let maxLoops ← ((field "max_loops" (.int 10)).toInt env.toPyRuntime).mapError .python
  if maxLoops > policy.trionMaxLoops then
    let limit := policy.trionMaxLoops
    violation "cron_trion_max_loops_violation"
      s!"trion max_loops {maxLoops} exceeds policy limit {limit}" 409
      [("max_loops", .int maxLoops), ("trion_max_loops", .int limit)]
  if scheduleMode ≠ "one_shot" then
    match ← trionInterval env normalized existing minIntervalS with
    | none => pure ()
    | some interval =>
      let limit := policy.trionMinIntervalS
      if interval < limit then
        violation "cron_trion_min_interval_violation"
          s!"trion cron interval {interval}s is below trion minimum {limit}s" 409
          [("interval_s", .int interval), ("trion_min_interval_s", .int limit)]
  if policy.trionRequireApprovalForRisky = false then return
  let riskyHits := collectKeywordHits env objective trionObjectiveRiskyHints
  let approved := (field "user_approved" (.bool false)).truthy
  let unapproved := riskyHits.filter fun kw =>
    !((trionRiskyContextApproved.lookup kw).getD []).any (allowHits.contains ·)
  if unapproved ≠ [] ∧ approved = false then
    violation "cron_trion_approval_required" "trion objective requires explicit user approval" 409
      [("risk_keywords", keywordList unapproved), ("requires", .str "user_approved=true")]

/-! ### All jobs -/

/-- `count_jobs_for_conversation`. -/
def countJobsForConversation (jobs : List (String × Job)) (conversationId excludeJobId : String) :
    ℕ :=
  (jobs.filter fun entry => entry.1 != strip excludeJobId &&
    strip (strField env entry.2 "conversation_id" "") == strip conversationId).length

/-- There is room for a new job. -/
def checkJobCount (policy : Policy) (jobs : List (String × Job)) (existing : Option Job) :
    Except CronError Unit :=
  let maxJobs := policy.maxJobs
  if existing.isNone ∧ (jobs.length : ℤ) ≥ maxJobs then
    violation "cron_max_jobs_reached" s!"max cron jobs reached ({maxJobs})" 409
      [("max_jobs", .int maxJobs)]
  else .ok ()

/-- There is room for a job in a conversation it is new in. -/
def checkConversation (policy : Policy) (jobs : List (String × Job)) (normalized : Job)
    (existing : Option Job) (jobId : String) : Except CronError Unit :=
  let curConv := strip (strField env (existing.getD []) "conversation_id" "")
  let newConv := strip (strField env normalized "conversation_id" "")
  let limit := policy.maxJobsPerConversation
  if (existing.isNone ∨ newConv ≠ curConv) ∧
      (countJobsForConversation env jobs newConv jobId : ℤ) ≥ limit then
    violation "cron_conversation_limit_reached"
      s!"conversation '{newConv}' reached cron limit ({limit})" 409
      [("conversation_id", .str newConv), ("max_jobs_per_conversation", .int limit)]
  else .ok ()

/-- The mode the policy judges by. -/
def policyMode (normalized : Job) (existing : Option Job) : String :=
  let raw := (get? normalized "schedule_mode").getD
    ((get? (existing.getD []) "schedule_mode").getD (.str "recurring"))
  orElse (env.lower (strip (raw.toStr env.toPyRuntime))) "recurring"

/-- The smallest interval of the expression, if it must be checked: an expression of a recurring
job that is new or has changed. -/
def checkInterval (policy : Policy) (normalized : Job) (existing : Option Job)
    (scheduleMode : String) : Except CronError (Option ℤ) :=
  let curCron := strip (strField env (existing.getD []) "cron" "")
  let newCron := strip (strField env normalized "cron" "")
  if scheduleMode ≠ "one_shot" ∧ (existing.isNone ∨ newCron ≠ curCron) then
    match parsedExpr env newCron with
    | .error error => .error error
    | .ok parsed =>
      let interval := estimateMinIntervalSeconds parsed
      let limit := policy.minIntervalS
      if interval < limit then
        violation "cron_min_interval_violation"
          s!"cron interval {interval}s is below policy minimum {limit}s" 409
          [("interval_s", .int interval), ("min_interval_s", .int limit)]
      else .ok (some interval)
  else .ok none

/-- `enforce_job_policy`. -/
def enforceJobPolicy (policy : Policy) (jobs : List (String × Job)) (normalized : Job)
    (existing : Option Job) (jobId : String) : Except CronError Unit := do
  checkJobCount policy jobs existing
  checkConversation env policy jobs normalized existing jobId
  let scheduleMode := policyMode env normalized existing
  let interval ← checkInterval env policy normalized existing scheduleMode
  enforceTrionPolicy env policy normalized (existing.getD []) interval scheduleMode

variable {env} in
/-- An expression that is checked has passed. -/
lemma interval_of_checkInterval {policy : Policy} {normalized : Job} {existing : Option Job}
    {scheduleMode : String} {interval : Option ℤ}
    (h : checkInterval env policy normalized existing scheduleMode = .ok interval)
    (hmode : scheduleMode ≠ "one_shot")
    (hnew : existing.isNone ∨ strip (strField env normalized "cron" "") ≠
      strip (strField env (existing.getD []) "cron" "")) :
    ∃ parsed, parsedExpr env (strip (strField env normalized "cron" "")) = .ok parsed ∧
      policy.minIntervalS ≤ estimateMinIntervalSeconds parsed := by
  unfold checkInterval at h
  dsimp only at h
  rw [if_pos ⟨hmode, hnew⟩] at h
  split at h
  · simp at h
  · rename_i parsed hparsed
    split at h
    · simp [violation] at h
    · rename_i hle
      exact ⟨parsed, hparsed, Int.not_lt.mp hle⟩

/-! ### Runs -/

/-- `check_enqueue_policy`: the policy error that keeps a run out of the queue, if any. -/
def checkEnqueuePolicy (cronJobId reason : String) (now : DateTime) (pending : List RunItem)
    (running : List (String × RunItem)) (jobs : List (String × Job))
    (maxPendingRuns maxPendingRunsPerJob manualRunCooldownS : ℤ) : Option CronPolicyError :=
  let ofJob (item : RunItem) : Bool := item.cronJobId == cronJobId
  let jobRuns := (pending.filter ofJob).length + (running.filter fun e => ofJob e.2).length
  if ((pending.length + running.length : ℕ) : ℤ) ≥ maxPendingRuns then
    some ⟨"cron_queue_capacity_reached", s!"cron queue capacity reached ({maxPendingRuns})", 429,
      [("max_pending_runs", .int maxPendingRuns)]⟩
  else if (jobRuns : ℤ) ≥ maxPendingRunsPerJob then
    some ⟨"cron_job_backlog_limit_reached",
      s!"cron job backlog reached ({maxPendingRunsPerJob})", 429,
      [("max_pending_runs_per_job", .int maxPendingRunsPerJob)]⟩
  else if reason ∈ ["manual", "tool"] ∧ manualRunCooldownS > 0 then
    let job := (get? jobs cronJobId).getD []
    match parseIsoDatetime env (strField env job "last_manual_trigger_at" "") with
    | none => none
    | some lastManualAt =>
      let elapsed := max 0 (now.secondsSince lastManualAt)
      let retryAfter := manualRunCooldownS - elapsed
      if retryAfter > 0 then
        some ⟨"cron_run_now_cooldown", s!"run-now cooldown active ({retryAfter}s remaining)", 429,
          [("retry_after_s", .int retryAfter)]⟩
      else none
  else none

end Trion.Cron
