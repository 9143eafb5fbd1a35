import Mathlib.Algebra.Order.Ring.Rat
import Trion.Library.OperationRun
import Trion.Skills.Packages

/-!
# Autonomous skills

`process_autonomous_task` of the mini control layer: reuse of a skill that is there, the policy
for new ones, the loop that generates, checks and repairs the code, the installation and the
run.  What the code generator, the tool executor, the secret scanner and the validator answer is
given from outside, answer by answer, and what the layer does with it is kept as a list of
events.
-/

namespace Trion.Skills

open Trion.Python

/-! ### Tasks and answers -/

/-- `AutonomousTaskRequest`, as far as the decisions read it. -/
structure AutonomousTaskRequest where
  complexity : ℤ := 5
  allowAutoCreate : Bool := true
  executeAfterCreate : Bool := true
  preferCreate : Bool := false

/-- `AutonomousTaskResult`. -/
structure AutonomousTaskResult where
  success : Bool
  actionTaken : String
  skillName : Option String := none
  skillCreated : Bool := false
  executionResult : PyVal := .none
  error : PyVal := .none
  validationScore : ℚ := 0
  message : String := ""

/-- The settings of `SkillMiniControl`; `manualOnly` is the package mode `manual_only`. -/
structure ControlConfig where
  autoCreateThreshold : ℤ := 4
  autoCreateDeepThreshold : ℤ := 10
  autoCreateEscalateToDeep : Bool := true
  autoRepairOnValidationFail : Bool := true
  autoRepairMaxAttempts : ℕ := 1
  manualOnly : Bool := false

/-- `ValidationIssue`, without what nothing here reads. -/
structure ValidationIssue where
  severity : String
  pattern : String
  description : String
  remediation : String

/-- `ValidationResult`. -/
structure ValidationResult where
  passed : Bool
  issues : List ValidationIssue := []
  score : ℚ := 1

/-- What becomes of `scanner.enforce(code)`: it raises, or it returns its verdict. -/
inductive ScanReply where
  | raises
  | returns (passed : Bool) (warnings : List String) (error : Option String)

/-- What is answered in one pass of the loop. -/
structure PassAnswers where
  inventory : Inventory
  allowlist : HttpReply
  install : String → HttpReply
  scan : ScanReply
  validation : Except PyError ValidationResult

/-- What becomes of a `POST` to `/v1/skills/create`. -/
inductive CreateReply where
  | raises (text : String)
  | notJson (text : String)
  | json (value : PyVal)

/-- What becomes of a `POST` to `/v1/skills/run`. -/
inductive RunReply where
  | raises (text : String)
  | json (value : PyVal)

/-- All that is answered in the course of a task. -/
structure TaskAnswers where
  isExplicitCreate : Bool
  matchingSkill : Option String
  gapQuestion : Option String
  skillName : String
  generate : ℕ → Option String
  pass : ℕ → PassAnswers
  create : String → CreateReply
  runExisting : RunReply
  runNew : RunReply

/-- The `control_decision` that goes with an installation. -/
structure ControlDecision where
  action : String
  reason : String
  warnings : List String
  validationScore : ℚ

/-- What the layer does, in order. -/
inductive Event where
  | skillRun (name : String)
  | generated (code : Option String)
  | missing (code : String) (packages : List String)
  | allowlist (packages : List String)
  | packageInstalled (package : String) (success : Bool)
  | scanned (code : String) (passed : Option Bool)
  | validated (code : String) (passed : Bool)
  | installRequested (url name code : String) (decision : ControlDecision)
  | installAnswered (answer : PyVal)

/-- How the processing of a task ends. -/
abbrev Outcome := Except PyError AutonomousTaskResult

section Processing

variable (rt : SkillRuntime) (cfg : ControlConfig) (task : AutonomousTaskRequest)
  (answers : TaskAnswers)

/-! ### Policy -/

/-- `_should_auto_create`. -/
def shouldAutoCreate : Bool :=
  task.allowAutoCreate && decide (task.complexity ≤ cfg.autoCreateThreshold)

/-- `_should_escalate_to_deep_codegen`. -/
def shouldEscalateToDeepCodegen : Bool :=
  task.allowAutoCreate && cfg.autoCreateEscalateToDeep &&
    decide (task.complexity ≤ cfg.autoCreateDeepThreshold)

/-! ### Skill runs -/

/-- `{"success": False, "error": str(e)}`. -/
def failedRun (text : String) : PyVal := .dict [("success", .bool false), ("error", .str text)]

/-- `text in items` for a list. -/
def listHolds (items : List PyVal) (text : String) : Bool :=
  items.any fun item =>
    match item with
    | .str s => s == text
    | _ => false

/-- `_run_skill`.  The answer is searched for `"result"` within the `try`, so an answer that
cannot be searched, or that cannot be written to, comes back as a failure. -/
def runSkill : RunReply → PyVal
  | .raises text => failedRun text
  | .json (.dict kvs) =>
    if PyDict.has kvs "result" && !PyDict.has kvs "success" then
      .dict (PyDict.set kvs "success" (.bool true))
    else .dict kvs
  | .json (.list items) =>
    if listHolds items "result" && !listHolds items "success" then
      failedRun "list indices must be integers or slices, not str"
    else .list items
  | .json (.str s) =>
    if containsStr s "result" && !containsStr s "success" then
      failedRun "'str' object does not support item assignment"
    else .str s
  | .json .none => failedRun "argument of type 'NoneType' is not iterable"
  | .json (.bool _) => failedRun "argument of type 'bool' is not iterable"
  | .json (.int _) => failedRun "argument of type 'int' is not iterable"
  | .json (.float _) => failedRun "argument of type 'float' is not iterable"
  -- `response.json()` gives no other values
  | .json value => value

/-- `_is_run_result_success`. -/
def isRunResultSuccess : PyVal → Bool
  | .dict run =>
    (PyDict.get run "success").truthy && !(PyDict.get run "error").truthy &&
      match PyDict.get run "result" with
      | .dict payload =>
        -- `payload.get("success") is False`
        (match PyDict.get payload "success" with
          | .bool false => false
          | _ => true) && !(PyDict.get payload "error").truthy
      | _ => true
  | _ => false

/-- `_extract_run_error`. -/
def extractRunError : PyVal → PyVal
  | .dict run =>
    let nested :=
      match PyDict.get run "result" with
      | .dict payload =>
        let nestedError := PyDict.get payload "error"
        if nestedError.truthy then .str (nestedError.toStr rt.toPyRuntime) else .none
      | _ => .none
    match PyDict.get run "error" with
    | .str error => if strip error = "" then nested else .str (strip error)
    | _ => nested
  | _ => .str "invalid_run_result"

/-! ### One pass of the loop -/

/-- `_summarize_validation_issues(validation, limit=3)`. -/
def summarizeValidationIssues (validation : ValidationResult) : List String :=
  let messages := (validation.issues.take 3).map fun issue =>
    let severity := rt.lower (orElse issue.severity "unknown")
    let described := strip issue.description
    let description :=
      if described = "" then strip (orElse issue.pattern "validation issue") else described
    let remediation := strip issue.remediation
    "[" ++ severity ++ "] " ++ description ++
      (if remediation = "" then "" else " | fix: " ++ remediation)
  if messages.isEmpty then ["[unknown] validation failed without issue details"] else messages

/-- `", ".join(items)`. -/
def commaSeparated (items : List String) : String :=
  String.intercalate ", " items

/-- `f"missing_packages:{','.join(packages)}"`. -/
def missingPackagesError (packages : List String) : PyVal :=
  .str ("missing_packages:" ++ String.intercalate "," packages)

/-- The names of packages as a list for the reader. -/
def quotedPackages (packages : List String) : String :=
  commaSeparated (packages.map fun p => "\x60" ++ p ++ "\x60")

/-- The check of the packages: what it does, and how the task ends where it does not go on. -/
def packageGate (pass : PassAnswers) (code : String) :
    List Event × Option AutonomousTaskResult :=
  let missing := checkMissingPackages rt pass.inventory code
  if missing = [] then ([.missing code missing], none)
  else if cfg.manualOnly then
    ([.missing code missing], some
      { success := false, actionTaken := "needs_package_install",
        skillName := answers.skillName, error := missingPackagesError missing,
        message := "Der Skill benötigt folgende Pakete die noch nicht installiert sind: " ++
          quotedPackages missing ++ "\n\nBitte installiere " ++
          (if 1 < missing.length then "sie" else "es") ++
          " zuerst, dann kann ich den Skill erstellen." })
  else
    let allowed := getPackageAllowlist rt pass.allowlist
    let nonAllowlisted := missing.filter fun p => rt.lower p ∉ allowed
    if nonAllowlisted ≠ [] then
      ([.missing code missing, .allowlist allowed], some
        { success := false, actionTaken := "pending_package_approval",
          skillName := answers.skillName, error := missingPackagesError missing,
          message := "Der Skill benötigt Pakete die nicht auf der Allowlist stehen: " ++
            quotedPackages nonAllowlisted ++ ". Bitte Admin-Freigabe einholen." })
    else
      let allowlisted := missing.filter fun p => rt.lower p ∈ allowed
      let installs := autoInstallPackages rt pass.install allowlisted
      let events := [.missing code missing, .allowlist allowed] ++
        installs.1.map fun tried => .packageInstalled tried.1 tried.2
      match installs.2 with
      | none => (events, none)
      | some error =>
        (events, some
          { success := false, actionTaken := "needs_package_install",
            skillName := answers.skillName, error := missingPackagesError allowlisted,
            message := "Auto-Installation der Pakete fehlgeschlagen: " ++ error })

/-- What a pass of the loop comes to: the task ends, the code is accepted with the warnings of
the scanner, or the validation has failed. -/
inductive PassExit where
  | ends (outcome : Outcome)
  | accepts (validation : ValidationResult) (warnings : List String)
  | rejects (validation : ValidationResult)

/-- `validate_code`, after the scan. -/
def validatePass (pass : PassAnswers) (code : String) (warnings : List String) :
    List Event × PassExit :=
  match pass.validation with
  | .error e => ([], .ends (.error e))
  | .ok validation =>
    ([.validated code validation.passed],
      if validation.passed then .accepts validation warnings else .rejects validation)

/-- The secret scanner and the validation. -/
def scanPass (pass : PassAnswers) (code : String) : List Event × PassExit :=
  match pass.scan with
  | .raises =>
    -- the exception is printed, and the code goes on without a verdict
    let next := validatePass pass code []
    (.scanned code none :: next.1, next.2)
  | .returns passed warnings error =>
    if passed then
      let next := validatePass pass code warnings
      (.scanned code (some true) :: next.1, next.2)
    else
      ([.scanned code (some false)], .ends (.ok
        { success := false, actionTaken := "validation_failed",
          error := (error.map PyVal.str).getD .none,
          message := "Generated code violated secret policy (secret_policy_violation)" }))

/-- One pass of the loop. -/
def checkPass (pass : PassAnswers) (code : String) : List Event × PassExit :=
  match packageGate rt cfg answers pass code with
  | (events, some result) => (events, .ends (.ok result))
  | (events, none) =>
    let next := scanPass pass code
    (events ++ next.1, next.2)

/-! ### The loop -/

/-- What the loop comes to. -/
inductive LoopExit where
  | ends (outcome : Outcome)
  | accepts (code : String) (validation : ValidationResult) (warnings : List String)

/-- `if not generated_code`. -/
def generatedCode (n : ℕ) : Option String :=
  (answers.generate n).filter fun code => code ≠ ""

/-- The result where the validation has failed for the last time. -/
def validationFailed (validation : ValidationResult) : AutonomousTaskResult where
  success := false
  actionTaken := "validation_failed"
  error := .str ("Code validation failed: " ++
    rt.reprOf (.list ((summarizeValidationIssues rt validation).map PyVal.str)))
  validationScore := validation.score
  message := "Generated code did not pass safety validation"

/-- The result where no repaired code is generated. -/
def repairFailed : AutonomousTaskResult where
  success := false
  actionTaken := "generation_failed"
  error := .str "Code repair generation failed"
  message := "Could not repair generated code after validation failure"

/-- The loop `while True`, with the number of repairs that are left. -/
def checkLoop (remaining attempt : ℕ) (code : String) : List Event × LoopExit :=
  match checkPass rt cfg answers (answers.pass attempt) code with
  | (events, .ends outcome) => (events, .ends outcome)
  | (events, .accepts validation warnings) => (events, .accepts code validation warnings)
  | (events, .rejects validation) =>
    if cfg.autoRepairOnValidationFail then
      match remaining with
      | 0 => (events, .ends (.ok (validationFailed rt validation)))
      | remaining + 1 =>
        match generatedCode answers (attempt + 1) with
        | none => (events ++ [.generated none], .ends (.ok repairFailed))
        | some repaired =>
          let rest := checkLoop remaining (attempt + 1) repaired
          (events ++ .generated (some repaired) :: rest.1, rest.2)
    else (events, .ends (.ok (validationFailed rt validation)))

/-! ### Installation -/

/-- The candidates of `_install_skill`: the configured address and the two local ones. -/
def executorUrls (configured : String) : List String :=
  ["http://localhost:8000", "http://127.0.0.1:8000"].foldl addOnce
    (if configured = "" then [] else [configured])

/-- The control decision for the accepted code. -/
def controlDecision (validation : ValidationResult) (warnings : List String) :
    ControlDecision where
  action := if validation.issues.any fun i => rt.lower i.severity = "medium" then "warn" else "approve"
  reason := "Autonomous validation passed"
  warnings := ((validation.issues.filter fun i => rt.lower i.severity = "medium").map
    ValidationIssue.description) ++ warnings
  validationScore := validation.score

/-- The loop of `_install_skill` over the candidates. -/
def installFrom (name code : String) (decision : ControlDecision) : List String → List String → List Event × PyVal
  | [], errors => ([], .dict [("success", .bool false),
      ("error", .str "Skill installation request failed across all executor endpoints"),
      ("detail", .str (String.ofList ((String.intercalate "; " errors).toList.take 1500)))])
  | url :: urls, errors =>
    let request := Event.installRequested url name code decision
    let goesOn (error : String) :=
      let rest := installFrom name code decision urls (errors ++ [url ++ ": " ++ error])
      (request :: rest.1, rest.2)
    match answers.create url with
    | .raises text => goesOn text
    | .notJson text => goesOn text
    | .json (.dict kvs) => ([request, .installAnswered (.dict kvs)], .dict kvs)
    | .json _ => goesOn "unexpected response type"

/-- `_install_skill`. -/
def installSkill (configured name code : String) (decision : ControlDecision) :
    List Event × PyVal :=
  installFrom answers name code decision (executorUrls configured) []

/-- `install_result.get("passed", False) or
install_result.get("installation", {}).get("success", False)`. -/
def installSuccess (answer : PyVal) : Except PyError Bool :=
  match answer with
  | .dict kvs =>
    if (PyDict.get kvs "passed").truthy then .ok true
    else if PyDict.has kvs "installation" then
      ((PyDict.get kvs "installation").getAttr "success").map PyVal.truthy
    else .ok false
  | _ => .error .attributeError

/-- The error of a failed installation. -/
def installFailure (answer : PyVal) : PyVal :=
  match answer with
  | .dict kvs =>
    (PyDict.get kvs "detail").or
      (if PyDict.has kvs "error" then PyDict.get kvs "error" else .str "Installation failed")
  | _ => .none

/-- The installation of the accepted code, and the run of the new skill. -/
def installAndRun (configured : String) (reuseFailure : Option String) (code : String)
    (validation : ValidationResult) (warnings : List String) : List Event × Outcome :=
  let name := answers.skillName
  let installed :=
    installSkill answers configured name code (controlDecision rt validation warnings)
  match installSuccess installed.2 with
  | .error e => (installed.1, .error e)
  | .ok false =>
    (installed.1, .ok
      { success := false, actionTaken := "install_failed", skillName := name,
        error := installFailure installed.2, validationScore := validation.score })
  | .ok true =>
    if task.executeAfterCreate then
      let run := runSkill answers.runNew
      let events := installed.1 ++ [.skillRun name]
      match run.getAttr "result" with
      | .error e => (events, .error e)
      | .ok result =>
        (events, .ok
          { success := isRunResultSuccess run, actionTaken := "created_and_ran",
            skillName := name, skillCreated := true, executionResult := result,
            error := extractRunError rt run, validationScore := validation.score,
            message :=
              match reuseFailure with
              | none => "Created and executed new skill '" ++ name ++ "'"
              | some failing => "Replaced failing skill '" ++ failing ++ "' with new skill '" ++
                  name ++ "' and executed it" })
    else
      (installed.1, .ok
        { success := true, actionTaken := "created_new", skillName := name,
          skillCreated := true, validationScore := validation.score,
          message :=
            match reuseFailure with
            | none => "Created new skill '" ++ name ++ "' - ready to run"
            | some failing =>
              "Replaced failing skill '" ++ failing ++ "' with new skill '" ++ name ++ "'" })

/-! ### The task -/

/-- The generation, the loop and the installation. -/
def generateAndInstall (configured : String) (reuseFailure : Option String) :
    List Event × Outcome :=
  match generatedCode answers 0 with
  | none =>
    ([.generated none], .ok
      { success := false, actionTaken := "generation_failed",
        error := .str "Code generation failed", message := "Could not generate skill code" })
  | some code =>
    let checked := checkLoop rt cfg answers cfg.autoRepairMaxAttempts 0 code
    let events := .generated (some code) :: checked.1
    match checked.2 with
    | .ends outcome => (events, outcome)
    | .accepts code validation warnings =>
      let rest := installAndRun rt task answers configured reuseFailure code validation warnings
      (events ++ rest.1, rest.2)

/-- A new skill: the question for what is missing, and the policy. -/
def createSkill (configured : String) (reuseFailure : Option String) : List Event × Outcome :=
  match answers.gapQuestion with
  | some question =>
    ([], .ok { success := false, actionTaken := "needs_clarification", message := question })
  | none =>
    if shouldAutoCreate cfg task || shouldEscalateToDeepCodegen cfg task then
      generateAndInstall rt cfg task answers configured reuseFailure
    else
      ([], .ok
        { success := false, actionTaken := "escalated",
          error := .str "Task too complex for auto-creation",
          message := "Complexity (" ++ toString task.complexity ++
            ") exceeds deep auto-create threshold (" ++ toString cfg.autoCreateDeepThreshold ++
            "). User confirmation required." })

/-- `process_autonomous_task`, with the configured address of the executor. -/
def processAutonomousTask (configured : String) : List Event × Outcome :=
  match if task.preferCreate || answers.isExplicitCreate then none else answers.matchingSkill with
  | none => createSkill rt cfg task answers configured none
  | some existing =>
    if task.executeAfterCreate then
      let run := runSkill answers.runExisting
      let failed (outcome : Outcome) : List Event × Outcome := ([.skillRun existing], outcome)
      if isRunResultSuccess run then
        failed ((run.getAttr "result").map fun result =>
          { success := true, actionTaken := "used_existing", skillName := existing,
            executionResult := result, error := extractRunError rt run,
            message := "Used existing skill '" ++ existing ++ "'" })
      else if shouldAutoCreate cfg task then
        let created := createSkill rt cfg task answers configured (some existing)
        (.skillRun existing :: created.1, created.2)
      else
        failed ((run.getAttr "result").map fun result =>
          { success := false, actionTaken := "used_existing", skillName := existing,
            executionResult := result, error := extractRunError rt run,
            message := "Existing skill '" ++ existing ++
              "' failed and auto-create fallback is not allowed for this task" })
    else
      ([], .ok
        { success := true, actionTaken := "found_existing", skillName := existing,
          message := "Found matching skill '" ++ existing ++ "' - ready to run" })

end Processing

end Trion.Skills
