import Mathlib.Data.List.Basic
import Trion.Skills.MiniControl

/-!
# What is installed has been checked

The loop accepts a code only after its packages have been cleared and its validation has passed.
Where the scanner raises, the code goes on without a verdict, and an answer of the executor
counts as a success where it says `passed` only.  Apart from these two cases every installation
is one of the last generated code, which has passed all checks, and a skill is reported as
created only when the executor says so.
-/

namespace Trion.Skills

open Trion.Python OperationRun

variable {rt : SkillRuntime} {cfg : ControlConfig} {task : AutonomousTaskRequest}
  {answers : TaskAnswers} {configured : String}

/-! ### What is promised -/

/-- A code has been generated. -/
def Event.isGeneration : Event → Bool
  | .generated _ => true
  | _ => false

/-- An event of the check of the packages. -/
def Event.isPackageCheck : Event → Bool
  | .missing _ _ | .allowlist _ | .packageInstalled _ _ => true
  | _ => false

/-- An event of the checks of a code. -/
def Event.isCheck : Event → Bool
  | .scanned _ _ | .validated _ _ => true
  | e => e.isPackageCheck

/-- An event of an installation. -/
def Event.isInstallation : Event → Bool
  | .installRequested _ _ _ _ | .installAnswered _ => true
  | _ => false

/-- An installation is requested of the code that was generated last, after this code has passed
the scan and the validation and each of its missing packages was allowed and installed. -/
def RequestChecked (rt : SkillRuntime) (answers : TaskAnswers) (before : List Event) :
    Event → Prop
  | .installRequested _ _ code _ =>
    ∃ earlier round, before = earlier ++ .generated (some code) :: round ∧
      (∀ e ∈ round, e.isGeneration = false) ∧
      .scanned code (some true) ∈ round ∧ .validated code true ∈ round ∧
      ∃ n, .missing code (checkMissingPackages rt (answers.pass n).inventory code) ∈ round ∧
        ∀ package ∈ checkMissingPackages rt (answers.pass n).inventory code,
          (∃ allowed, .allowlist allowed ∈ round ∧ rt.lower package ∈ allowed) ∧
            .packageInstalled package true ∈ round
  | _ => True

/-- The answer of the executor says that the skill is installed. -/
def saysInstalled : PyVal → Bool
  | .dict kvs =>
    (PyDict.get kvs "success").truthy ||
      match PyDict.get kvs "installation" with
      | .dict installation => (PyDict.get installation "success").truthy
      | _ => false
  | _ => false

/-- What is installed has been checked, no more codes are generated than allowed, and a skill is
reported as created only when the executor says that it is installed. -/
structure InstalledAsChecked (rt : SkillRuntime) (cfg : ControlConfig)
    (task : AutonomousTaskRequest) (answers : TaskAnswers) (configured : String) : Prop where
  checked : EachEvent (RequestChecked rt answers)
    (processAutonomousTask rt cfg task answers configured).1
  generations : (processAutonomousTask rt cfg task answers configured).1.countP
    Event.isGeneration ≤ 1 + cfg.autoRepairMaxAttempts
  reported : ∀ result,
    (processAutonomousTask rt cfg task answers configured).2 = .ok result →
      result.skillCreated = true →
        ∃ answer, .installAnswered answer ∈
          (processAutonomousTask rt cfg task answers configured).1 ∧ saysInstalled answer = true

/-! ### Where it holds -/

/-- The task comes to a new skill: no skill is there to reuse, or it fails and may be replaced,
nothing has to be asked, and the policy allows it. -/
def createsNew (cfg : ControlConfig) (task : AutonomousTaskRequest) (answers : TaskAnswers) :
    Bool :=
  (task.preferCreate || answers.isExplicitCreate || answers.matchingSkill.isNone ||
      task.executeAfterCreate && !isRunResultSuccess (runSkill answers.runExisting) &&
        shouldAutoCreate cfg task) &&
    answers.gapQuestion.isNone &&
      (shouldAutoCreate cfg task || shouldEscalateToDeepCodegen cfg task)

/-- The packages of the code are cleared in the pass. -/
def cleared (rt : SkillRuntime) (cfg : ControlConfig) (answers : TaskAnswers) (n : ℕ)
    (code : String) : Bool :=
  (packageGate rt cfg answers (answers.pass n) code).2.isNone

/-- The scanner does not reject the code. -/
def ScanReply.goesOn : ScanReply → Bool
  | .raises => true
  | .returns passed _ _ => passed

/-- The pass is reached with the code: it is the first one, or the one before went through all
checks but the validation, and a repaired code was generated. -/
inductive Reached (rt : SkillRuntime) (cfg : ControlConfig) (task : AutonomousTaskRequest)
    (answers : TaskAnswers) : ℕ → String → Prop where
  | first {code : String} : createsNew cfg task answers = true →
      generatedCode answers 0 = some code → Reached rt cfg task answers 0 code
  | repair {n : ℕ} {code repaired : String} {validation : ValidationResult} :
      Reached rt cfg task answers n code → cleared rt cfg answers n code = true →
      (answers.pass n).scan.goesOn = true → (answers.pass n).validation = .ok validation →
      validation.passed = false → cfg.autoRepairOnValidationFail = true →
      n < cfg.autoRepairMaxAttempts → generatedCode answers (n + 1) = some repaired →
      Reached rt cfg task answers (n + 1) repaired

/-- The code is accepted in the pass. -/
structure Accepted (rt : SkillRuntime) (cfg : ControlConfig) (task : AutonomousTaskRequest)
    (answers : TaskAnswers) (n : ℕ) (code : String) : Prop where
  reached : Reached rt cfg task answers n code
  cleared : cleared rt cfg answers n code = true
  scanned : (answers.pass n).scan.goesOn = true
  validated : ∃ validation, (answers.pass n).validation = .ok validation ∧
    validation.passed = true

/-- The answer to a request is an object. -/
def CreateReply.object? : CreateReply → Option PyDict
  | .json (.dict kvs) => some kvs
  | _ => none

/-- The first object that an executor answers. -/
def firstAnswer (answers : TaskAnswers) (configured : String) : Option PyDict :=
  (executorUrls configured).findSome? fun url => (answers.create url).object?

/-- In the pass that accepts the code, the scanner does not raise; and where the executor answers
`passed`, it also says that the skill is installed, unless the new skill is run and answers with
no object. -/
def Vouched (rt : SkillRuntime) (cfg : ControlConfig) (task : AutonomousTaskRequest)
    (answers : TaskAnswers) (configured : String) : Prop :=
  ∀ n code, Accepted rt cfg task answers n code →
    (answers.pass n).scan ≠ .raises ∧
      ∀ kvs, firstAnswer answers configured = some kvs →
        (PyDict.get kvs "passed").truthy = true → saysInstalled (.dict kvs) = true ∨
          task.executeAfterCreate = true ∧ (runSkill answers.runNew).asDict? = none

/-- The warnings that go on with the code. -/
def ScanReply.warnings : ScanReply → List String
  | .raises => []
  | .returns _ warnings _ => warnings

/-- The verdict of the scanner, where it returns. -/
def ScanReply.verdict : ScanReply → Option Bool
  | .raises => none
  | .returns passed _ _ => some passed

/-! ### Lists of events -/

/-- The events after the last one with the property. -/
lemma eq_of_last {p : Event → Bool} {a a' r r' : List Event} {g g' : Event}
    (h : a ++ g :: r = a' ++ g' :: r') (hg : p g = true) (hg' : p g' = true)
    (hr : ∀ e ∈ r, p e = false) (hr' : ∀ e ∈ r', p e = false) : r = r' := by
  have hlast {a r : List Event} {g : Event} (hg : p g = true) (hr : ∀ e ∈ r, p e = false) :
      ((a ++ g :: r).reverse.takeWhile fun e => !p e).reverse = r := by
    rw [List.reverse_append, List.reverse_cons, List.append_assoc, List.takeWhile_append_of_pos]
    · simp [hg]
    · intro e he
      simp [hr e (List.mem_reverse.mp he)]
  rw [← hlast (a := a) hg hr, h, hlast hg' hr']

/-- The result does not report a new skill. -/
def Outcome.reportsNone (outcome : Outcome) : Prop :=
  ∀ result, outcome = .ok result → result.skillCreated = false

/-! ### The packages -/

section Packages

variable {pass : PassAnswers} {code : String}

lemma autoInstallPackages_of_none {replies : String → HttpReply} {packages : List String}
    (h : (autoInstallPackages rt replies packages).2 = none) :
    ∀ package ∈ packages, (package, true) ∈ (autoInstallPackages rt replies packages).1 := by
  induction packages with
  | nil => simp
  | cons package rest ih =>
    simp only [autoInstallPackages] at h ⊢
    split at h
    · cases h
    · rename_i hinstalled
      intro p hp
      obtain rfl | hp := List.mem_cons.mp hp
      · exact List.mem_cons_self
      · exact List.mem_cons_of_mem _ (ih h p hp)

lemma packageGate_events :
    ∀ e ∈ (packageGate rt cfg answers pass code).1, e.isPackageCheck = true := by
  simp only [packageGate]
  split
  · simp [Event.isPackageCheck]
  split
  · simp [Event.isPackageCheck]
  split
  · simp [Event.isPackageCheck]
  split <;> intro e he <;> simp only [List.mem_append, List.mem_cons, List.not_mem_nil, or_false,
      List.mem_map] at he <;> rcases he with (rfl | rfl) | ⟨tried, -, rfl⟩ <;> rfl

/-- Where the check of the packages goes on, each missing package is allowed and installed. -/
theorem packageGate_cleared (h : (packageGate rt cfg answers pass code).2 = none) :
    .missing code (checkMissingPackages rt pass.inventory code) ∈
        (packageGate rt cfg answers pass code).1 ∧
      ∀ package ∈ checkMissingPackages rt pass.inventory code,
        (∃ allowed, .allowlist allowed ∈ (packageGate rt cfg answers pass code).1 ∧
          rt.lower package ∈ allowed) ∧
        .packageInstalled package true ∈ (packageGate rt cfg answers pass code).1 := by
  unfold packageGate at h ⊢
  dsimp only at h ⊢
  generalize checkMissingPackages rt pass.inventory code = missing at h ⊢
  by_cases hnone : missing = []
  · simp [hnone]
  by_cases hmode : cfg.manualOnly = true
  · simp [hnone, hmode] at h
  by_cases hallowed : (missing.filter fun p =>
      rt.lower p ∉ getPackageAllowlist rt pass.allowlist) = []
  swap
  · rw [if_neg hnone, if_neg hmode, if_pos hallowed] at h
    cases h
  simp only [hnone, hmode, hallowed, ne_eq, not_true_eq_false, Bool.false_eq_true, if_false]
    at h ⊢
  have hall : ∀ package ∈ missing,
      rt.lower package ∈ getPackageAllowlist rt pass.allowlist := by
    intro package hpackage
    simpa using List.filter_eq_nil_iff.mp hallowed package hpackage
  have hsame : (missing.filter fun p =>
      decide (rt.lower p ∈ getPackageAllowlist rt pass.allowlist)) = missing :=
    List.filter_eq_self.mpr fun package hpackage => by simpa using hall package hpackage
  rw [hsame] at h ⊢
  split at h
  · rename_i hinstalled
    refine ⟨by simp, fun package hpackage => ⟨⟨_, by simp, hall package hpackage⟩, ?_⟩⟩
    refine List.mem_append_right _ (List.mem_map.mpr ⟨(package, true), ?_, rfl⟩)
    exact autoInstallPackages_of_none hinstalled package hpackage
  · cases h

end Packages

/-! ### One pass -/

section Pass

variable {pass : PassAnswers} {code : String} {validation : ValidationResult}
  {warnings : List String}

lemma validatePass_events : ∀ e ∈ (validatePass pass code warnings).1, e.isCheck = true := by
  unfold validatePass
  split <;> simp [Event.isCheck]

lemma scanPass_events : ∀ e ∈ (scanPass pass code).1, e.isCheck = true := by
  unfold scanPass
  split
  · exact List.forall_mem_cons.mpr ⟨rfl, validatePass_events⟩
  split
  · exact List.forall_mem_cons.mpr ⟨rfl, validatePass_events⟩
  · simp [Event.isCheck]

lemma isCheck_of_isPackageCheck {e : Event} (h : e.isPackageCheck = true) : e.isCheck = true := by
  cases e <;> simp_all [Event.isCheck, Event.isPackageCheck]

/-- A pass consists of checks. -/
lemma checkPass_events : ∀ e ∈ (checkPass rt cfg answers pass code).1, e.isCheck = true := by
  have hgate : ∀ e ∈ (packageGate rt cfg answers pass code).1, e.isCheck = true :=
    fun e he => isCheck_of_isPackageCheck (packageGate_events e he)
  unfold checkPass
  split
  · rename_i heq
    rwa [heq] at hgate
  · rename_i heq
    rw [heq] at hgate
    exact List.forall_mem_append.mpr ⟨hgate, scanPass_events⟩

/-- What the validation comes to where it returns. -/
lemma validatePass_of_ok (h : pass.validation = .ok validation) :
    validatePass pass code warnings = ([.validated code validation.passed],
      if validation.passed then .accepts validation warnings else .rejects validation) := by
  simp [validatePass, h]

lemma scanPass_of_goesOn (h : pass.scan.goesOn = true) :
    scanPass pass code =
      (.scanned code pass.scan.verdict :: (validatePass pass code pass.scan.warnings).1,
        (validatePass pass code pass.scan.warnings).2) := by
  cases hscan : pass.scan with
  | raises => simp [scanPass, hscan, ScanReply.verdict, ScanReply.warnings]
  | returns passed warnings error =>
    rw [hscan] at h
    have hpassed : passed = true := h
    simp [scanPass, hscan, hpassed, ScanReply.verdict, ScanReply.warnings]

/-- The pass of a code that goes through all checks but, it may be, the validation. -/
lemma checkPass_of_cleared (hgate : (packageGate rt cfg answers pass code).2 = none)
    (hscan : pass.scan.goesOn = true) (hvalidation : pass.validation = .ok validation) :
    checkPass rt cfg answers pass code =
      ((packageGate rt cfg answers pass code).1 ++
          [.scanned code pass.scan.verdict, .validated code validation.passed],
        if validation.passed then .accepts validation pass.scan.warnings
        else .rejects validation) := by
  have hpair : packageGate rt cfg answers pass code =
      ((packageGate rt cfg answers pass code).1, none) := Prod.ext rfl hgate
  unfold checkPass
  rw [hpair, scanPass_of_goesOn hscan, validatePass_of_ok hvalidation]

/-- A pass that does not end the task has gone through all checks but the validation. -/
lemma checkPass_cases (h : ∀ outcome, (checkPass rt cfg answers pass code).2 ≠ .ends outcome) :
    (packageGate rt cfg answers pass code).2 = none ∧ pass.scan.goesOn = true ∧
      ∃ validation, pass.validation = .ok validation := by
  unfold checkPass at h
  split at h
  · exact absurd rfl (h _)
  rename_i heq
  refine ⟨by rw [heq], ?_⟩
  cases hscan : pass.scan with
  | raises =>
    refine ⟨rfl, ?_⟩
    cases hvalidation : pass.validation with
    | ok validation => exact ⟨validation, rfl⟩
    | error e => simp [scanPass, hscan, validatePass, hvalidation] at h
  | returns passed warnings error =>
    cases passed with
    | false => simp [scanPass, hscan] at h
    | true =>
      refine ⟨rfl, ?_⟩
      cases hvalidation : pass.validation with
      | ok validation => exact ⟨validation, rfl⟩
      | error e => simp [scanPass, hscan, validatePass, hvalidation] at h

lemma packageGate_reportsNone {pass : PassAnswers} {result : AutonomousTaskResult}
    (h : (packageGate rt cfg answers pass code).2 = some result) : result.skillCreated = false := by
  simp only [packageGate] at h
  split at h
  · cases h
  split at h
  · cases h
    rfl
  split at h
  · cases h
    rfl
  split at h
  · cases h
  · cases h
    rfl

lemma scanPass_reportsNone {pass : PassAnswers} {outcome : Outcome}
    (h : (scanPass pass code).2 = .ends outcome) : Outcome.reportsNone outcome := by
  have hvalidate {warnings : List String}
      (h : (validatePass pass code warnings).2 = .ends outcome) : Outcome.reportsNone outcome := by
    unfold validatePass at h
    split at h
    · cases h
      intro result hresult
      cases hresult
    · simp only at h
      split at h <;> cases h
  unfold scanPass at h
  split at h
  · exact hvalidate h
  split at h
  · exact hvalidate h
  · cases h
    intro result hresult
    cases hresult
    rfl

lemma checkPass_reportsNone {pass : PassAnswers} {outcome : Outcome}
    (h : (checkPass rt cfg answers pass code).2 = .ends outcome) :
    Outcome.reportsNone outcome := by
  unfold checkPass at h
  split at h
  · rename_i heq
    cases h
    intro result hresult
    cases hresult
    exact packageGate_reportsNone (by rw [heq])
  · exact scanPass_reportsNone h

end Pass

/-! ### The loop -/

section Loop

variable {remaining n : ℕ} {code repaired : String} {validation : ValidationResult}
  {warnings : List String}

/-- A pass that is followed by another one. -/
lemma checkLoop_repair
    (hpass : (checkPass rt cfg answers (answers.pass n) code).2 = .rejects validation)
    (hrepair : cfg.autoRepairOnValidationFail = true)
    (hcode : generatedCode answers (n + 1) = some repaired) :
    checkLoop rt cfg answers (remaining + 1) n code =
      ((checkPass rt cfg answers (answers.pass n) code).1 ++
        .generated (some repaired) :: (checkLoop rt cfg answers remaining (n + 1) repaired).1,
        (checkLoop rt cfg answers remaining (n + 1) repaired).2) := by
  have hpair : checkPass rt cfg answers (answers.pass n) code =
      ((checkPass rt cfg answers (answers.pass n) code).1, .rejects validation) :=
    Prod.ext rfl hpass
  rw [checkLoop, hpair]
  simp [hrepair, hcode]

/-- The last pass, which accepts the code. -/
lemma checkLoop_accept
    (hpass : (checkPass rt cfg answers (answers.pass n) code).2 = .accepts validation warnings) :
    checkLoop rt cfg answers remaining n code =
      ((checkPass rt cfg answers (answers.pass n) code).1, .accepts code validation warnings) := by
  have hpair : checkPass rt cfg answers (answers.pass n) code =
      ((checkPass rt cfg answers (answers.pass n) code).1, .accepts validation warnings) :=
    Prod.ext rfl hpass
  rw [checkLoop, hpair]

/-- What the loop comes to after one pass: it ends there, with the code if it is accepted and
perhaps after a generation in vain, or it goes on with a repaired code. -/
lemma checkLoop_cases (rt : SkillRuntime) (cfg : ControlConfig) (answers : TaskAnswers)
    (remaining n : ℕ) (code : String) :
    (∃ tail exit, checkLoop rt cfg answers remaining n code =
        ((checkPass rt cfg answers (answers.pass n) code).1 ++ tail, exit) ∧
        (tail = [] ∨ tail = [.generated none] ∧ 0 < remaining) ∧
        (∀ outcome, exit = .ends outcome → Outcome.reportsNone outcome) ∧
        ∀ c validation warnings, exit = .accepts c validation warnings → tail = [] ∧ c = code ∧
          (checkPass rt cfg answers (answers.pass n) code).2 = .accepts validation warnings) ∨
      ∃ left repaired validation, remaining = left + 1 ∧
        (checkPass rt cfg answers (answers.pass n) code).2 = .rejects validation ∧
        cfg.autoRepairOnValidationFail = true ∧
        generatedCode answers (n + 1) = some repaired := by
  have hreports : ∀ outcome, (checkPass rt cfg answers (answers.pass n) code).2 = .ends outcome →
      Outcome.reportsNone outcome := fun outcome => checkPass_reportsNone
  have hfailed {result : AutonomousTaskResult} (hresult : result.skillCreated = false) :
      ∀ outcome, LoopExit.ends (.ok result) = .ends outcome → Outcome.reportsNone outcome := by
    rintro outcome ⟨⟩ result ⟨⟩
    exact hresult
  rcases hpass : checkPass rt cfg answers (answers.pass n) code with ⟨events, exit⟩
  rw [hpass] at hreports
  rw [checkLoop, hpass]
  cases exit with
  | ends outcome =>
    refine .inl ⟨[], .ends outcome, by simp, .inl rfl, ?_, by simp⟩
    rintro outcome ⟨⟩
    exact hreports outcome rfl
  | accepts validation warnings =>
    refine .inl ⟨[], .accepts code validation warnings, by simp, .inl rfl, by simp, ?_⟩
    rintro c validation warnings ⟨⟩
    exact ⟨rfl, rfl, rfl⟩
  | rejects validation =>
    by_cases hrepair : cfg.autoRepairOnValidationFail = true
    swap
    · exact .inl ⟨[], .ends (.ok (validationFailed rt validation)), by simp [hrepair], .inl rfl,
        hfailed rfl, by simp⟩
    cases remaining with
    | zero =>
      exact .inl ⟨[], .ends (.ok (validationFailed rt validation)), by simp [hrepair], .inl rfl,
        hfailed rfl, by simp⟩
    | succ left =>
      cases hcode : generatedCode answers (n + 1) with
      | none =>
        exact .inl ⟨[.generated none], .ends (.ok repairFailed), by simp [hrepair],
          .inr ⟨rfl, Nat.succ_pos left⟩, hfailed rfl, by simp⟩
      | some repaired => exact .inr ⟨left, repaired, validation, rfl, rfl, hrepair, rfl⟩

/-- The loop consists of checks and generations. -/
lemma checkLoop_events (remaining n : ℕ) (code : String) :
    ∀ e ∈ (checkLoop rt cfg answers remaining n code).1,
      e.isCheck = true ∨ e.isGeneration = true := by
  induction remaining generalizing n code with
  | zero =>
    obtain ⟨tail, exit, heq, htail, -, -⟩ | ⟨left, -, -, hleft, -⟩ :=
      checkLoop_cases rt cfg answers 0 n code
    · rw [heq]
      refine List.forall_mem_append.mpr ⟨fun e he => .inl (checkPass_events e he), ?_⟩
      obtain rfl | ⟨rfl, -⟩ := htail <;> simp [Event.isGeneration]
    · cases hleft
  | succ remaining ih =>
    obtain ⟨tail, exit, heq, htail, -, -⟩ | ⟨_, repaired, _, -, hpass, hrepair, hcode⟩ :=
      checkLoop_cases rt cfg answers (remaining + 1) n code
    · rw [heq]
      refine List.forall_mem_append.mpr ⟨fun e he => .inl (checkPass_events e he), ?_⟩
      obtain rfl | ⟨rfl, -⟩ := htail <;> simp [Event.isGeneration]
    · rw [checkLoop_repair hpass hrepair hcode]
      dsimp only
      refine List.forall_mem_append.mpr ⟨fun e he => .inl (checkPass_events e he), ?_⟩
      exact List.forall_mem_cons.mpr ⟨.inr rfl, ih (n + 1) repaired⟩

/-- A check is no generation. -/
lemma isGeneration_of_isCheck {e : Event} (h : e.isCheck = true) : e.isGeneration = false := by
  cases e <;> simp_all [Event.isCheck, Event.isPackageCheck, Event.isGeneration]

lemma countP_checkPass :
    (checkPass rt cfg answers (answers.pass n) code).1.countP Event.isGeneration = 0 :=
  List.countP_eq_zero.mpr fun e he => by
    simp [isGeneration_of_isCheck (checkPass_events e he)]

/-- Each repair uses up one of those that are left. -/
theorem checkLoop_generations (remaining n : ℕ) (code : String) :
    (checkLoop rt cfg answers remaining n code).1.countP Event.isGeneration ≤ remaining := by
  induction remaining generalizing n code with
  | zero =>
    obtain ⟨tail, exit, heq, htail, -, -⟩ | ⟨left, -, -, hleft, -⟩ :=
      checkLoop_cases rt cfg answers 0 n code
    · obtain rfl | ⟨rfl, hpos⟩ := htail
      · simp [heq, countP_checkPass]
      · cases hpos
    · cases hleft
  | succ remaining ih =>
    obtain ⟨tail, exit, heq, htail, -, -⟩ | ⟨_, repaired, _, -, hpass, hrepair, hcode⟩ :=
      checkLoop_cases rt cfg answers (remaining + 1) n code
    · obtain rfl | ⟨rfl, hpos⟩ := htail
      · simp [heq, countP_checkPass]
      · simp [heq, countP_checkPass, Event.isGeneration]
    · rw [checkLoop_repair hpass hrepair hcode, List.countP_append, countP_checkPass,
        List.countP_cons]
      have hrest := ih (n + 1) repaired
      simp only [Event.isGeneration, if_true]
      omega

/-- A pass that accepts the code. -/
lemma accepted_of_pass (hreached : Reached rt cfg task answers n code)
    (hpass : (checkPass rt cfg answers (answers.pass n) code).2 = .accepts validation warnings) :
    Accepted rt cfg task answers n code := by
  have hends : ∀ outcome, (checkPass rt cfg answers (answers.pass n) code).2 ≠ .ends outcome := by
    simp [hpass]
  obtain ⟨hgate, hscan, v, hv⟩ := checkPass_cases hends
  refine ⟨hreached, by simp [cleared, hgate], hscan, v, hv, ?_⟩
  rw [checkPass_of_cleared hgate hscan hv] at hpass
  by_contra hfailed
  simp [hfailed] at hpass

/-- A pass that is followed by another one. -/
lemma reached_of_pass (hreached : Reached rt cfg task answers n code)
    (hpass : (checkPass rt cfg answers (answers.pass n) code).2 = .rejects validation)
    (hrepair : cfg.autoRepairOnValidationFail = true) (hn : n < cfg.autoRepairMaxAttempts)
    (hcode : generatedCode answers (n + 1) = some repaired) :
    Reached rt cfg task answers (n + 1) repaired := by
  have hends : ∀ outcome, (checkPass rt cfg answers (answers.pass n) code).2 ≠ .ends outcome := by
    simp [hpass]
  obtain ⟨hgate, hscan, v, hv⟩ := checkPass_cases hends
  refine .repair hreached (by simp [cleared, hgate]) hscan hv ?_ hrepair hn hcode
  rw [checkPass_of_cleared hgate hscan hv] at hpass
  by_contra hpassed
  rw [Bool.not_eq_false] at hpassed
  simp [hpassed] at hpass

/-- The code that the loop accepts was generated last, and its checks are the end of what the
loop did. -/
theorem checkLoop_accepts {remaining n : ℕ} {code c : String}
    (hreached : Reached rt cfg task answers n code)
    (hn : n + remaining = cfg.autoRepairMaxAttempts)
    (h : (checkLoop rt cfg answers remaining n code).2 = .accepts c validation warnings) :
    ∃ m, Accepted rt cfg task answers m c ∧ ∃ earlier,
      .generated (some code) :: (checkLoop rt cfg answers remaining n code).1 =
        earlier ++ .generated (some c) :: (checkPass rt cfg answers (answers.pass m) c).1 := by
  induction remaining generalizing n code with
  | zero =>
    obtain ⟨tail, exit, heq, -, -, hexit⟩ | ⟨left, -, -, hleft, -⟩ :=
      checkLoop_cases rt cfg answers 0 n code
    · rw [heq] at h
      obtain ⟨rfl, rfl, hpass⟩ := hexit _ _ _ h
      exact ⟨n, accepted_of_pass hreached hpass, [], by simp [heq]⟩
    · cases hleft
  | succ remaining ih =>
    obtain ⟨tail, exit, heq, -, -, hexit⟩ | ⟨_, repaired, _, -, hpass, hrepair, hcode⟩ :=
      checkLoop_cases rt cfg answers (remaining + 1) n code
    · rw [heq] at h
      obtain ⟨rfl, rfl, hpass⟩ := hexit _ _ _ h
      exact ⟨n, accepted_of_pass hreached hpass, [], by simp [heq]⟩
    · rw [checkLoop_repair hpass hrepair hcode] at h ⊢
      dsimp only at h ⊢
      have hnext : Reached rt cfg task answers (n + 1) repaired :=
        reached_of_pass hreached hpass hrepair (by omega) hcode
      obtain ⟨m, haccepted, earlier, hearlier⟩ := ih hnext (by omega) h
      refine ⟨m, haccepted, .generated (some code) ::
        (checkPass rt cfg answers (answers.pass n) code).1 ++ earlier, ?_⟩
      simp [hearlier]

/-- The loop comes to every pass that is reached. -/
theorem checkLoop_reached (h : Reached rt cfg task answers n code) :
    createsNew cfg task answers = true ∧ n ≤ cfg.autoRepairMaxAttempts ∧
      ∃ first earlier, generatedCode answers 0 = some first ∧
        .generated (some first) ::
            (checkLoop rt cfg answers cfg.autoRepairMaxAttempts 0 first).1 =
          earlier ++ .generated (some code) ::
            (checkLoop rt cfg answers (cfg.autoRepairMaxAttempts - n) n code).1 ∧
        (checkLoop rt cfg answers cfg.autoRepairMaxAttempts 0 first).2 =
          (checkLoop rt cfg answers (cfg.autoRepairMaxAttempts - n) n code).2 := by
  induction h with
  | @first code hcreates hcode => exact ⟨hcreates, Nat.zero_le _, code, [], hcode, rfl, rfl⟩
  | @repair n code repaired validation _ hcleared hscan hv hfailed hrepair hn hcode ih =>
    obtain ⟨hcreates, -, first, earlier, hfirst, hearlier, hexit⟩ := ih
    have hgate : (packageGate rt cfg answers (answers.pass n) code).2 = none := by
      simpa [cleared] using hcleared
    have hpass : (checkPass rt cfg answers (answers.pass n) code).2 = .rejects validation := by
      rw [checkPass_of_cleared hgate hscan hv]
      simp [hfailed]
    obtain ⟨left, hleft⟩ : ∃ left, cfg.autoRepairMaxAttempts - n = left + 1 :=
      ⟨cfg.autoRepairMaxAttempts - n - 1, by omega⟩
    have hrest : cfg.autoRepairMaxAttempts - (n + 1) = left := by omega
    rw [hleft, checkLoop_repair hpass hrepair hcode] at hearlier hexit
    dsimp only at hearlier hexit
    rw [hrest]
    refine ⟨hcreates, hn, first, earlier ++ .generated (some code) ::
      (checkPass rt cfg answers (answers.pass n) code).1, hfirst, ?_, hexit⟩
    simp [hearlier]

end Loop

/-! ### The installation -/

section Install

variable {name code : String} {decision : ControlDecision} {urls errors : List String}
  {validation : ValidationResult} {warnings : List String} {reuseFailure : Option String}

lemma executorUrls_ne_nil : executorUrls configured ≠ [] := by
  simp only [executorUrls, List.foldl_cons, List.foldl_nil, addOnce]
  split <;> split <;> split <;> simp_all

/-- One candidate: it answers with an object, or the next one is asked. -/
lemma installFrom_cons (answers : TaskAnswers) (name code : String) (decision : ControlDecision)
    (url : String) (urls errors : List String) :
    (∃ kvs, (answers.create url).object? = some kvs ∧
      installFrom answers name code decision (url :: urls) errors =
        ([.installRequested url name code decision, .installAnswered (.dict kvs)], .dict kvs)) ∨
      (answers.create url).object? = none ∧ ∃ later,
        installFrom answers name code decision (url :: urls) errors =
          (.installRequested url name code decision ::
              (installFrom answers name code decision urls later).1,
            (installFrom answers name code decision urls later).2) := by
  cases hreply : answers.create url with
  | raises text | notJson text =>
    exact .inr ⟨rfl, errors ++ [url ++ ": " ++ text], by simp [installFrom, hreply]⟩
  | json value =>
    cases value with
    | dict kvs => exact .inl ⟨kvs, rfl, by simp [installFrom, hreply]⟩
    | _ =>
      exact .inr ⟨rfl, errors ++ [url ++ ": " ++ "unexpected response type"],
        by simp [installFrom, hreply]⟩

/-- What an installation does is to ask for this code and to hear an answer. -/
lemma installFrom_events (urls errors : List String) :
    ∀ e ∈ (installFrom answers name code decision urls errors).1,
      (∃ url, e = .installRequested url name code decision) ∨
        ∃ answer, e = .installAnswered answer := by
  induction urls generalizing errors with
  | nil => simp [installFrom]
  | cons url urls ih =>
    obtain ⟨kvs, -, heq⟩ | ⟨-, later, heq⟩ :=
      installFrom_cons answers name code decision url urls errors
    · simp [heq]
    · rw [heq]
      exact List.forall_mem_cons.mpr ⟨.inl ⟨url, rfl⟩, ih later⟩

/-- At least one installation is asked for. -/
lemma installFrom_head (hurls : urls ≠ []) :
    ∃ url rest, (installFrom answers name code decision urls errors).1 =
      .installRequested url name code decision :: rest := by
  cases urls with
  | nil => exact absurd rfl hurls
  | cons url urls =>
    obtain ⟨kvs, -, heq⟩ | ⟨-, later, heq⟩ :=
      installFrom_cons answers name code decision url urls errors
    · exact ⟨url, _, by rw [heq]⟩
    · exact ⟨url, _, by rw [heq]⟩

/-- The answer is the first object, which has been heard; and where there is none, nothing is
heard, and the skill counts as not installed. -/
lemma installFrom_answer (answers : TaskAnswers) (name code : String)
    (decision : ControlDecision) (urls errors : List String) :
    (∃ kvs, urls.findSome? (fun url => (answers.create url).object?) = some kvs ∧
      (installFrom answers name code decision urls errors).2 = .dict kvs ∧
      .installAnswered (.dict kvs) ∈ (installFrom answers name code decision urls errors).1 ∧
      ∀ answer, .installAnswered answer ∈
        (installFrom answers name code decision urls errors).1 → answer = .dict kvs) ∨
    urls.findSome? (fun url => (answers.create url).object?) = none ∧
      installSuccess (installFrom answers name code decision urls errors).2 = .ok false := by
  induction urls generalizing errors with
  | nil => exact .inr ⟨rfl, rfl⟩
  | cons url urls ih =>
    obtain ⟨kvs, hobject, heq⟩ | ⟨hobject, later, heq⟩ :=
      installFrom_cons answers name code decision url urls errors
    · exact .inl ⟨kvs, by simp [hobject], by rw [heq], by simp [heq], by simp [heq]⟩
    · rw [heq, List.findSome?_cons, hobject]
      obtain ⟨kvs, hfirst, hanswer, hheard, honly⟩ | hnone := ih later
      · refine .inl ⟨kvs, hfirst, hanswer, List.mem_cons_of_mem _ hheard, fun answer h => ?_⟩
        obtain h | h := List.mem_cons.mp h
        · cases h
        · exact honly answer h
      · exact .inr hnone

/-- The run of the new skill comes after the installation. -/
lemma installAndRun_cases (rt : SkillRuntime) (task : AutonomousTaskRequest)
    (answers : TaskAnswers) (configured : String) (reuseFailure : Option String) (code : String)
    (validation : ValidationResult) (warnings : List String) :
    ∃ decision tail, (∀ e ∈ tail, ∃ name, e = Event.skillRun name) ∧
      (installAndRun rt task answers configured reuseFailure code validation warnings).1 =
        (installSkill answers configured answers.skillName code decision).1 ++ tail ∧
      ((∃ result, (installAndRun rt task answers configured reuseFailure code validation
          warnings).2 = .ok result ∧ result.skillCreated = true) ↔
        installSuccess (installSkill answers configured answers.skillName code decision).2 =
            .ok true ∧
          (task.executeAfterCreate = true → (runSkill answers.runNew).asDict?.isSome)) := by
  refine ⟨controlDecision rt validation warnings, ?_⟩
  unfold installAndRun
  cases hsuccess : installSuccess (installSkill answers configured answers.skillName code
    (controlDecision rt validation warnings)).2 with
  | error e => exact ⟨[], by simp, by simp [hsuccess], by simp [hsuccess]⟩
  | ok success =>
    cases success with
    | false => exact ⟨[], by simp, by simp [hsuccess], by simp [hsuccess]⟩
    | true =>
      by_cases hexecute : task.executeAfterCreate = true
      · refine ⟨[.skillRun answers.skillName], by simp, ?_⟩
        cases hrun : runSkill answers.runNew with
        | dict kvs => simp [hsuccess, hexecute, PyVal.getAttr, PyVal.asDict?]
        | _ => simp [hsuccess, hexecute, PyVal.getAttr, PyVal.asDict?]
      · exact ⟨[], by simp, by simp [hsuccess, hexecute], by simp [hsuccess, hexecute]⟩

end Install

/-! ### The whole task -/

/-- An event that neither asks for an installation nor hears of one. -/
lemma isInstallation_of_isCheck {e : Event} (h : e.isCheck = true ∨ e.isGeneration = true) :
    e.isInstallation = false := by
  cases e <;>
    simp_all [Event.isCheck, Event.isPackageCheck, Event.isGeneration, Event.isInstallation]

section Task

variable {n : ℕ} {code : String}

lemma checkLoop_reportsNone {remaining : ℕ} {outcome : Outcome}
    (h : (checkLoop rt cfg answers remaining n code).2 = .ends outcome) :
    Outcome.reportsNone outcome := by
  induction remaining generalizing n code with
  | zero =>
    obtain ⟨tail, exit, heq, -, hends, -⟩ | ⟨left, -, -, hleft, -⟩ :=
      checkLoop_cases rt cfg answers 0 n code
    · exact hends outcome (by rw [← h, heq])
    · cases hleft
  | succ remaining ih =>
    obtain ⟨tail, exit, heq, -, hends, -⟩ | ⟨_, repaired, _, -, hpass, hrepair, hcode⟩ :=
      checkLoop_cases rt cfg answers (remaining + 1) n code
    · exact hends outcome (by rw [← h, heq])
    · have hrest : (checkLoop rt cfg answers remaining (n + 1) repaired).2 = .ends outcome := by
        rw [← h, checkLoop_repair hpass hrepair hcode]
      exact ih hrest

/-- Nothing has to be asked and the policy allows a new skill, or none is created. -/
lemma createSkill_cases (rt : SkillRuntime) (cfg : ControlConfig) (task : AutonomousTaskRequest)
    (answers : TaskAnswers) (configured : String) (reuseFailure : Option String) :
    ((answers.gapQuestion.isNone &&
        (shouldAutoCreate cfg task || shouldEscalateToDeepCodegen cfg task)) = true ∧
      createSkill rt cfg task answers configured reuseFailure =
        generateAndInstall rt cfg task answers configured reuseFailure) ∨
    (answers.gapQuestion.isNone &&
        (shouldAutoCreate cfg task || shouldEscalateToDeepCodegen cfg task)) = false ∧
      (createSkill rt cfg task answers configured reuseFailure).1 = [] ∧
      Outcome.reportsNone (createSkill rt cfg task answers configured reuseFailure).2 := by
  unfold createSkill
  cases hgap : answers.gapQuestion with
  | some question =>
    refine .inr ⟨rfl, rfl, ?_⟩
    rintro result ⟨⟩
    rfl
  | none =>
    by_cases hpolicy : (shouldAutoCreate cfg task || shouldEscalateToDeepCodegen cfg task) = true
    · exact .inl ⟨by simpa using hpolicy, by simp only [hpolicy, if_true]⟩
    · refine .inr ⟨by simpa using hpolicy, ?_⟩
      simp only [hpolicy]
      refine ⟨rfl, ?_⟩
      rintro result ⟨⟩
      rfl

lemma reportsNone_map {run : PyVal} {f : PyVal → AutonomousTaskResult}
    (h : ∀ value, (f value).skillCreated = false) :
    Outcome.reportsNone ((run.getAttr "result").map f) := by
  intro result hresult
  cases hvalue : run.getAttr "result" with
  | error e => simp [hvalue, Except.map] at hresult
  | ok value =>
    rw [hvalue] at hresult
    cases hresult
    exact h value

/-- The task comes to a new skill, or it only runs one that is there and creates none. -/
def CreatesOrReuses (rt : SkillRuntime) (cfg : ControlConfig) (task : AutonomousTaskRequest)
    (answers : TaskAnswers) (configured : String) (processed : List Event × Outcome) : Prop :=
  (createsNew cfg task answers = true ∧ ∃ before reuseFailure,
    (∀ e ∈ before, ∃ name, e = Event.skillRun name) ∧
      processed = (before ++ (generateAndInstall rt cfg task answers configured reuseFailure).1,
        (generateAndInstall rt cfg task answers configured reuseFailure).2)) ∨
  createsNew cfg task answers = false ∧
    (∀ e ∈ processed.1, ∃ name, e = Event.skillRun name) ∧ Outcome.reportsNone processed.2

lemma createsOrReuses_createSkill (before : List Event)
    (hbefore : ∀ e ∈ before, ∃ name, e = Event.skillRun name) (reuseFailure : Option String)
    (hcreates : createsNew cfg task answers = (answers.gapQuestion.isNone &&
      (shouldAutoCreate cfg task || shouldEscalateToDeepCodegen cfg task))) :
    CreatesOrReuses rt cfg task answers configured
      (before ++ (createSkill rt cfg task answers configured reuseFailure).1,
        (createSkill rt cfg task answers configured reuseFailure).2) := by
  obtain ⟨hgoes, heq⟩ | ⟨hstays, hnone, hreports⟩ :=
    createSkill_cases rt cfg task answers configured reuseFailure
  · exact .inl ⟨hcreates.trans hgoes, before, reuseFailure, hbefore, by rw [heq]⟩
  · refine .inr ⟨hcreates.trans hstays, ?_, hreports⟩
    rw [hnone, List.append_nil]
    exact hbefore

theorem process_cases (rt : SkillRuntime) (cfg : ControlConfig) (task : AutonomousTaskRequest)
    (answers : TaskAnswers) (configured : String) :
    CreatesOrReuses rt cfg task answers configured
      (processAutonomousTask rt cfg task answers configured) := by
  unfold processAutonomousTask
  cases hprefer : task.preferCreate || answers.isExplicitCreate with
  | true =>
    exact createsOrReuses_createSkill [] (by simp) none
      (by simp [createsNew, hprefer])
  | false =>
    cases hmatching : answers.matchingSkill with
    | none =>
      exact createsOrReuses_createSkill [] (by simp) none
        (by simp [createsNew, hmatching])
    | some existing =>
      by_cases hexecute : task.executeAfterCreate = true
      swap
      · refine .inr ⟨by simp [createsNew, hprefer, hmatching, hexecute], ?_, ?_⟩
        · simp [hexecute]
        · simp only [hexecute]
          rintro result ⟨⟩
          rfl
      cases hrun : isRunResultSuccess (runSkill answers.runExisting) with
      | true =>
        refine .inr ⟨by simp [createsNew, hprefer, hmatching, hrun], ?_, ?_⟩
        · simp [hexecute, hrun]
        · simp only [hexecute, hrun, if_true]
          exact reportsNone_map fun _ => rfl
      | false =>
        cases hpolicy : shouldAutoCreate cfg task with
        | true =>
          simp only [hexecute, hrun, if_true, Bool.false_eq_true, if_false]
          exact createsOrReuses_createSkill [.skillRun existing] (by simp)
            (some existing) (by simp [createsNew, hexecute, hrun, hpolicy])
        | false =>
          refine .inr ⟨by simp [createsNew, hprefer, hmatching, hpolicy], ?_, ?_⟩
          · simp [hexecute, hrun]
          · simp only [hexecute, hrun, if_true, Bool.false_eq_true, if_false]
            exact reportsNone_map fun _ => rfl

lemma isGeneration_skillRun {before : List Event}
    (h : ∀ e ∈ before, ∃ name, e = Event.skillRun name) :
    ∀ e ∈ before, e.isGeneration = false ∧ e.isInstallation = false := by
  intro e he
  obtain ⟨name, rfl⟩ := h e he
  exact ⟨rfl, rfl⟩

/-- The events of the installation and the run: no code is generated. -/
lemma installAndRun_events (reuseFailure : Option String) (validation : ValidationResult)
    (warnings : List String) :
    ∀ e ∈ (installAndRun rt task answers configured reuseFailure code validation warnings).1,
      (∃ url decision, e = .installRequested url answers.skillName code decision) ∨
        (∃ answer, e = .installAnswered answer) ∨ ∃ name, e = .skillRun name := by
  obtain ⟨decision, tail, htail, heq, -⟩ :=
    installAndRun_cases rt task answers configured reuseFailure code validation warnings
  rw [heq]
  refine List.forall_mem_append.mpr ⟨fun e he => ?_, fun e he => .inr (.inr (htail e he))⟩
  obtain ⟨url, hurl⟩ | hanswer := installFrom_events (executorUrls configured) [] e he
  · exact .inl ⟨url, decision, hurl⟩
  · exact .inr (.inl hanswer)

lemma installAndRun_noGeneration (reuseFailure : Option String) (validation : ValidationResult)
    (warnings : List String) :
    ∀ e ∈ (installAndRun rt task answers configured reuseFailure code validation warnings).1,
      e.isGeneration = false := by
  intro e he
  obtain ⟨_, _, rfl⟩ | ⟨_, rfl⟩ | ⟨_, rfl⟩ := installAndRun_events reuseFailure validation
    warnings e he <;> rfl

/-- No more codes are generated than the first one and the repairs. -/
theorem process_generations :
    (processAutonomousTask rt cfg task answers configured).1.countP Event.isGeneration ≤
      1 + cfg.autoRepairMaxAttempts := by
  have hzero {before : List Event} (h : ∀ e ∈ before, ∃ name, e = Event.skillRun name) :
      before.countP Event.isGeneration = 0 :=
    List.countP_eq_zero.mpr fun e he => by simp [isGeneration_skillRun h e he]
  obtain ⟨-, before, reuseFailure, hbefore, heq⟩ | ⟨-, hruns, -⟩ :=
    process_cases rt cfg task answers configured
  · rw [heq, List.countP_append, hzero hbefore, Nat.zero_add]
    unfold generateAndInstall
    split
    · simp [Event.isGeneration]
    · rename_i first hfirst
      have hloop : (checkLoop rt cfg answers cfg.autoRepairMaxAttempts 0 first).1.countP
          Event.isGeneration ≤ cfg.autoRepairMaxAttempts := checkLoop_generations _ _ _
      cases hexit : (checkLoop rt cfg answers cfg.autoRepairMaxAttempts 0 first).2 with
      | ends outcome =>
        simp only [hexit, List.countP_cons, Event.isGeneration, if_true]
        omega
      | accepts code validation warnings =>
        have hrest : (installAndRun rt task answers configured reuseFailure code validation
            warnings).1.countP Event.isGeneration = 0 :=
          List.countP_eq_zero.mpr fun e he => by
            simp [installAndRun_noGeneration reuseFailure validation warnings e he]
        simp only [hexit, List.countP_append, List.countP_cons, Event.isGeneration, if_true, hrest]
        omega
  · rw [hzero hruns]
    exact Nat.zero_le _

/-- A task that accepts a code installs this code, after its checks. -/
theorem process_of_accepted (configured : String) (h : Accepted rt cfg task answers n code) :
    ∃ before earlier reuseFailure validation warnings,
      processAutonomousTask rt cfg task answers configured =
        (before ++ (installAndRun rt task answers configured reuseFailure code validation
            warnings).1,
          (installAndRun rt task answers configured reuseFailure code validation warnings).2) ∧
      before = earlier ++ .generated (some code) ::
        (checkPass rt cfg answers (answers.pass n) code).1 ∧
      ∀ e ∈ before, e.isInstallation = false := by
  obtain ⟨hcreates, -, first, earlier, hfirst, hearlier, hexit⟩ := checkLoop_reached h.reached
  obtain ⟨validation, hvalidation, hpassed⟩ := h.validated
  have hgate : (packageGate rt cfg answers (answers.pass n) code).2 = none := by
    simpa [cleared] using h.cleared
  have hpass : (checkPass rt cfg answers (answers.pass n) code).2 =
      .accepts validation (answers.pass n).scan.warnings := by
    rw [checkPass_of_cleared hgate h.scanned hvalidation]
    simp [hpassed]
  rw [checkLoop_accept hpass] at hearlier hexit
  obtain ⟨-, before, reuseFailure, hbefore, heq⟩ | ⟨hnone, -, -⟩ :=
    process_cases rt cfg task answers configured
  swap
  · rw [hcreates] at hnone
    cases hnone
  have hgenerate : generateAndInstall rt cfg task answers configured reuseFailure =
      (.generated (some first) :: (checkLoop rt cfg answers cfg.autoRepairMaxAttempts 0 first).1 ++
          (installAndRun rt task answers configured reuseFailure code validation
            (answers.pass n).scan.warnings).1,
        (installAndRun rt task answers configured reuseFailure code validation
          (answers.pass n).scan.warnings).2) := by
    simp only [generateAndInstall, hfirst, hexit]
  refine ⟨before ++ .generated (some first) ::
    (checkLoop rt cfg answers cfg.autoRepairMaxAttempts 0 first).1, before ++ earlier,
    reuseFailure, validation, (answers.pass n).scan.warnings, ?_, ?_, ?_⟩
  · rw [heq, hgenerate, List.append_assoc]
  · rw [hearlier, List.append_assoc]
  · refine List.forall_mem_append.mpr ⟨fun e he => (isGeneration_skillRun hbefore e he).2, ?_⟩
    exact List.forall_mem_cons.mpr ⟨rfl, fun e he =>
      isInstallation_of_isCheck (checkLoop_events _ _ _ e he)⟩

/-- A task that accepts no code neither installs nor reports a new skill. -/
theorem process_of_not_accepted (configured : String) (h : ∀ n code, ¬ Accepted rt cfg task answers n code) :
    (∀ e ∈ (processAutonomousTask rt cfg task answers configured).1, e.isInstallation = false) ∧
      Outcome.reportsNone (processAutonomousTask rt cfg task answers configured).2 := by
  obtain ⟨hcreates, before, reuseFailure, hbefore, heq⟩ | ⟨-, hruns, hreports⟩ :=
    process_cases rt cfg task answers configured
  swap
  · exact ⟨fun e he => (isGeneration_skillRun hruns e he).2, hreports⟩
  rw [heq]
  unfold generateAndInstall
  split
  · refine ⟨List.forall_mem_append.mpr
      ⟨fun e he => (isGeneration_skillRun hbefore e he).2, by simp [Event.isInstallation]⟩, ?_⟩
    rintro result ⟨⟩
    rfl
  · rename_i first hfirst
    cases hexit : (checkLoop rt cfg answers cfg.autoRepairMaxAttempts 0 first).2 with
    | accepts code validation warnings =>
      obtain ⟨m, haccepted, -⟩ := checkLoop_accepts (.first hcreates hfirst) (by omega) hexit
      exact absurd haccepted (h m code)
    | ends outcome =>
      have hreports : Outcome.reportsNone outcome := checkLoop_reportsNone hexit
      simp only [hexit]
      refine ⟨List.forall_mem_append.mpr
        ⟨fun e he => (isGeneration_skillRun hbefore e he).2, ?_⟩, hreports⟩
      exact List.forall_mem_cons.mpr ⟨rfl, fun e he =>
        isInstallation_of_isCheck (checkLoop_events _ _ _ e he)⟩

/-! ### When what is installed has been checked -/

/-- The events of a pass that accepts the code. -/
lemma accepted_pass (h : Accepted rt cfg task answers n code) :
    (∀ e ∈ (checkPass rt cfg answers (answers.pass n) code).1, e.isGeneration = false) ∧
    (.scanned code (some true) ∈ (checkPass rt cfg answers (answers.pass n) code).1 ↔
      (answers.pass n).scan ≠ .raises) ∧
    .validated code true ∈ (checkPass rt cfg answers (answers.pass n) code).1 ∧
    .missing code (checkMissingPackages rt (answers.pass n).inventory code) ∈
      (checkPass rt cfg answers (answers.pass n) code).1 ∧
    ∀ package ∈ checkMissingPackages rt (answers.pass n).inventory code,
      (∃ allowed, .allowlist allowed ∈ (checkPass rt cfg answers (answers.pass n) code).1 ∧
        rt.lower package ∈ allowed) ∧
      .packageInstalled package true ∈ (checkPass rt cfg answers (answers.pass n) code).1 := by
  obtain ⟨validation, hvalidation, hpassed⟩ := h.validated
  have hgate : (packageGate rt cfg answers (answers.pass n) code).2 = none := by
    simpa [cleared] using h.cleared
  obtain ⟨hmissing, hpackages⟩ := packageGate_cleared hgate
  refine ⟨fun e he => isGeneration_of_isCheck (checkPass_events e he), ?_⟩
  have hscanned := h.scanned
  rw [checkPass_of_cleared hgate h.scanned hvalidation, hpassed]
  refine ⟨?_, by simp, List.mem_append_left _ hmissing, fun package hpackage => ?_⟩
  · cases hscan : (answers.pass n).scan with
    | raises =>
      simp only [ScanReply.verdict, ne_eq, not_true_eq_false, iff_false, List.mem_append]
      rintro (hmem | hmem)
      · exact absurd (packageGate_events _ hmem) (by simp [Event.isPackageCheck])
      · simp at hmem
    | returns passed warnings error =>
      rw [hscan] at hscanned
      have hyes : passed = true := hscanned
      simp [ScanReply.verdict, hyes]
  · obtain ⟨⟨allowed, hallowed, hlower⟩, hinstalled⟩ := hpackages package hpackage
    exact ⟨⟨allowed, List.mem_append_left _ hallowed, hlower⟩,
      List.mem_append_left _ hinstalled⟩

/-- Every request for an installation follows the checks of the pass that accepts the code. -/
lemma requestChecked_of_accepted (h : Accepted rt cfg task answers n code)
    (hscan : (answers.pass n).scan ≠ .raises) {earlier between : List Event}
    (hbetween : ∀ e ∈ between, e.isGeneration = false) (url name : String)
    (decision : ControlDecision) :
    RequestChecked rt answers (earlier ++ .generated (some code) ::
      (checkPass rt cfg answers (answers.pass n) code).1 ++ between)
      (.installRequested url name code decision) := by
  obtain ⟨hnone, hscanned, hvalidated, hmissing, hpackages⟩ := accepted_pass h
  refine ⟨earlier, (checkPass rt cfg answers (answers.pass n) code).1 ++ between, by simp,
    List.forall_mem_append.mpr ⟨hnone, hbetween⟩,
    List.mem_append_left _ (hscanned.mpr hscan), List.mem_append_left _ hvalidated, n,
    List.mem_append_left _ hmissing, fun package hpackage => ?_⟩
  obtain ⟨⟨allowed, hallowed, hlower⟩, hinstalled⟩ := hpackages package hpackage
  exact ⟨⟨allowed, List.mem_append_left _ hallowed, hlower⟩, List.mem_append_left _ hinstalled⟩

/-- An event that asks for no installation is not restricted. -/
lemma requestChecked_of_not_installation {e : Event} (h : e.isInstallation = false)
    (before : List Event) : RequestChecked rt answers before e := by
  cases e <;> trivial

lemma installSuccess_of_passed {kvs : PyDict} (h : (PyDict.get kvs "passed").truthy = true) :
    installSuccess (.dict kvs) = .ok true := by
  simp [installSuccess, h]

/-- Without `passed`, an answer counts as a success only if it says that the skill is
installed. -/
lemma saysInstalled_of_installSuccess {kvs : PyDict}
    (hpassed : (PyDict.get kvs "passed").truthy = false)
    (h : installSuccess (.dict kvs) = .ok true) : saysInstalled (.dict kvs) = true := by
  simp only [installSuccess, hpassed, Bool.false_eq_true, if_false] at h
  split at h
  · cases hinstallation : PyDict.get kvs "installation" with
    | dict installation =>
      rw [hinstallation] at h
      have hsuccess : (PyDict.get installation "success").truthy = true := by
        simpa [PyVal.getAttr, Except.map] using h
      simp [saysInstalled, hinstallation, hsuccess]
    | _ => simp [hinstallation, PyVal.getAttr, Except.map] at h
  · cases h

/-- The scanner and the executor can be taken at their word where what is promised holds. -/
theorem vouched_of_installedAsChecked
    (h : InstalledAsChecked rt cfg task answers configured) :
    Vouched rt cfg task answers configured := by
  intro n code haccepted
  obtain ⟨before, earlier, reuseFailure, validation, warnings, hprocess, hbefore, hquiet⟩ :=
    process_of_accepted configured haccepted
  obtain ⟨decision, tail, htail, hevents, hreport⟩ :=
    installAndRun_cases rt task answers configured reuseFailure code validation warnings
  obtain ⟨hnone, hscanned, -⟩ := accepted_pass haccepted
  constructor
  · obtain ⟨url, rest, hhead⟩ : ∃ url rest, (installSkill answers configured answers.skillName code
        decision).1 = .installRequested url answers.skillName code decision :: rest :=
      installFrom_head executorUrls_ne_nil
    obtain ⟨earlier', round, hround, hlast, hscan, -⟩ :=
      h.checked before (.installRequested url answers.skillName code decision) (rest ++ tail)
        (by rw [hprocess, hevents, hhead, List.cons_append])
    -- the round of the request is the pass that accepted the code
    have hsame := eq_of_last (hbefore.symm.trans hround) rfl rfl hnone hlast
    exact hscanned.mp (hsame ▸ hscan)
  · intro kvs hfirst hpassed
    obtain ⟨kvs', hfirst', hanswer, -, honly⟩ | ⟨hno, -⟩ :=
      installFrom_answer answers answers.skillName code decision (executorUrls configured) []
    swap
    · rw [firstAnswer, hno] at hfirst
      cases hfirst
    obtain rfl : kvs' = kvs := Option.some.inj (hfirst'.symm.trans hfirst)
    by_cases hruns : task.executeAfterCreate = true → (runSkill answers.runNew).asDict?.isSome
    · obtain ⟨result, hresult, hcreated⟩ := hreport.mpr
        ⟨by rw [installSkill, hanswer]; exact installSuccess_of_passed hpassed, hruns⟩
      obtain ⟨answer, hheard, hsays⟩ := h.reported result (by rw [hprocess, hresult]) hcreated
      rw [hprocess, hevents] at hheard
      obtain hheard | hheard := List.mem_append.mp hheard
      · exact absurd (hquiet _ hheard) (by simp [Event.isInstallation])
      · obtain hheard | hheard := List.mem_append.mp hheard
        · exact .inl (honly answer hheard ▸ hsays)
        · obtain ⟨name, hname⟩ := htail _ hheard
          cases hname
    · push Not at hruns
      exact .inr ⟨hruns.1, by simpa using hruns.2⟩

/-- What is promised holds where the scanner and the executor can be taken at their word. -/
theorem installedAsChecked_of_vouched (h : Vouched rt cfg task answers configured) :
    InstalledAsChecked rt cfg task answers configured := by
  by_cases hnone : ∀ n code, ¬ Accepted rt cfg task answers n code
  · obtain ⟨hquiet, hreports⟩ := process_of_not_accepted configured hnone
    refine ⟨fun before event later heq => ?_, process_generations, fun result hresult hcreated => ?_⟩
    · refine requestChecked_of_not_installation (hquiet event ?_) before
      rw [heq]
      exact List.mem_append_right _ List.mem_cons_self
    · rw [hreports result hresult] at hcreated
      cases hcreated
  push Not at hnone
  obtain ⟨n, code, haccepted⟩ := hnone
  obtain ⟨hscan, hanswers⟩ := h n code haccepted
  obtain ⟨before, earlier, reuseFailure, validation, warnings, hprocess, hbefore, hquiet⟩ :=
    process_of_accepted configured haccepted
  obtain ⟨decision, tail, htail, hevents, hreport⟩ :=
    installAndRun_cases rt task answers configured reuseFailure code validation warnings
  refine ⟨fun start event later heq => ?_, process_generations, fun result hresult hcreated => ?_⟩
  · rw [hprocess] at heq
    have hinside (between : List Event) (hstart : start = before ++ between)
        (hinstall : (installAndRun rt task answers configured reuseFailure code validation
          warnings).1 = between ++ event :: later) : RequestChecked rt answers start event := by
      have hmem : event ∈ (installAndRun rt task answers configured reuseFailure code validation
          warnings).1 := by
        rw [hinstall]
        exact List.mem_append_right _ List.mem_cons_self
      obtain ⟨url, decision, rfl⟩ | ⟨answer, rfl⟩ | ⟨name, rfl⟩ :=
        installAndRun_events reuseFailure validation warnings event hmem
      · rw [hstart, hbefore]
        refine requestChecked_of_accepted haccepted hscan (fun e he => ?_) url _ decision
        have hevent : e ∈ (installAndRun rt task answers configured reuseFailure code validation
            warnings).1 := by
          rw [hinstall]
          exact List.mem_append_left _ he
        exact installAndRun_noGeneration reuseFailure validation warnings e hevent
      · trivial
      · trivial
    obtain ⟨between, rfl, hinstall⟩ | ⟨rest, hstart, hrest⟩ := List.append_eq_append_iff.mp heq
    · exact hinside between rfl hinstall
    · cases rest with
      | nil =>
        rw [List.append_nil] at hstart
        exact hinside [] (by simp [hstart]) hrest.symm
      | cons e rest =>
        rw [List.cons_append, List.cons.injEq] at hrest
        refine requestChecked_of_not_installation (hquiet event ?_) start
        rw [hstart, hrest.1]
        exact List.mem_append_right _ List.mem_cons_self
  · rw [hprocess] at hresult
    obtain ⟨hsuccess, hruns⟩ := hreport.mp ⟨result, hresult, hcreated⟩
    obtain ⟨kvs, hfirst, hanswer, hheard, -⟩ | ⟨-, hfailed⟩ :=
      installFrom_answer answers answers.skillName code decision (executorUrls configured) []
    swap
    · rw [installSkill, hfailed] at hsuccess
      cases hsuccess
    refine ⟨.dict kvs, ?_, ?_⟩
    · rw [hprocess, hevents]
      exact List.mem_append_right _ (List.mem_append_left _ hheard)
    cases hpassed : (PyDict.get kvs "passed").truthy with
    | true =>
      obtain hsays | ⟨hexecute, hnoObject⟩ := hanswers kvs hfirst hpassed
      · exact hsays
      · have hobject := hruns hexecute
        rw [hnoObject] at hobject
        cases hobject
    | false =>
      rw [installSkill, hanswer] at hsuccess
      exact saysInstalled_of_installSuccess hpassed hsuccess

end Task

/-! A scanner that raises lets a code go on that it has not seen. -/

/-- The answers of a task whose scanner raises. -/
def blindAnswers : TaskAnswers where
  isExplicitCreate := true
  matchingSkill := none
  gapQuestion := none
  skillName := "sum_120000"
  generate := fun _ => some "def run(**kwargs): return get_token()"
  pass := fun _ =>
    { inventory := { mode := "auto", compat := .raises "", modern := .raises "" }
      allowlist := .raises ""
      install := fun _ => .raises ""
      scan := .raises
      validation := .ok { passed := true } }
  create := fun _ =>
    .json (.dict [("passed", .bool true), ("installation", .dict [("success", .bool true)])])
  runExisting := .raises ""
  runNew := .raises ""

lemma blindAnswers_accepted : Accepted SkillRuntime.ascii {} {} blindAnswers 0
    "def run(**kwargs): return get_token()" where
  reached := .first (by decide) (by decide)
  cleared := by decide +kernel
  scanned := rfl
  validated := ⟨_, rfl, rfl⟩

end Trion.Skills
