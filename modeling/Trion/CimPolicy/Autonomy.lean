import Trion.CimPolicy.Execution

/-!
# The gate of autonomy

Which rows of the policy table keep skills from being created or run without a confirmation.
The two safety checks look at the action for a missing skill only, and the flag for a
confirmation is written into the decision but read by nothing that executes it.  So the gate
depends on the action that the row names for the case at hand.
-/

namespace Trion.CimPolicy

open Trion.Python

/-! ### What is promised -/

/-- The row is of critical safety level or of system scope. -/
def Policy.IsRestricted (policy : Policy) : Prop :=
  SafetyLevel.ofValue (policy.columns.get "safety_level" (some "low")) = .ok .critical ∨
    SkillScope.ofValue (policy.columns.get "skill_scope" (some "stateless")) = .ok .system

/-- A tool of this name is called. -/
def Calls (tool : String) (calls : List ToolCall) : Prop := ∃ call ∈ calls, call.tool = tool

/-- No skill is created for a row that is restricted, and none is created or run for a row that
asks for a confirmation. -/
structure GateKept (policy : Policy) (calls : List ToolCall) : Prop where
  restricted : policy.IsRestricted → ¬Calls "create_skill" calls
  confirmed : policy.requiresConfirmation = true →
    ¬Calls "create_skill" calls ∧ ¬Calls "run_skill" calls

/-! ### Where it holds -/

/-- The autonomy is denied: the row is restricted, and it would have a missing skill created. -/
def Policy.IsDenied (policy : Policy) : Prop :=
  policy.IsRestricted ∧
    policy.columns.get "action_if_missing" none = some "force_create_skill"

/-- The action that the row names, by the skills that are there. -/
def namedAction (rt : CimRuntime) (userInput : String) (availableSkills : List String)
    (policy : Policy) : ActionType :=
  .ofValue (actionString policy
    (skillExists rt (deriveSkillName rt userInput policy) availableSkills))

/-- The templates for new skills can be read. -/
def TemplateSource.IsReadable (rt : CimRuntime) (source : TemplateSource) : Prop :=
  ∃ templates, loadSkillTemplates rt source = .ok templates

/-- The arguments of a run can be taken from the text. -/
def HasArgs (rt : CimRuntime) (userInput : String) : Prop :=
  ∃ args, extractArgs rt userInput = .ok args

/-- A skill is created: the row has it created, is not denied, and the templates can be read. -/
def Creates (rt : CimRuntime) (source : TemplateSource) (userInput : String)
    (availableSkills : List String) (policy : Policy) : Prop :=
  ¬policy.IsDenied ∧ namedAction rt userInput availableSkills policy = .forceCreateSkill ∧
    source.IsReadable rt

/-- A skill is run: the row has it run, is not denied, and the arguments can be taken from the
text. -/
def Runs (rt : CimRuntime) (userInput : String) (availableSkills : List String)
    (policy : Policy) : Prop :=
  ¬policy.IsDenied ∧ HasArgs rt userInput ∧
    (namedAction rt userInput availableSkills policy = .forceRunSkill ∨
      namedAction rt userInput availableSkills policy = .runSkill)

/-! ### The calls of an execution -/

section Calls

variable {rt : CimRuntime} {source : TemplateSource} {hub : Hub} {decision : CIMDecision}
  {userInput : String} {key tool : String} {x : Execution}

@[simp] lemma calls_nil : ¬Calls tool [] := by simp [Calls]

@[simp] lemma calls_append {calls calls' : List ToolCall} :
    Calls tool (calls ++ calls') ↔ Calls tool calls ∨ Calls tool calls' := by
  simp [Calls, or_and_right, exists_or]

@[simp] lemma calls_singleton {call : ToolCall} : Calls tool [call] ↔ call.tool = tool := by
  simp [Calls]

/-- A run is called for where there are arguments. -/
lemma calls_runSkill :
    Calls tool (runSkill rt hub decision userInput key x).1.calls ↔
      Calls tool x.calls ∨ HasArgs rt userInput ∧ "run_skill" = tool := by
  unfold runSkill HasArgs
  cases extractArgs rt userInput with
  | error e => simp
  | ok args => simp

/-- The code of a skill is there where the templates are. -/
lemma generateSkillCode_ok (userInput : String) :
    (∃ code, generateSkillCode rt source userInput = .ok code) ↔ source.IsReadable rt := by
  unfold generateSkillCode TemplateSource.IsReadable
  cases loadSkillTemplates rt source with
  | error e => simp [bind, Except.bind]
  | ok templates =>
    simp only [bind_ok, Except.ok.injEq, exists_eq', iff_true]
    rcases bestTemplate rt userInput templates with ⟨_ | template, score⟩
    · exact ⟨_, rfl⟩
    · exact ⟨_, rfl⟩

/-- The branch for a new skill calls for its creation where the templates can be read, and for
nothing where they cannot. -/
lemma calls_createSkill :
    Calls "create_skill" (createSkill rt source hub decision userInput x).1.calls ↔
      Calls "create_skill" x.calls ∨ source.IsReadable rt := by
  rw [← generateSkillCode_ok userInput]
  unfold createSkill
  cases generateSkillCode rt source userInput with
  | error e => simp
  | ok code =>
    simp only [Except.ok.injEq, exists_eq', or_true, iff_true]
    split
    next y hcall =>
      have hcreated : Calls "create_skill" y.calls := by
        simpa using congrArg (Calls "create_skill" ·.1.calls) hcall
      split
      · exact calls_runSkill.mpr (.inl hcreated)
      · exact hcreated
    next y answer _ hcall =>
      simpa using congrArg (Calls "create_skill" ·.1.calls) hcall

/-- What an exception changes in the result, it does not change in the calls. -/
lemma failed_calls {e : PyError} : (failed decision e x).calls = x.calls := by
  unfold failed
  cases decision.policyMatch.bind (·.fallbackAction) <;> rfl

@[simp] lemma started_calls : (started decision).calls = [] := rfl

/-- The calls of an execution are those of its branch. -/
lemma executeCimDecision_calls (h : decision.matched = true) :
    (executeCimDecision rt source hub decision userInput).calls =
      (executeAction rt source hub decision userInput (started decision)).1.calls := by
  unfold executeCimDecision
  rw [if_neg (by simp [h])]
  split
  next hcall => rw [failed_calls, hcall]
  next hcall => rw [hcall]

/-- A skill is created where the decision says so and the templates can be read. -/
lemma calls_create (h : decision.matched = true) :
    Calls "create_skill" (executeCimDecision rt source hub decision userInput).calls ↔
      decision.action = .forceCreateSkill ∧ source.IsReadable rt := by
  rw [executeCimDecision_calls h]
  unfold executeAction
  cases decision.action <;> simp [calls_createSkill, calls_runSkill]

/-- Without templates the branch for a new skill calls for nothing. -/
lemma createSkill_calls_of_not_readable (h : ¬source.IsReadable rt) :
    (createSkill rt source hub decision userInput x).1.calls = x.calls := by
  rw [← generateSkillCode_ok userInput] at h
  unfold createSkill
  cases hcode : generateSkillCode rt source userInput with
  | error e => rfl
  | ok code => exact absurd ⟨code, hcode⟩ h

/-- Where no skill is created, one is run if the decision says so and there are arguments. -/
lemma calls_run (h : decision.matched = true)
    (hcreate : ¬(decision.action = .forceCreateSkill ∧ source.IsReadable rt)) :
    Calls "run_skill" (executeCimDecision rt source hub decision userInput).calls ↔
      HasArgs rt userInput ∧ (decision.action = .forceRunSkill ∨ decision.action = .runSkill) := by
  rw [executeCimDecision_calls h]
  unfold executeAction
  revert hcreate
  cases decision.action with
  | forceCreateSkill =>
    intro hcreate
    have hsource : ¬source.IsReadable rt := fun hs => hcreate ⟨rfl, hs⟩
    simp [createSkill_calls_of_not_readable hsource]
  | forceRunSkill | runSkill => simp [calls_runSkill]
  | _ => simp

end Calls

/-! ### The decision -/

section Decision

variable {rt : CimRuntime} {source : TemplateSource} {hub : Hub} {engine : CIMPolicyEngine}
  {userInput : String} {availableSkills : List String} {policy : Policy} {confidence : PyFloat}
  {decision : CIMDecision}

/-- A text in a column is there whatever the default. -/
lemma get_eq_some_iff {row : CsvRow} {key text : String} {default : Option String}
    (h : default ≠ some text) :
    row.get key default = some text ↔ row.get key none = some text := by
  unfold CsvRow.get
  cases row.lookup key with
  | none => simp [h]
  | some cell => rfl

/-- What is decided for a row: a denial, or the action that the row names. -/
lemma decidePolicy_cases
    (h : decidePolicy rt userInput availableSkills policy confidence = .ok decision) :
    decision.matched = true ∧
      (policy.IsDenied ∧ decision.action = .denyAutonomy ∨
        ¬policy.IsDenied ∧
          decision.action = namedAction rt userInput availableSkills policy) := by
  unfold decidePolicy at h
  obtain ⟨level, hlevel, h⟩ := ok_of_bind h
  obtain ⟨scope, hscope, h⟩ := ok_of_bind h
  have hdenied : policy.IsDenied ↔ (level = .critical ∨ scope = .system) ∧
      policy.columns.get "action_if_missing" none = some "force_create_skill" := by
    simp [Policy.IsDenied, Policy.IsRestricted, hlevel, hscope]
  have hmissing : policy.columns.get "action_if_missing" (some "") = some "force_create_skill" ↔
      policy.columns.get "action_if_missing" none = some "force_create_skill" :=
    get_eq_some_iff (by decide)
  split at h
  next hcritical =>
    cases h
    exact ⟨rfl, .inl ⟨hdenied.mpr ⟨.inl hcritical.1, hmissing.mp hcritical.2⟩, rfl⟩⟩
  next hcritical =>
    split at h
    next hsystem =>
      cases h
      exact ⟨rfl, .inl ⟨hdenied.mpr ⟨.inr hsystem.1, hsystem.2⟩, rfl⟩⟩
    next hsystem =>
      cases h
      refine ⟨rfl, .inr ⟨fun hd => ?_, rfl⟩⟩
      rcases (hdenied.mp hd).1 with hl | hs
      · exact hcritical ⟨hl, hmissing.mpr (hdenied.mp hd).2⟩
      · exact hsystem ⟨hs, (hdenied.mp hd).2⟩

/-- For the row that matches, the gate is kept just where a restricted row creates no skill, and
one that asks for a confirmation neither creates nor runs one. -/
theorem gateKept_iff (hmatch : matchIntent rt engine userInput = some (policy, confidence))
    (hdecision : process rt engine userInput availableSkills = .ok decision) :
    GateKept policy (executeCimDecision rt source hub decision userInput).calls ↔
      (policy.IsRestricted → ¬Creates rt source userInput availableSkills policy) ∧
      (policy.requiresConfirmation = true →
        ¬Creates rt source userInput availableSkills policy ∧
          ¬Runs rt userInput availableSkills policy) := by
  have hdecided : decidePolicy rt userInput availableSkills policy confidence = .ok decision := by
    simpa [process, hmatch] using hdecision
  obtain ⟨hmatched, hcases⟩ := decidePolicy_cases hdecided
  have hcreate : Calls "create_skill" (executeCimDecision rt source hub decision userInput).calls ↔
      Creates rt source userInput availableSkills policy := by
    rw [calls_create hmatched]
    rcases hcases with ⟨hd, ha⟩ | ⟨hd, ha⟩
    · simp [Creates, hd, ha]
    · simp [Creates, hd, ha]
  have hrun : ¬Creates rt source userInput availableSkills policy →
      (Calls "run_skill" (executeCimDecision rt source hub decision userInput).calls ↔
        Runs rt userInput availableSkills policy) := by
    intro hno
    rw [calls_run hmatched (mt (calls_create hmatched).mpr (hcreate.not.mpr hno))]
    rcases hcases with ⟨hd, ha⟩ | ⟨hd, ha⟩
    · simp [Runs, hd, ha]
    · simp [Runs, hd, ha]
  constructor
  · rintro ⟨hrestricted, hconfirmed⟩
    refine ⟨fun h => hcreate.not.mp (hrestricted h), fun h => ?_⟩
    have hno := hcreate.not.mp (hconfirmed h).1
    exact ⟨hno, (hrun hno).not.mp (hconfirmed h).2⟩
  · rintro ⟨hrestricted, hconfirmed⟩
    refine ⟨fun h => hcreate.not.mpr (hrestricted h), fun h => ?_⟩
    exact ⟨hcreate.not.mpr (hconfirmed h).1, (hrun (hconfirmed h).1).not.mpr (hconfirmed h).2⟩

end Decision

/-! ### A run at the shipped table -/

/-- The expression for the wish for a new skill. -/
def creationRegex : String :=
  "(erstelle.*skill|erstelle skill|neue funktion|programmiere|schreibe code für|baue skill|" ++
    "neuer skill)"

/-- The row `expl_create` of the shipped table. -/
def creationRow : CsvRow :=
  [("pattern_id", "expl_create"), ("trigger_category", "meta_creation"),
   ("trigger_regex", creationRegex), ("intent_confidence", "1.0"),
   ("check_skill_exists", "False"), ("skill_scope", "persistent"),
   ("action_if_missing", "force_create_skill"), ("action_if_present", "force_create_skill"),
   ("fallback_action", "fallback_chat"), ("allows_chaining", "False"),
   ("requires_confirmation", "True"), ("safety_level", "medium"), ("priority", "critical"),
   ("notes", "Explizite Erstellung")]

/-- The built-ins on the text `erstelle skill`. -/
def creationRuntime : CimRuntime where
  toPyRuntime := .ascii
  regexCompiles _ := true
  regexSearch pattern text :=
    if pattern = creationRegex ∧ text = "erstelle skill" then
      some ["erstelle skill", "erstelle skill"]
    else none
  regexFindall _ _ := []
  regexRemove _ text := text
  parseFloat text := if text = "1.0" then some (.finite 1) else none
  matchConfidence _ _ := .finite 1
  confident _ _ := true
  maxFloat x _ := x
  fixed2 _ := "1.00"
  md5Hex _ := "a63f1b0162173b5f201c3ce7fddad1ad"
  setList := id

/-- The engine with the row. -/
def creationEngine : CIMPolicyEngine := loadPolicies creationRuntime {} [creationRow]

/-- The row as it is loaded. -/
def creationPolicy : Policy :=
  ⟨creationRow, some "expl_create", false, false, true, .finite 1⟩

/-- What is decided for the row. -/
def creationDecision : CIMDecision where
  matched := true
  action := .forceCreateSkill
  skillName := some "auto_meta_creation_a63f1b"
  requiresConfirmation := true
  policyMatch := some {
    patternId := some "expl_create"
    triggerCategory := some "meta_creation"
    confidence := .finite 1
    action := .forceCreateSkill
    skillScope := .persistent
    safetyLevel := .medium
    requiresConfirmation := true
    allowsChaining := false
    derivedSkillName := some "auto_meta_creation_a63f1b"
    fallbackAction := some .fallbackChat }
  reason := "Pattern 'expl_create' matched mit Confidence 1.00"

/-- A hub whose tools succeed. -/
def willingHub : Hub := fun _ _ => .envelope true []

lemma creation_matches : matchIntent creationRuntime creationEngine "erstelle skill" =
    some (creationPolicy, .finite 1) := by
  decide +kernel

lemma creation_decided :
    process creationRuntime creationEngine "erstelle skill" [] = .ok creationDecision := by
  decide +kernel

theorem gateKept_iff_explicit_creation :
    GateKept creationPolicy
        (executeCimDecision creationRuntime {} willingHub creationDecision "erstelle skill").calls ↔
      (creationPolicy.IsRestricted →
        ¬Creates creationRuntime {} "erstelle skill" [] creationPolicy) ∧
      (creationPolicy.requiresConfirmation = true →
        ¬Creates creationRuntime {} "erstelle skill" [] creationPolicy ∧
          ¬Runs creationRuntime "erstelle skill" [] creationPolicy) :=
  gateKept_iff creation_matches creation_decided

/-- The shipped table has a skill created on a bare request, although the row asks for a
confirmation. -/
theorem gate_not_kept :
    ¬∀ (rt : CimRuntime) (source : TemplateSource) (hub : Hub) (engine : CIMPolicyEngine)
      (userInput : String) (availableSkills : List String) (policy : Policy)
      (confidence : PyFloat) (decision : CIMDecision),
      matchIntent rt engine userInput = some (policy, confidence) →
      process rt engine userInput availableSkills = .ok decision →
      GateKept policy (executeCimDecision rt source hub decision userInput).calls := by
  intro h
  have hgate := h creationRuntime {} willingHub creationEngine "erstelle skill" [] creationPolicy _
    creationDecision creation_matches creation_decided
  exact (hgate.confirmed rfl).1 ((calls_create rfl).mpr ⟨rfl, [], rfl⟩)

end Trion.CimPolicy
