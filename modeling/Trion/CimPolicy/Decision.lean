import Trion.Python.Text

/-!
# The policy engine

The policy table that decides what the assistant may do with skills on its own: how the rows of
the file are loaded, which row a text matches, how a name for the skill is derived, and what is
decided.  The regular expressions of the table are arbitrary, so their engine is a parameter,
and so are the operations on floats, which decide nothing but which row matches.
-/

namespace Trion.CimPolicy

open Trion.Python

/-! ### What the engine rests on -/

/-- The built-ins of the engine: regular expressions (ignoring case), floats, a hash and the
order of a set. -/
structure CimRuntime extends PyRuntime where
  /-- Whether `re.compile` accepts the pattern. -/
  regexCompiles : String → Bool
  /-- The groups of `re.search(pattern, text)`, the whole match first. -/
  regexSearch : String → String → Option (List String)
  /-- `re.findall(pattern, text)`. -/
  regexFindall : String → String → List String
  /-- `re.sub(pattern, "", text)`. -/
  regexRemove : String → String → String
  /-- `float(text)`, `none` where it raises a `ValueError`. -/
  parseFloat : String → Option PyFloat
  /-- `min(1.0, match_len / max(input_len * 0.3, 1))`. -/
  matchConfidence : ℕ → ℕ → PyFloat
  /-- `match_confidence >= min_confidence * 0.8`. -/
  confident : PyFloat → PyFloat → Bool
  /-- `max` of two floats. -/
  maxFloat : PyFloat → PyFloat → PyFloat
  /-- The float with two decimals. -/
  fixed2 : PyFloat → String
  /-- `hashlib.md5(text.encode()).hexdigest()`. -/
  md5Hex : String → String
  /-- `list(set(texts))`. -/
  setList : List String → List String

/-- `SafetyLevel`. -/
inductive SafetyLevel where
  | low
  | medium
  | high
  | critical
deriving DecidableEq, Repr

/-- `SkillScope`. -/
inductive SkillScope where
  | stateless
  | session
  | persistent
  | system
deriving DecidableEq, Repr

/-- `ActionType`. -/
inductive ActionType where
  | forceCreateSkill
  | forceRunSkill
  | runSkill
  | listSkills
  | webSearch
  | policyCheck
  | denyAutonomy
  | requestUserConfirmation
  | fallbackChat
  | retryOnce
  | markSkillUnstable
deriving DecidableEq, Repr

/-- `SafetyLevel(text)`. -/
def SafetyLevel.ofValue : Option String → Except PyError SafetyLevel
  | some "low" => .ok .low
  | some "medium" => .ok .medium
  | some "high" => .ok .high
  | some "critical" => .ok .critical
  | v => .error (.valueError (v.getD "None" ++ " is not a valid SafetyLevel"))

/-- `SkillScope(text)`. -/
def SkillScope.ofValue : Option String → Except PyError SkillScope
  | some "stateless" => .ok .stateless
  | some "session" => .ok .session
  | some "persistent" => .ok .persistent
  | some "system" => .ok .system
  | v => .error (.valueError (v.getD "None" ++ " is not a valid SkillScope"))

/-- The text of an action. -/
def ActionType.value : ActionType → String
  | .forceCreateSkill => "force_create_skill"
  | .forceRunSkill => "force_run_skill"
  | .runSkill => "run_skill"
  | .listSkills => "list_skills"
  | .webSearch => "web_search"
  | .policyCheck => "policy_check"
  | .denyAutonomy => "deny_autonomy"
  | .requestUserConfirmation => "request_user_confirmation"
  | .fallbackChat => "fallback_chat"
  | .retryOnce => "retry_once"
  | .markSkillUnstable => "mark_skill_unstable"

/-- `ActionType(text)`, and the fallback to a chat where the text names no action. -/
def ActionType.ofValue : Option String → ActionType
  | some "force_create_skill" => .forceCreateSkill
  | some "force_run_skill" => .forceRunSkill
  | some "run_skill" => .runSkill
  | some "list_skills" => .listSkills
  | some "web_search" => .webSearch
  | some "policy_check" => .policyCheck
  | some "deny_autonomy" => .denyAutonomy
  | some "request_user_confirmation" => .requestUserConfirmation
  | some "retry_once" => .retryOnce
  | some "mark_skill_unstable" => .markSkillUnstable
  | _ => .fallbackChat

/-! ### The table -/

/-- The columns of a row of a file, by their headers.  A column the row is too short for has no
text. -/
abbrev CsvRow := List (String × Option String)

/-- `row.get(key, default)`. -/
def CsvRow.get (row : CsvRow) (key : String) (default : Option String) : Option String :=
  (row.lookup key).getD default

/-- A row as the loader leaves it: its columns, and the four it has parsed. -/
structure Policy where
  columns : CsvRow
  patternId : Option String
  checkSkillExists : Bool
  allowsChaining : Bool
  requiresConfirmation : Bool
  intentConfidence : PyFloat
deriving DecidableEq

/-- The engine: the rows in the order in which they are tried, and the compiled expressions by
the name of the row, the latest first. -/
structure CIMPolicyEngine where
  policies : List Policy := []
  compiledPatterns : List (Option String × String) := []

section Loading

variable (rt : CimRuntime)

/-- `row.get(key, "").lower() == "true"`. -/
def parseFlag (row : CsvRow) (key : String) : Except PyError Bool :=
  match row.get key (some "") with
  | some text => .ok (rt.lower text == "true")
  | none => .error .attributeError

/-- The confidence of a row. -/
def parseConfidence (row : CsvRow) : Except PyError PyFloat :=
  match row.lookup "intent_confidence" with
  | none => .ok (.finite (1 / 2))
  | some none => .error .typeError
  | some (some text) =>
    match rt.parseFloat text with
    | some confidence => .ok confidence
    | none => .error (.valueError s!"could not convert string to float: '{text}'")

/-- The body of the loop of `_load_policies`. -/
def loadRow (engine : CIMPolicyEngine) (row : CsvRow) : Except PyError CIMPolicyEngine := do
  let checkSkillExists ← parseFlag rt row "check_skill_exists"
  let allowsChaining ← parseFlag rt row "allows_chaining"
  let requiresConfirmation ← parseFlag rt row "requires_confirmation"
  let intentConfidence ← parseConfidence rt row
  let patternId ← match row.lookup "pattern_id" with
    | some name => .ok name
    | none => .error (.valueError "pattern_id")
  let policy : Policy :=
    ⟨row, patternId, checkSkillExists, allowsChaining, requiresConfirmation, intentConfidence⟩
  match row.get "trigger_regex" (some "") with
  | some regex =>
    if regex = "" then return { engine with policies := engine.policies ++ [policy] }
    else if rt.regexCompiles regex then
      return { policies := engine.policies ++ [policy],
               compiledPatterns := (patternId, regex) :: engine.compiledPatterns }
    else return engine
  | none => return { engine with policies := engine.policies ++ [policy] }

/-- `priority_order.get(row.get("priority", "normal"), 2)`. -/
def priorityOf (policy : Policy) : ℕ :=
  match policy.columns.get "priority" (some "normal") with
  | some "critical" => 0
  | some "high" => 1
  | some "low" => 3
  | _ => 2

/-- The stable sort by priority. -/
def sortByPriority (policies : List Policy) : List Policy :=
  [0, 1, 2, 3].flatMap fun rank => policies.filter (priorityOf · = rank)

/-- `_load_policies`: a row that raises ends the loading, and the rows before it stay as they
are, unsorted. -/
def loadPolicies (engine : CIMPolicyEngine) : List CsvRow → CIMPolicyEngine
  | [] => { engine with policies := sortByPriority engine.policies }
  | row :: rows =>
    match loadRow rt engine row with
    | .ok engine => loadPolicies engine rows
    | .error _ => engine

end Loading

/-! ### The matching row -/

section Matching

variable (rt : CimRuntime)

/-- What one row comes to: the confidence with which it matches. -/
def matchPolicy (engine : CIMPolicyEngine) (userLower : String) (policy : Policy) :
    Option (Policy × PyFloat) := do
  let pattern ← engine.compiledPatterns.lookup policy.patternId
  let groups ← rt.regexSearch pattern userLower
  let confidence := rt.matchConfidence (groups.headD "").length userLower.length
  if policy.requiresConfirmation then
    return (policy, rt.maxFloat confidence policy.intentConfidence)
  else if rt.confident confidence policy.intentConfidence then return (policy, confidence)
  else none

/-- `_match_intent`: the first row that matches. -/
def matchIntent (engine : CIMPolicyEngine) (userInput : String) : Option (Policy × PyFloat) :=
  engine.policies.findSome? (matchPolicy rt engine (strip (rt.lower userInput)))

end Matching

/-! ### The name of a skill -/

/-- `text.strip(chars)`. -/
def stripChars (chars : List Char) (s : String) : String :=
  String.ofList ((s.toList.dropWhile (· ∈ chars)).reverse.dropWhile (· ∈ chars)).reverse

/-- One underscore in the place of several. -/
def collapseUnderscores : List Char → List Char
  | '_' :: '_' :: cs => collapseUnderscores ('_' :: cs)
  | c :: cs => c :: collapseUnderscores cs
  | [] => []

/-- Underscores in the place of all characters but small letters, digits and underscores, one
for several, and none at the ends. -/
def slug (s : String) : String :=
  stripChars ['_'] (String.ofList (collapseUnderscores
    (s.toList.map fun c => if c.isLower || c.isDigit || c = '_' then c else '_')))

/-- The expressions for a name that the user gives. -/
def explicitNamePatterns : List String :=
  [r#"(?:skill|funktion)\s+namens\s+[`\"']?([A-Za-z][A-Za-z0-9_-]{2,63})[`\"']?"#,
   r#"(?:namens|named|called|name)\s+[`\"']?([A-Za-z][A-Za-z0-9_-]{2,63})[`\"']?"#]

/-- Words that are no names. -/
def nameStopwords : List String :=
  ["skill", "funktion", "function", "neu", "neue", "new",
   "bitte", "einen", "eine", "einer", "den", "die", "das"]

/-- What is stripped from a name. -/
def nameMarks : List Char := "`\"'.,:;!?()[]\x7b\x7d ".toList

section Naming

variable (rt : CimRuntime)

/-- `_extract_explicit_skill_name`. -/
def extractExplicitSkillName (userInput : String) : Option String :=
  let text := strip userInput
  if text = "" then none
  else explicitNamePatterns.findSome? fun pattern => do
    let groups ← rt.regexSearch pattern text
    let candidate :=
      slug (replaceChar '-' "_" (rt.lower (stripChars nameMarks (groups.getD 1 ""))))
    if 3 ≤ candidate.length ∧ candidate ∉ nameStopwords then some candidate else none

/-- `math_keywords + data_keywords`. -/
def nameKeywords : List String :=
  ["fibonacci", "fakultät", "factorial", "primzahl", "wurzel",
   "quadrat", "addition", "subtraktion", "multiplikation", "division",
   "csv", "json", "sortier", "filter", "tabelle", "liste", "konvertier"]

/-- `_derive_skill_name`. -/
def deriveSkillName (userInput : String) (policy : Policy) : String :=
  match extractExplicitSkillName rt userInput with
  | some name => name
  | none =>
    let category := (policy.columns.get "trigger_category" (some "general")).getD "None"
    let keywords := (nameKeywords.filter (containsStr (rt.lower userInput) ·)).map fun keyword =>
      replaceChar 'ö' "oe" (replaceChar 'ü' "ue" (replaceChar 'ä' "ae" keyword))
    let ending := keywords.headD (sliceTo (rt.md5Hex userInput) 6)
    slug (rt.lower s!"auto_{category}_{ending}")

end Naming

/-! ### The decision -/

/-- `PolicyMatch`. -/
structure PolicyMatch where
  patternId : Option String
  triggerCategory : Option String
  confidence : PyFloat
  action : ActionType
  skillScope : SkillScope
  safetyLevel : SafetyLevel
  requiresConfirmation : Bool
  allowsChaining : Bool
  derivedSkillName : Option String := none
  fallbackAction : Option ActionType := none
deriving DecidableEq

/-- `CIMDecision`. -/
structure CIMDecision where
  matched : Bool
  action : ActionType
  skillName : Option String := none
  requiresConfirmation : Bool := false
  policyMatch : Option PolicyMatch := none
  reason : String := ""
deriving DecidableEq

section Deciding

variable (rt : CimRuntime)

/-- Some available skill has the name, or has it as a part of its own. -/
def skillExists (skillName : String) (availableSkills : List String) : Bool :=
  availableSkills.any fun item =>
    rt.lower item == rt.lower skillName || containsStr (rt.lower item) skillName

/-- The text of the action that the row names. -/
def actionString (policy : Policy) (present : Bool) : Option String :=
  if policy.checkSkillExists then
    if present then policy.columns.get "action_if_present" (some "run_skill")
    else policy.columns.get "action_if_missing" (some "fallback_chat")
  else policy.columns.get "action_if_present" (some "fallback_chat")

/-- What is decided for the row that matches. -/
def decidePolicy (userInput : String) (availableSkills : List String) (policy : Policy)
    (confidence : PyFloat) : Except PyError CIMDecision := do
  let skillName := deriveSkillName rt userInput policy
  let safetyLevel ← SafetyLevel.ofValue (policy.columns.get "safety_level" (some "low"))
  let skillScope ← SkillScope.ofValue (policy.columns.get "skill_scope" (some "stateless"))
  if safetyLevel = .critical ∧
      policy.columns.get "action_if_missing" (some "") = some "force_create_skill" then
    return { matched := true, action := .denyAutonomy, skillName := some skillName,
             requiresConfirmation := true,
             reason := "Sicherheitslevel CRITICAL - Autonome Erstellung verboten" }
  else if skillScope = .system ∧
      policy.columns.get "action_if_missing" none = some "force_create_skill" then
    return { matched := true, action := .denyAutonomy, skillName := some skillName,
             reason := "System-Scope Skills können nicht automatisch erstellt werden" }
  else
    let present := skillExists rt skillName availableSkills
    let action := ActionType.ofValue (actionString policy present)
    let fallbackAction :=
      ActionType.ofValue (policy.columns.get "fallback_action" (some "fallback_chat"))
    return {
      matched := true
      action
      skillName := some skillName
      requiresConfirmation := policy.requiresConfirmation
      policyMatch := some {
        patternId := policy.patternId
        triggerCategory := policy.columns.get "trigger_category" (some "")
        confidence, action, skillScope, safetyLevel
        requiresConfirmation := policy.requiresConfirmation
        allowsChaining := policy.allowsChaining
        derivedSkillName := some skillName
        fallbackAction := some fallbackAction }
      reason := "Pattern '" ++ policy.patternId.getD "None" ++ "' matched mit Confidence " ++
        rt.fixed2 confidence }

/-- `process`. -/
def process (engine : CIMPolicyEngine) (userInput : String) (availableSkills : List String) :
    Except PyError CIMDecision :=
  match matchIntent rt engine userInput with
  | none => .ok { matched := false, action := .fallbackChat,
                  reason := "Kein Policy-Pattern matched" }
  | some (policy, confidence) => decidePolicy rt userInput availableSkills policy confidence

end Deciding

end Trion.CimPolicy
