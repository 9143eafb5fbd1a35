import Trion.CimPolicy.Decision

/-!
# The execution of a decision

`execute_cim_decision` and what it puts together for the tools: the code of a new skill from
the templates, the triggers and the arguments.  The tools are called through a hub, whose answer
to a call may depend on all calls before it.
-/

namespace Trion.CimPolicy

open Trion.Python

/-! ### The hub -/

/-- A call of a tool. -/
structure ToolCall where
  tool : String
  args : PyDict

/-- What becomes of a call: it raises, or it returns an envelope with its status and its wire
form, or something else. -/
inductive HubAnswer where
  | raised (text : String)
  | envelope (success : Bool) (wire : PyDict)
  | other

/-- The answers of the hub, after the calls before. -/
abbrev Hub := List ToolCall → ToolCall → HubAnswer

/-- The course of an execution: the result so far and the calls made. -/
structure Execution where
  result : PyDict
  calls : List ToolCall := []

/-- `result[key] = value`. -/
def Execution.put (x : Execution) (key : String) (value : PyVal) : Execution :=
  { x with result := x.result.set key value }

/-- `hub.call_tool_async(tool, args)`, with `_project_call_result` for the answer, which is
written to the result. -/
def callTool (hub : Hub) (call : ToolCall) (key : String) (x : Execution) :
    Execution × Except PyError Bool :=
  let called := { x with calls := x.calls ++ [call] }
  match hub x.calls call with
  | .raised text => (called, .error (.callbackError text))
  | .envelope success wire =>
    ((called.put key (.dict wire)).put "executed" (.bool success), .ok success)
  | .other => (called, .error .typeError)

@[simp] lemma Execution.put_calls (x : Execution) (key : String) (value : PyVal) :
    (x.put key value).calls = x.calls := rfl

@[simp] lemma callTool_calls (hub : Hub) (call : ToolCall) (key : String) (x : Execution) :
    (callTool hub call key x).1.calls = x.calls ++ [call] := by
  unfold callTool
  cases hub x.calls call <;> rfl

/-! ### What goes into the calls -/

/-- A template for the code of a skill. -/
structure SkillTemplate where
  keywords : List String
  columns : CsvRow

/-- Where the templates come from: what an earlier execution has read, and the file, which may
be missing or raise. -/
structure TemplateSource where
  cache : Option (List SkillTemplate) := none
  file : Option (Except PyError (List CsvRow)) := none

section Support

variable (rt : CimRuntime)

/-- A row of the file of templates. -/
def templateOf (row : CsvRow) : Except PyError SkillTemplate :=
  match row.get "intent_keywords" (some "") with
  | some raw =>
    .ok { keywords := ((splitOn '|' raw).filter (strip · ≠ "")).map fun word =>
            rt.lower (strip word)
          columns := row }
  | none => .error .attributeError

/-- `_load_skill_templates`. -/
def loadSkillTemplates (source : TemplateSource) : Except PyError (List SkillTemplate) :=
  match source.cache with
  | some templates => .ok templates
  | none =>
    match source.file with
    | none => .ok []
    | some (.error e) => .error e
    | some (.ok rows) => rows.mapM (templateOf rt)

/-- The first template that the most of its keywords speak for, with their number. -/
def bestTemplate (userInput : String) (templates : List SkillTemplate) :
    Option SkillTemplate × ℕ :=
  templates.foldl (fun best template =>
    let score := template.keywords.countP (containsStr (rt.lower userInput))
    if best.2 < score then (some template, score) else best) (none, 0)

/-- The code of a skill that no template fits. -/
def defaultCode (userInput : String) : String :=
  "\ndef run(input_text: str = \"\") -> dict:\n    \"\"\"Auto-generierter Skill für: " ++
    sliceTo userInput 30 ++
    "\"\"\"\n    return \x7b\"input\": input_text, \"processed\": True\x7d\n"

/-- `_generate_skill_code`. -/
def generateSkillCode (source : TemplateSource) (userInput : String) :
    Except PyError (Option String) := do
  let templates ← loadSkillTemplates rt source
  match bestTemplate rt userInput templates with
  | (some template, _) => return template.columns.get "code_template" (some "")
  | (none, _) => return some (defaultCode userInput)

/-- The words that trigger a new skill. -/
def triggerKeywords : List String :=
  ["berechne", "kalkuliere", "fibonacci", "fakultät", "wurzel",
   "sortiere", "filtere", "konvertiere", "liste"]

/-- `_extract_triggers`. -/
def extractTriggers (userInput : String) : List String :=
  let triggers := (strSplit (rt.lower userInput)).flatMap fun word =>
    triggerKeywords.filter (containsStr word)
  if triggers = [] then ["auto"] else rt.setList triggers

/-- `_extract_args`: the first number of the text. -/
def extractArgs (userInput : String) : Except PyError PyDict :=
  match rt.regexFindall r"\d+\.?\d*" userInput with
  | [] => .ok []
  | number :: _ =>
    match rt.parseFloat number with
    | some value => do
      let n ← (PyVal.float value).toInt rt.toPyRuntime
      return [("n", .int n)]
    | none => .error (.valueError s!"could not convert string to float: '{number}'")

/-- `_extract_search_query`. -/
def extractSearchQuery (userInput : String) : String :=
  strip (rt.regexRemove "(suche nach|suche im internet|google mal|recherchiere)" userInput)

end Support

/-! ### Executing -/

/-- The text of an exception. -/
def errorText : PyError → String
  | .valueError text => text
  | .typeError => "CIM tool calls require MCPToolResultEnvelope"
  | .attributeError => "'NoneType' object has no attribute 'split'"
  | .overflowError => "cannot convert float infinity to integer"
  | .callbackError text => text

/-- A text that may be missing, as a value. -/
def textOrNone : Option String → PyVal
  | some text => .str text
  | none => .none

section Executing

variable (rt : CimRuntime) (source : TemplateSource) (hub : Hub) (decision : CIMDecision)
  (userInput : String)

/-- The call of `run_skill`, with its answer under `key`. -/
def runSkill (key : String) (x : Execution) : Execution × Except PyError Bool :=
  match extractArgs rt userInput with
  | .error e => (x, .error e)
  | .ok args =>
    callTool hub ⟨"run_skill", [("name", textOrNone decision.skillName), ("args", .dict args)]⟩
      key x

/-- The decision allows the new skill to be run at once. -/
def chains : Bool :=
  match decision.policyMatch with
  | some policyMatch => policyMatch.allowsChaining
  | none => false

/-- The branch of `FORCE_CREATE_SKILL`. -/
def createSkill (x : Execution) : Execution × Except PyError Bool :=
  match generateSkillCode rt source userInput with
  | .error e => (x, .error e)
  | .ok code =>
    match callTool hub ⟨"create_skill",
        [("name", textOrNone decision.skillName), ("code", textOrNone code),
         ("description", .str s!"Auto-generated skill for: {sliceTo userInput 50}"),
         ("triggers", .list ((extractTriggers rt userInput).map .str))]⟩ "output" x with
    | (x, .ok true) =>
      let created := x.put "created_skill" (textOrNone decision.skillName)
      if chains decision then runSkill rt hub decision userInput "run_output" created
      else (created, .ok true)
    | (x, answer) => (x, answer)

/-- The body of the `try`. -/
def executeAction (x : Execution) : Execution × Except PyError Bool :=
  match decision.action with
  | .forceCreateSkill => createSkill rt source hub decision userInput x
  | .forceRunSkill => runSkill rt hub decision userInput "output" x
  | .runSkill => runSkill rt hub decision userInput "output" x
  | .listSkills => callTool hub ⟨"list_skills", []⟩ "output" x
  | .webSearch =>
    (((x.put "output" (.str s!"[Web-Search für: {extractSearchQuery rt userInput}]")).put
      "executed" (.bool true)).put "needs_external" (.bool true), .ok true)
  | .denyAutonomy =>
    ((x.put "output" (.str "Diese Aktion ist aus Sicherheitsgründen nicht erlaubt.")).put
      "denied" (.bool true), .ok false)
  | .requestUserConfirmation =>
    ((x.put "output" (.str ("Soll ich den Skill '" ++ decision.skillName.getD "None" ++
      "' wirklich ausführen/erstellen?"))).put "needs_confirmation" (.bool true), .ok false)
  | .fallbackChat => (x.put "fallback" (.bool true), .ok false)
  | .policyCheck | .retryOnce | .markSkillUnstable => (x, .ok false)

/-- What the `except` writes. -/
def failed (e : PyError) (x : Execution) : Execution :=
  let x := (x.put "error" (.str (errorText e))).put "executed" (.bool false)
  match decision.policyMatch.bind (·.fallbackAction) with
  | some fallback => x.put "fallback_triggered" (.str fallback.value)
  | none => x

/-- The result before anything is done. -/
def started : Execution where
  result := [("executed", .bool false), ("action", .str decision.action.value),
    ("skill_name", textOrNone decision.skillName), ("output", .none), ("error", .none)]

/-- `execute_cim_decision`: what it returns, and the calls it makes. -/
def executeCimDecision : Execution :=
  if decision.matched = false then
    { result := [("executed", .bool false), ("reason", .str decision.reason)] }
  else
    match executeAction rt source hub decision userInput (started decision) with
    | (x, .error e) => failed decision e x
    | (x, .ok _) => x

end Executing

end Trion.CimPolicy
