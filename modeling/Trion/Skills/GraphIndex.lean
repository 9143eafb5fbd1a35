import Mathlib.Data.Prod.Lex
import Mathlib.Data.String.Basic
import Trion.Library.FirstOfKey
import Trion.Library.OrderedDict
import Trion.Python.JsonLoads
import Trion.Python.Text

/-!
# The skill index in the graph

`skill_manager.py` of the skill server: rows of the graph are read as skill candidates, compared
with the installed skills, and a plan of tombstones and upserts is drawn up and written as new
rows.  The graph is only an index; what is installed is never changed here.
-/

namespace Trion.Skills

open Trion.Python FirstOfKey

/-! ### The installed skills -/

/-- What is stored of an installed skill; a `skillKey` that is not stored is empty. -/
structure SkillInfo where
  skillKey : String
  description : String
  triggers : List String
deriving Repr

/-- The file `installed.json`. -/
inductive InstalledFile where
  | missing
  /-- It cannot be read, or is no JSON object. -/
  | unreadable
  /-- The envelope with `schema_version` 2, `none` where `skills` is no object. -/
  | envelope (skills : Option (List (String × SkillInfo)))
  | legacy (skills : List (String × SkillInfo))
deriving Repr

/-- `_load_installed`. -/
def loadInstalled : InstalledFile → List (String × SkillInfo)
  | .missing | .unreadable => []
  | .envelope skills => skills.getD []
  | .legacy skills => skills

/-- What the skill server takes from the runtime: JSON, the mode of skill keys and the clock. -/
structure GraphRuntime extends PyRuntime where
  loads : String → Option PyVal
  dumps : PyDict → String
  /-- `SKILL_KEY_MODE`. -/
  skillKeyMode : String
  utcnow : String
  localtime : String
  loads_dumps : ∀ d : PyDict, (OrderedDict.keys d).Nodup → (∀ e ∈ d, IsFlat e.2) →
    loads (dumps d) = some (.dict d)
  dumps_ne_empty : ∀ d : PyDict, dumps d ≠ ""
  /-- `str.lower` makes no white space. -/
  strip_lower : ∀ s, strip s = s → strip (lower s) = lower s

variable (rt : GraphRuntime)

/-- `_normalize_skill_key`. -/
def normalizeSkillKey (name : String) : String :=
  replaceChar ' ' "_" (replaceChar '-' "_" (rt.lower (strip name)))

/-- An entry of `truth_index`. -/
structure TruthSkill where
  skillKey : String
  name : String
  description : String
  triggers : List String
deriving Repr

/-- An installed skill under its key. -/
def truthSkill (e : String × SkillInfo) : TruthSkill :=
  ⟨orElse e.2.skillKey (normalizeSkillKey rt e.1), e.1, e.2.description, e.2.triggers⟩

/-- `truth_index` of `reconcile_skill_graph_index`. -/
def truthIndex (file : InstalledFile) : List (String × TruthSkill) :=
  OrderedDict.insertAll (fun e => (truthSkill rt e).skillKey) (truthSkill rt) []
    (loadInstalled file)

/-! ### Candidates -/

/-- The exceptions that reading a row lets escape. -/
inductive CandidateError where
  | attributeError
  | indexError
  | overflowError
deriving DecidableEq, Repr

/-- What `parse_skill_graph_candidate` makes of a row. -/
structure Candidate where
  skillKey : String
  skillName : String
  updatedAt : String
  isDeleted : Bool
  nodeId : ℤ
  metadata : PyDict
  content : String
deriving Repr

/-- `_coerce_bool_flag`. -/
def coerceBoolFlag : PyVal → Bool
  | .bool b => b
  | .none => false
  | .int n => n != 0
  | .float f => f != .finite 0
  | value => rt.lower (strip (value.toStr rt.toPyRuntime)) ∈ ["1", "true", "yes", "on"]

/-- The metadata of a row; a text that is JSON but no object has no `get`. -/
def readMetadata (raw : PyDict) : Except CandidateError PyDict :=
  match (raw.get "metadata").or (.dict []) with
  | .str text =>
    match rt.loads text with
    | none => .ok []
    | some value =>
      match value.or (.dict []) with
      | .dict d => .ok d
      | _ => .error .attributeError
  | .dict d => .ok d
  | _ => .ok []

/-- The name of a candidate: the one in the metadata, or the beginning of the content. -/
def candidateName (stored content : String) : Except CandidateError String :=
  let name := strip stored
  let name :=
    if name = "" ∧ ':' ∈ content.toList then strip (beforeFirst ':' content) else name
  if name = "" ∧ content ≠ "" then
    match strSplit content with
    | word :: _ => .ok (strip word)
    | [] => .error .indexError
  else .ok name

/-- The key of a candidate: the one in the metadata, or the one of its name. -/
def candidateKey (stored name : String) : String :=
  if strip stored = "" then normalizeSkillKey rt name else strip stored

/-- The id of a row. -/
def rowNodeId (raw : PyDict) : Except CandidateError ℤ :=
  match (((raw.get "id").or (raw.get "node_id")).or (.int 0)).toInt rt.toPyRuntime with
  | .ok n => .ok n
  | .error .overflowError => .error .overflowError
  | .error _ => .ok 0

/-- `parse_skill_graph_candidate`. -/
def parseSkillGraphCandidate : PyVal → Except CandidateError (Option Candidate)
  | .dict raw => do
    let meta_ ← readMetadata rt raw
    let content := (PyDict.get raw "content").strOr rt.toPyRuntime ""
    let skillName ←
      candidateName (((meta_.get "skill_name").or (meta_.get "name")).strOr rt.toPyRuntime "")
        content
    let skillKey := candidateKey rt ((meta_.get "skill_key").strOr rt.toPyRuntime "") skillName
    if skillKey = "" then return none
    else
      let nodeId ← rowNodeId rt raw
      return some
        { skillKey := skillKey
          skillName := orElse skillName skillKey
          updatedAt := (meta_.get "updated_at").strOr rt.toPyRuntime ""
          isDeleted := coerceBoolFlag rt (meta_.get "is_deleted")
          nodeId := nodeId
          metadata := meta_
          content := content }
  | _ => .ok none

/-- What tells a row in `dedupe_latest_skill_graph_candidates`. -/
inductive RowKey where
  | id (nodeId : ℤ)
  | fallback (skillKey : String) (isDeleted : Bool) (content : String)
deriving DecidableEq

/-- The key of a candidate among the rows. -/
def Candidate.rowKey (c : Candidate) : RowKey :=
  if 0 < c.nodeId then .id c.nodeId else .fallback c.skillKey c.isDeleted c.content

/-- `dedupe_latest_skill_graph_candidates`. -/
def dedupeLatestSkillGraphCandidates (candidates : List Candidate) : List Candidate :=
  firstOfKey Candidate.rowKey [] candidates

/-- The candidates that a list of rows is read as. -/
def graphCandidates (rows : List PyVal) : Except CandidateError (List Candidate) := do
  let parsed ← rows.mapM (parseSkillGraphCandidate rt)
  return dedupeLatestSkillGraphCandidates (parsed.filterMap id)

/-! ### The plan -/

/-- A tombstone that is planned. -/
structure Tombstone where
  skillKey : String
  skillName : String
  reason : String
  sourceNodeId : ℤ
deriving Repr

structure ReconcilePlan where
  tombstones : List Tombstone
  upserts : List TruthSkill
deriving Repr

/-- `by_key`. -/
def candidatesByKey (candidates : List Candidate) : List (String × List Candidate) :=
  ((candidates.map Candidate.skillKey).filter (· != "")).eraseDups.map fun sk =>
    (sk, candidates.filter (·.skillKey == sk))

/-- The rows of a key, the newest first. -/
def newestFirst (rows : List Candidate) : List Candidate :=
  rows.mergeSort fun a b =>
    decide (toLex (b.updatedAt, b.nodeId) ≤ toLex (a.updatedAt, a.nodeId))

/-- The turn of the loop of `plan_skill_graph_reconcile` for one key. -/
def planKey (truth : List (String × TruthSkill)) (sk : String) (rows : List Candidate) :
    ReconcilePlan :=
  let rowsSorted := newestFirst rows
  let live := rowsSorted.filter fun r => !r.isDeleted
  let hasTombstone := rowsSorted.any Candidate.isDeleted
  match OrderedDict.get? truth sk, live with
  | none, [] => ⟨[], []⟩
  | none, g :: _ =>
    if hasTombstone then ⟨[], []⟩
    else ⟨[⟨sk, g.skillName, "ghost_skill", g.nodeId⟩], []⟩
  | some skill, [] => ⟨[], [skill]⟩
  | some _, _ :: stale =>
    if stale ≠ [] ∧ !hasTombstone then
      ⟨stale.map fun r => ⟨sk, r.skillName, "stale_duplicate", r.nodeId⟩, []⟩
    else ⟨[], []⟩

/-- `plan_skill_graph_reconcile`. -/
def planSkillGraphReconcile (truth : List (String × TruthSkill)) (candidates : List Candidate) :
    ReconcilePlan :=
  let byKey := candidatesByKey candidates
  let planned := byKey.map fun e => planKey truth e.1 e.2
  let unseen := truth.filter fun e => !(byKey.any fun e' => e'.1 == e.1)
  let upserts := planned.flatMap ReconcilePlan.upserts ++ unseen.map Prod.snd
  { tombstones := planned.flatMap ReconcilePlan.tombstones
    upserts := firstOfKey TruthSkill.skillKey [] (upserts.filter (·.skillKey != "")) }

/-! ### The rows that are written -/

/-- A row as the search returns it for a node that `graph_add_node` has added. -/
def graphRow (content : String) (metadata : PyDict) (id : ℤ) : PyVal :=
  .dict [("id", .int id), ("content", .str content), ("metadata", .str (rt.dumps metadata))]

/-- The metadata of `_write_skill_tombstone`. -/
def tombstoneMetadata (t : Tombstone) : PyDict :=
  [("skill_name", .str t.skillName), ("skill_key", .str t.skillKey), ("is_deleted", .bool true),
    ("deleted_at", .str (rt.utcnow ++ "Z")), ("reconcile_reason", .str t.reason),
    ("source_node_id", .int t.sourceNodeId), ("source", .str "skill_graph_reconcile")]

/-- The row of `_write_skill_tombstone`. -/
def tombstoneRow (t : Tombstone) : ℤ → PyVal :=
  graphRow rt (t.skillName ++ ": tombstone (" ++ t.reason ++ ")") (tombstoneMetadata rt t)

/-- The words that are no keywords. -/
def stopWords : List String :=
  ["der", "die", "das", "ein", "eine", "und", "oder", "ist", "sind", "wird", "werden", "für",
    "von", "mit", "auf", "bei", "nach", "the", "a", "an", "is", "are", "for", "of", "with", "on",
    "in", "to", "and", "or", "it", "skill", "erstellt", "zeigt", "gibt", "macht", "holt",
    "liefert", "shows", "gets", "returns"]

/-- The letters of `[a-zA-ZäöüÄÖÜß]`. -/
def isKeywordLetter (c : Char) : Bool := c.isAlpha || "äöüÄÖÜß".toList.contains c

/-- `re.findall(r"[a-zA-ZäöüÄÖÜß]{3,}", text)`. -/
def letterRuns (text : String) : List String :=
  ((text.toList.splitOnP fun c => !isKeywordLetter c).filter (3 ≤ ·.length)).map String.ofList

/-- `_extract_skill_keywords`.  After `lower` the camel case split finds no capitals. -/
def extractSkillKeywords (name description : String) (triggers : List String) : List String :=
  let parts := ((rt.lower name).toList.splitOnP fun c => c == '_' || c == '-' || isSpace c).map
    String.ofList
  let words := (parts.flatMap fun part => strSplit (rt.lower part)).filter (3 ≤ ·.length)
  let found := words ++ letterRuns (rt.lower description) ++
    triggers.flatMap fun t => letterRuns (rt.lower t)
  ((found.filter fun w => !stopWords.contains w).eraseDups.mergeSort fun a b => a ≤ b).take 20

/-- The key that `_register_skill_in_graph` writes. -/
def writtenKey (name : String) : String :=
  if rt.lower rt.skillKeyMode ≠ "legacy" then
    replaceChar ' ' "_" (replaceChar '-' "_" (rt.lower name))
  else name

/-- The content of the row of a skill. -/
def registeredContent (skill : TruthSkill) : String :=
  let triggersText := ", ".intercalate skill.triggers
  let keywordsText :=
    " ".intercalate (extractSkillKeywords rt skill.name skill.description skill.triggers)
  skill.name ++ ": " ++ skill.description ++
    (if triggersText = "" then "" else ". Triggers: " ++ triggersText) ++
    (if keywordsText = "" then "" else ". Keywords: " ++ keywordsText)

/-- The metadata of `_register_skill_in_graph`. -/
def registeredMetadata (skill : TruthSkill) : PyDict :=
  [("skill_name", .str skill.name), ("skill_key", .str (writtenKey rt skill.name)),
    ("channel", .str "active"),
    ("keywords", .list
      ((extractSkillKeywords rt skill.name skill.description skill.triggers).map .str)),
    ("updated_at", .str rt.localtime)]

/-- The row of `_register_skill_in_graph`. -/
def registeredRow (skill : TruthSkill) : ℤ → PyVal :=
  graphRow rt (registeredContent rt skill) (registeredMetadata rt skill)

/-- An action of a plan. -/
inductive ReconcileAction where
  | tombstone (t : Tombstone)
  | upsert (skill : TruthSkill)
deriving Repr

/-- The actions of a plan in the order in which they are carried out. -/
def ReconcilePlan.actions (plan : ReconcilePlan) : List ReconcileAction :=
  plan.tombstones.map .tombstone ++ plan.upserts.map .upsert

/-- The row that an action adds. -/
def ReconcileAction.row : ReconcileAction → ℤ → PyVal
  | .tombstone t => tombstoneRow rt t
  | .upsert skill => registeredRow rt skill

/-- The rows that actions add, with the ids that the graph gives from `next` on. -/
def addedRows (next : ℤ) : List ReconcileAction → List PyVal
  | [] => []
  | action :: actions => action.row rt next :: addedRows (next + 1) actions

end Trion.Skills
