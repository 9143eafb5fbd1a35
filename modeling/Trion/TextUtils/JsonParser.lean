import Trion.Library.JsonDocuments
import Trion.Library.OrderedDict
import Trion.Library.Substitution
import Trion.Python.Text

/-!
# The JSON parser

An answer of a language model is read as a JSON object by five strategies, one after the other:
as it stands, from its first to its last brace, in its first fenced block, after a repair by
substitutions, and by patterns for keys and values.
-/

namespace Trion.TextUtils

open Trion.Python Patterns JsonText

/-- The rows of a dictionary. -/
abbrev Rows (F : Type) := List (Text × Document F)

/-- What `json` and `re` rest on: the limits of the interpreter, floating point numbers, and the
tables of the Unicode standard. -/
structure ParserRuntime (F : Type) where
  floats : FloatReader F
  /-- The limit for the digits of an integer. -/
  maxDigits : ℕ
  /-- How deep arrays and objects may be nested. -/
  depth : ℕ
  /-- `\w`. -/
  isWord : Char → Bool
  /-- `\d`. -/
  isDecimal : Char → Bool
  /-- `str.isdigit` of one character. -/
  isDigitChar : Char → Bool
  /-- `int` and `float`, where they raise no `ValueError`. -/
  int : List Char → Option ℤ
  float : List Char → Option F
  isWord_ascii : ∀ c : Char, c.toNat < 128 → isWord c = (c.isAlphanum || c = '_')

variable {F : Type} (rt : ParserRuntime F)

/-! ### `json.loads` -/

/-- The code points of a text. -/
def codes (cs : List Char) : Text := cs.map Char.toNat

def ParserRuntime.reader : Reader F Empty where
  floats := rt.floats
  maxDigits := rt.maxDigits
  hook := dictHook F

/-- `json.loads`; what it raises is a `JSONDecodeError`, another `ValueError` for an integer of
too many digits, or a `RecursionError`. -/
def ParserRuntime.loads (text : List Char) : Except (ReadError Empty) (Document F) :=
  JsonText.loads rt.reader rt.depth (codes text)

/-- `except json.JSONDecodeError: pass`. -/
def onDecodeError {α : Type} (x next : Except (ReadError Empty) α) :
    Except (ReadError Empty) α :=
  match x with
  | .error .malformed => next
  | x => x

/-- `except (ValueError, json.JSONDecodeError): pass`. -/
def onValueError {α : Type} (x next : Except (ReadError Empty) α) :
    Except (ReadError Empty) α :=
  match x with
  | .error .malformed => next
  | .error .intDigits => next
  | x => x

/-! ### Repair -/

/-- `raw[raw.index("\x7b"):raw.rindex("\x7d") + 1]`; `none` where one of them raises. -/
def extracted (raw : List Char) : Option (List Char) :=
  if '{' ∈ raw ∧ '}' ∈ raw then
    some ((raw.take (raw.length - raw.reverse.idxOf '}')).drop (raw.idxOf '{'))
  else none

/-- `,\s*}` and `,\s*]`. -/
def trailingComma (bracket : Char) : List Item :=
  [one (· = ','), atLeast 0 isSpace, one (· = bracket)]

/-- `(\s*)(\w+)(\s*):`. -/
def unquotedKey : List Item :=
  [atLeast 0 isSpace, atLeast 1 rt.isWord, atLeast 0 isSpace, one (· = ':')]

/-- `\b`. -/
def boundary : Item :=
  .assertion fun before after => before.any rt.isWord != after.head?.any rt.isWord

/-- `\bTrue\b`, `\bFalse\b` and `\bNone\b`. -/
def wholeWord (word : String) : List Item :=
  boundary rt :: (word.toList.map (fun c => one (· = c)) ++ [boundary rt])

/-- `\1"\2"\3:`. -/
def quotedKey : List (List Char) → List Char
  | [gap, key, gap', _] => gap ++ '"' :: (key ++ '"' :: (gap' ++ [':']))
  | _ => []

/-- `_attempt_json_repair`. -/
def attemptJsonRepair (raw : List Char) : Option (List Char) :=
  (extracted raw).map fun s =>
    let s := substitute (trailingComma '}') (fun _ => ['}']) s
    let s := substitute (trailingComma ']') (fun _ => [']']) s
    let s := if '"' ∉ s ∧ '\'' ∈ s then s.map fun c => if c = '\'' then '"' else c else s
    let s := substitute (unquotedKey rt) quotedKey s
    let s := substitute (wholeWord rt "True") (fun _ => "true".toList) s
    let s := substitute (wholeWord rt "False") (fun _ => "false".toList) s
    substitute (wholeWord rt "None") (fun _ => "null".toList) s

/-! ### Keys and values -/

/-- A pattern with two groups: the piece of the key, and the pieces of the value. -/
structure KeyValuePattern where
  items : List Item
  key : ℕ
  value : ℕ
  values : ℕ := 1

/-- The groups of the matches of a pattern. -/
def KeyValuePattern.findall (pattern : KeyValuePattern) (raw : List Char) :
    List (List Char × List Char) :=
  (findIter pattern.items raw).map fun m =>
    let groups := pieces (raw.drop m.start) m.lengths
    (groups.getD pattern.key [],
      ((groups.drop pattern.value).take pattern.values).flatten)

/-- `"(\w+)"\s*:\s*` and `(\w+)\s*:\s*`. -/
def keyItems (quoted : Bool) : List Item :=
  let key := if quoted then [one (· = '"'), atLeast 1 rt.isWord, one (· = '"')]
    else [atLeast 1 rt.isWord]
  key ++ [atLeast 0 isSpace, one (· = ':'), atLeast 0 isSpace]

/-- A letter of `true` or `false` with `re.IGNORECASE`. -/
def letterRun (letter : Char) : Run :=
  ⟨fun c => c.toLower = letter || letter = 's' && c = 'ſ', 1, some 1, false⟩

/-- `(true|false)`. -/
def boolItem : Item :=
  .choice ["true".toList.map letterRun, "false".toList.map letterRun]

/-- `"([^"]*)"`. -/
def stringItems : List Item := [one (· = '"'), atLeast 0 (· ≠ '"'), one (· = '"')]

/-- `\d+(?:\.\d+)?`. -/
def numberItems : List Item :=
  [atLeast 1 rt.isDecimal,
    .choice [[⟨(· = '.'), 1, some 1, false⟩, ⟨rt.isDecimal, 1, none, false⟩], []]]

/-- `array_pattern`. -/
def arrayPattern : KeyValuePattern where
  items := keyItems rt true ++ [one (· = '['), atLeast 0 (· ≠ ']'), one (· = ']')]
  key := 1
  value := 7

/-- `patterns`. -/
def keyValuePatterns : List KeyValuePattern :=
  [⟨keyItems rt true ++ stringItems, 1, 7, 1⟩,
    ⟨keyItems rt true ++ [boolItem], 1, 6, 1⟩,
    ⟨keyItems rt true ++ numberItems rt, 1, 6, 2⟩,
    ⟨keyItems rt false ++ stringItems, 0, 5, 1⟩,
    ⟨keyItems rt false ++ [boolItem], 0, 4, 1⟩]

/-- `item.strip().strip('"\'')`. -/
def stripItem (item : List Char) : List Char :=
  let isQuote (c : Char) : Bool := c = '"' || c = '\''
  let trim (p : Char → Bool) (cs : List Char) : List Char :=
    ((cs.dropWhile p).reverse.dropWhile p).reverse
  trim isQuote (trim isSpace item)

/-- The items of an array that the array pattern has found. -/
def arrayItems (value : List Char) : List (Document F) :=
  (((value.splitOn ',').map stripItem).filter (!·.isEmpty)).map fun item => .str (codes item)

/-- The type conversion of a value; `none` where it raises.  No character but these letters has
one of the letters of `true` and `false` in lower case. -/
def convertValue (value : List Char) : Option (Document F) :=
  let digits := value.filter (· ≠ '.')
  if value.map Char.toLower = "true".toList then some (.scalar (.bool true))
  else if value.map Char.toLower = "false".toList then some (.scalar (.bool false))
  else if digits ≠ [] ∧ digits.all rt.isDigitChar then
    if '.' ∈ value then (rt.float value).map fun x => .scalar (.float x)
    else (rt.int value).map fun n => .scalar (.int n)
  else some (.str (codes value))

/-- What a match of a pattern adds; a key that is there is not written again. -/
def addPair (result : Rows F) (pair : List Char × List Char) : Option (Rows F) :=
  if OrderedDict.has result (codes pair.1) then some result
  else (convertValue rt pair.2).map (OrderedDict.insert result (codes pair.1))

/-- `_extract_key_values`; `none` where it raises or finds nothing. -/
def extractKeyValues (raw : List Char) : Option (Rows F) := do
  let arrays := (arrayPattern rt).findall raw |>.map fun pair =>
    (codes pair.1, Document.arr (arrayItems pair.2))
  let result ← ((keyValuePatterns rt).flatMap (·.findall raw)).foldlM (addPair rt)
    (OrderedDict.insertAll Prod.fst Prod.snd [] arrays)
  if result = [] then none else some result

/-! ### `safe_parse_json` -/

/-- Three backquotes. -/
def fence : List Item := List.replicate 3 (one (· = '`'))

/-- `codeblock_pattern`. -/
def codeblockPattern : List Item :=
  fence ++ [.choice ["json".toList.map fun l => ⟨(· = l), 1, some 1, false⟩, []],
    atLeast 0 isSpace, one (· = '{'), .run ⟨fun _ => true, 0, none, true⟩, one (· = '}'),
    atLeast 0 isSpace] ++ fence

/-- The group of the first match of the pattern for fenced blocks. -/
def codeblock (raw : List Char) : Option (List Char) :=
  ((findIter codeblockPattern raw).head?).map fun m =>
    (((pieces (raw.drop m.start) m.lengths).drop 5).take 3).flatten

/-- The fifth strategy, and `default or {}` where it finds nothing. -/
def extractOrDefault (default : Option (Rows F)) (raw : List Char) : Document F :=
  .obj ((extractKeyValues rt raw).getD (default.getD []))

/-- The fourth strategy, and those after it. -/
def parseRepaired (default : Option (Rows F)) (raw : List Char) :
    Except (ReadError Empty) (Document F) :=
  let next := .ok (extractOrDefault rt default raw)
  match attemptJsonRepair rt raw with
  | none => next
  | some fixed => if fixed = [] then next else onDecodeError (rt.loads fixed) next

/-- The third strategy, and those after it. -/
def parseFenced (default : Option (Rows F)) (raw : List Char) :
    Except (ReadError Empty) (Document F) :=
  let next := parseRepaired rt default raw
  match codeblock raw with
  | none => next
  | some block => onDecodeError (rt.loads block) next

/-- The second strategy, and those after it. -/
def parseExtracted (default : Option (Rows F)) (raw : List Char) :
    Except (ReadError Empty) (Document F) :=
  let next := parseFenced rt default raw
  match extracted raw with
  | none => next
  | some part => onValueError (rt.loads part) next

/-- `safe_parse_json`; a blank text gives the default. -/
def safeParseJson (default : Option (Rows F)) (raw : List Char) :
    Except (ReadError Empty) (Document F) :=
  if raw.all isSpace then .ok (.obj (default.getD []))
  else onDecodeError (rt.loads raw) (parseExtracted rt default raw)

end Trion.TextUtils
