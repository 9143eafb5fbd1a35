import Trion.Python.Value

/-!
# The packages a generated skill needs

The package check of the mini control layer: the modules that the code imports, the packages
they come from, what the tool executor says is installed and allowed, and the installation of
what is missing.
-/

namespace Trion.Skills

open Trion.Python

/-- The built-ins, with the characters that `\w` matches and the order in which `list` gives out
a set of texts. -/
structure SkillRuntime extends PyRuntime where
  isWord : Char → Bool
  setOrder : List String → List String
  setOrder_perm (xs : List String) : (setOrder xs).Perm xs

/-- The built-ins on ASCII text, with sets in the order in which they are filled. -/
def SkillRuntime.ascii : SkillRuntime where
  toPyRuntime := .ascii
  isWord := fun c => c.isAlphanum || c == '_'
  setOrder := id
  setOrder_perm _ := .refl _

/-! ### Answers of the tool executor -/

/-- The answer to an HTTP request: the request raises, or there is a status with a body, which
may be no JSON. -/
inductive HttpReply where
  | raises (text : String)
  | answers (status : ℕ) (body : Option PyVal)

/-- `r.json()` of an answer with status 200. -/
def HttpReply.okBody? : HttpReply → Option PyVal
  | .answers 200 body => body
  | _ => none

/-- The answer has status 200. -/
def HttpReply.isOk : HttpReply → Bool
  | .answers 200 _ => true
  | _ => false

/-- `for item in value`: the items, `none` where the value is not iterable. -/
def iterate : PyVal → Option (List PyVal)
  | .list xs => some xs
  | .str s => some (s.toList.map fun c => .str (String.singleton c))
  | .dict kvs => some (kvs.map fun e => .str e.1)
  | _ => none

/-! ### Imports -/

/-- `_STDLIB_MODULES`. -/
def stdlibModules : List String :=
  ["json", "math", "datetime", "re", "collections", "itertools", "hashlib", "base64", "os", "sys",
    "subprocess", "socket", "time", "random", "string", "pathlib", "urllib", "http", "io",
    "struct", "functools", "operator", "copy", "pprint", "traceback", "logging", "threading",
    "queue", "decimal", "fractions", "statistics", "csv", "html", "xml", "enum", "typing",
    "dataclasses", "abc", "contextlib", "weakref", "gc", "inspect", "ast", "platform", "shutil",
    "tempfile", "glob", "fnmatch", "pickle", "sqlite3", "zipfile", "tarfile", "gzip", "bz2",
    "zlib", "uuid", "secrets", "hmac", "binascii", "codecs", "unittest", "timeit", "email",
    "ipaddress", "ssl", "asyncio", "concurrent", "multiprocessing", "bisect", "heapq", "calendar",
    "argparse", "configparser", "textwrap", "difflib", "builtins", "types", "numbers", "cmath",
    "array"]

/-- `_KNOWN_INSTALLED`. -/
def knownInstalled : List String :=
  ["requests", "httpx", "pydantic", "fastapi", "uvicorn", "yaml", "pyyaml", "aiohttp"]

/-- `_IMPORT_TO_PACKAGE`. -/
def importToPackage : List (String × String) :=
  [("bs4", "beautifulsoup4"), ("pil", "pillow"), ("dateutil", "python-dateutil"),
    ("dotenv", "python-dotenv"), ("levenshtein", "python-levenshtein"), ("gputil", "gputil")]

section Names

variable (rt : SkillRuntime)

/-- The match of `\s+([\w\.]+)` at the beginning: the name and what follows it. -/
def matchModule (cs : List Char) : Option (List Char × List Char) :=
  let inModule := fun c => rt.isWord c || c == '.'
  let afterSpace := cs.dropWhile isSpace
  if cs.length = afterSpace.length then none
  else
    match afterSpace.takeWhile inModule with
    | [] => none
    | name => some (name, afterSpace.dropWhile inModule)

/-- What follows the word at the beginning of the text. -/
def afterWord (word : String) (cs : List Char) : Option (List Char) :=
  if word.toList.isPrefixOf cs then some (cs.drop word.length) else none

/-- `re.match(r'^import\s+([\w\.]+)', line)`. -/
def importedModule (line : List Char) : Option (List Char) :=
  (afterWord "import" line).bind fun rest => (matchModule rt rest).map Prod.fst

/-- `re.match(r'^from\s+([\w\.]+)\s+import', line)`. -/
def fromModule (line : List Char) : Option (List Char) :=
  (afterWord "from" line).bind fun rest =>
    (matchModule rt rest).bind fun found =>
      let afterSpace := found.2.dropWhile isSpace
      if found.2.length = afterSpace.length then none
      else (afterWord "import" afterSpace).map fun _ => found.1

/-- The module that a line imports, up to the first dot. -/
def lineModules (line : String) : List String :=
  let cs := (strip line).toList
  ((importedModule rt cs).toList ++ (fromModule rt cs).toList).map fun name =>
    String.ofList (name.takeWhile (· != '.'))

/-- A value is added unless it is there. -/
def addOnce (xs : List String) (x : String) : List String :=
  if x ∈ xs then xs else xs ++ [x]

/-- `_extract_package_names`. -/
def extractPackageNames (code : String) : List String :=
  rt.setOrder (((splitOn '\n' code).flatMap (lineModules rt)).foldl addOnce [])

/-- `_module_to_package_name`. -/
def moduleToPackageName (moduleName : String) : String :=
  let normalized := rt.lower (strip moduleName)
  if normalized = "" then ""
  else (importToPackage.lookup normalized).getD normalized

/-! ### What is installed -/

/-- The name of an entry of a package list, `none` where looking it up raises. -/
def packageName : PyVal → Option (List String)
  | .str p => some (if p = "" then [] else [rt.lower p])
  | .dict kvs =>
    let name := if PyDict.has kvs "name" then PyDict.get kvs "name" else .str ""
    if name.truthy then
      match name with
      | .str s => some [rt.lower s]
      | _ => none
    else some []
  | _ => some []

/-- `_parse_packages`, `none` where it raises. -/
def parsePackages (pkgs : PyVal) : Option (List String) :=
  (iterate pkgs).bind fun items => (items.mapM (packageName rt)).map List.flatten

/-- `self._parse_packages(r.json().get("packages", []))`. -/
def packagesOf (body : Option PyVal) : Option (List String) :=
  match body with
  | some (.dict kvs) =>
    parsePackages rt (if PyDict.has kvs "packages" then PyDict.get kvs "packages" else .list [])
  | _ => none

/-- The answers to the requests of `_get_installed_packages`. -/
structure Inventory where
  mode : String
  compat : HttpReply
  modern : HttpReply

/-- `_get_installed_packages`. -/
def getInstalledPackages (inventory : Inventory) : List String :=
  let asksCompat := inventory.mode = "auto" ∨ inventory.mode = "compat"
  let modern :=
    if inventory.modern.isOk then
      (packagesOf rt inventory.modern.okBody?).getD knownInstalled
    else knownInstalled
  if asksCompat then
    match inventory.compat with
    | .raises _ => knownInstalled
    | .answers status body =>
      if status = 200 then (packagesOf rt body).getD knownInstalled
      else if inventory.mode = "compat" then knownInstalled
      else modern
  else modern

/-- `_check_missing_packages`. -/
def checkMissingPackages (inventory : Inventory) (code : String) : List String :=
  let thirdParty := (extractPackageNames rt code).filter fun p => p ∉ stdlibModules
  let packages := ((thirdParty.map (moduleToPackageName rt)).filter fun p => p ≠ "").foldl addOnce []
  packages.filter fun p => rt.lower p ∉ getInstalledPackages rt inventory

-- The loops over code are unfolded without looking into its packages.
attribute [irreducible] checkMissingPackages

/-! ### What is allowed, and the installation -/

/-- `pkg.lower()`, which only a string has. -/
def lowered : PyVal → Option String
  | .str s => some (rt.lower s)
  | _ => none

/-- `_get_package_allowlist`: empty on any error. -/
def getPackageAllowlist (reply : HttpReply) : List String :=
  match reply.okBody? with
  | some (.dict kvs) =>
    let entries := if PyDict.has kvs "allowlist" then PyDict.get kvs "allowlist" else .list []
    ((iterate entries).bind fun items => items.mapM (lowered rt)).getD []
  | _ => []

/-- What `POST /v1/packages/install` says about a package: `none` where it is installed, else the
error. -/
def installError (package : String) : HttpReply → Option String
  | .raises text => some text
  | .answers _ none => some "invalid JSON"
  | .answers _ (some (.dict data)) =>
    if (PyDict.get data "success").truthy then none
    else if PyDict.has data "error" then some ((PyDict.get data "error").toStr rt.toPyRuntime)
    else some s!"Package '{package}' installation failed"
  | .answers _ (some _) => some "object has no attribute 'get'"

/-- `_auto_install_packages`: the packages that were tried with what came of each, up to the
first error. -/
def autoInstallPackages (replies : String → HttpReply) :
    List String → List (String × Bool) × Option String
  | [] => ([], none)
  | package :: rest =>
    match installError rt package (replies package) with
    | some error => ([(package, false)], some error)
    | none =>
      let later := autoInstallPackages replies rest
      ((package, true) :: later.1, later.2)

end Names

end Trion.Skills
