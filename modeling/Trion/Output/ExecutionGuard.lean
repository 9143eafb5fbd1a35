import Trion.Python.Casing
import Trion.Python.Value

/-!
# Claims of execution

The guard that withdraws an answer which claims that something has been carried out, when there
is no evidence for it, and the search for the place from which on such a claim may be in the
making.  The guard reads the text in lower case with single spaces, the search reads it case
folded; both come with the places of the text their characters come from.
-/

namespace Trion.Output

open Trion.Python

/-! ### Texts -/

/-- The tables behind `str.lower`, `str.casefold` and `str.isalnum`. -/
structure TextTables extends LowerCase where
  fold : Char → List Char
  isAlnum : Char → Bool

/-- The tables on the characters of ASCII and the sharp s. -/
def TextTables.basic : TextTables where
  toLowerCase := LowerCase.basic
  fold c := if IsAscii c then [c.toLower] else if c = 'ß' then ['s', 's'] else [c]
  isAlnum c := c.isAlphanum || c == 'ß'

/-- `text.lstrip()`. -/
def lstrip (text : List Char) : List Char := text.dropWhile isSpace

/-- `text.strip()`. -/
def stripText (text : List Char) : List Char :=
  ((text.dropWhile isSpace).reverse.dropWhile isSpace).reverse

/-- Single spaces in the place of runs of white space; the flag says that one has begun. -/
def collapseSpaces : Bool → List (Char × ℕ) → List (Char × ℕ)
  | _, [] => []
  | inSpace, (c, place) :: cs =>
    if isSpace c then
      if inSpace then collapseSpaces true cs else (' ', place) :: collapseSpaces true cs
    else (c, place) :: collapseSpaces false cs

section Tables

variable (t : TextTables)

/-- The characters of `\w`. -/
def isWordChar (c : Char) : Bool := t.isAlnum c || c == '_'

/-- `\b` between two characters, or at an end of the text. -/
def atBoundary (before after : Option Char) : Bool :=
  before.any (isWordChar t) != after.any (isWordChar t)

/-- The lower case, each character with the place it comes from. -/
def lowerPlaced : List Char → List (Char × ℕ) → List (Char × ℕ)
  | _, [] => []
  | before, (c, place) :: cs =>
    (t.lowerAt before c (cs.map Prod.fst)).map (·, place) ++ lowerPlaced (c :: before) cs

/-- `_normalize_text`, each character with the place it comes from. -/
def normalizePlaced (text : List Char) : List (Char × ℕ) :=
  let stripped := ((text.zipIdx.dropWhile (isSpace ·.1)).reverse.dropWhile (isSpace ·.1)).reverse
  collapseSpaces false (lowerPlaced t [] stripped)

/-- `_normalize_text`. -/
def normalizeText (text : List Char) : List Char := (normalizePlaced t text).map Prod.fst

/-- `text.casefold()`. -/
def casefold (text : List Char) : List Char := text.flatMap t.fold

/-! ### Patterns -/

/-- A letter of a pattern and a character of a text in lower case, regardless of case. -/
def sameLetter (m c : Char) : Bool :=
  c == m || m == 'i' && c == 'ı' || m == 's' && c == 'ſ'

/-- The text begins with the words of a pattern, regardless of case. -/
def beginsWith (words text : List Char) : Bool :=
  words.length ≤ text.length && (words.zip text).all fun (m, c) => sameLetter m c

/-- The words stand at the start of the text, between boundaries. -/
def wordsAt (before : Option Char) (words text : List Char) : Bool :=
  atBoundary t before text.head? && beginsWith words text &&
    atBoundary t (text.take words.length).getLast? (text.drop words.length).head?

/-- One of the words stands somewhere in the text. -/
def wordsIn (choices : List (List Char)) : Option Char → List Char → Bool
  | _, [] => false
  | before, c :: cs =>
    choices.any (wordsAt t before · (c :: cs)) || wordsIn choices (some c) cs

/-- A pattern: words, and the words of which one has to come later. -/
structure Pattern where
  words : List Char
  later : Option (List (List Char)) := none

/-- The pattern matches at the start of the text. -/
def Pattern.matchesAt (p : Pattern) (before : Option Char) (text : List Char) : Bool :=
  wordsAt t before p.words text &&
    match p.later with
    | none => true
    | some choices =>
      wordsIn t choices (text.take p.words.length).getLast? (text.drop p.words.length)

/-- `re.search(pattern, text)`. -/
def Pattern.matchesIn (p : Pattern) : Option Char → List Char → Bool
  | _, [] => false
  | before, c :: cs => p.matchesAt t before (c :: cs) || p.matchesIn (some c) cs

end Tables

/-- `_POSITIVE_EXECUTION_SUBJECTS`. -/
def positiveExecutionSubjects : List (List Char) := ["ich habe".toList, "wir haben".toList]

/-- `_POSITIVE_EXECUTION_ACTIONS`. -/
def positiveExecutionActions : List (List Char) :=
  ["getestet".toList, "geprueft".toList, "geprüft".toList, "probiert".toList,
   "versucht".toList, "ausgefuehrt".toList, "ausgeführt".toList, "gesucht".toList]

/-- `_POSITIVE_EXECUTION_PATTERNS`. -/
def positiveExecutionPatterns : List Pattern :=
  positiveExecutionSubjects.map fun subject => ⟨subject, some positiveExecutionActions⟩

/-- `_NEGATED_EXECUTION_PATTERNS`. -/
def negatedExecutionPatterns : List Pattern :=
  [⟨"konnte".toList, some ["nicht".toList, "keine".toList]⟩,
   ⟨"konnte ich".toList, some ["nicht".toList]⟩,
   ⟨"nicht ausgefuehrt".toList, none⟩, ⟨"nicht ausgeführt".toList, none⟩,
   ⟨"kein passendes tool".toList, none⟩, ⟨"keine suchfunktion".toList, none⟩,
   ⟨"nicht verifizieren".toList, none⟩]

/-! ### The guard -/

/-- `OutputEvidenceState`. -/
inductive OutputEvidenceState where
  | noTaskLoop
  | taskLoopIncomplete
  | completeWithoutValidatedEvidence
  | completeWithValidatedEvidence
deriving DecidableEq, Repr

/-- `OutputRequest`, as far as the guards read it. -/
structure OutputRequest where
  outputEvidence : OutputEvidenceState

/-- `_has_positive_execution_evidence`. -/
def hasPositiveExecutionEvidence (request : OutputRequest) : Bool :=
  request.outputEvidence = .completeWithValidatedEvidence

/-- The answer in the place of one that claims too much. -/
def executionRejection : List Char :=
  "Ich kann diese Ausfuehrung gerade nicht als erfolgt bestaetigen. ".toList ++
    "Es liegen keine positiven Ausfuehrungsbelege fuer einen gestarteten und erfolgreich ".toList ++
    "gelaufenen Schritt vor.".toList

section Guard

variable (t : TextTables) (request : OutputRequest) (content : List Char)

/-- `_claims_positive_execution`. -/
def claimsPositiveExecution : Bool :=
  positiveExecutionPatterns.any (·.matchesIn t none (normalizeText t content))

/-- `_contains_negated_execution`. -/
def containsNegatedExecution : Bool :=
  negatedExecutionPatterns.any (·.matchesIn t none (normalizeText t content))

/-- `apply_execution_consistency_guard`. -/
def applyExecutionConsistencyGuard : List Char :=
  if stripText content = [] then content
  else if !claimsPositiveExecution t content then content
  else if containsNegatedExecution t content then content
  else if hasPositiveExecutionEvidence request then content
  else executionRejection

/-- A claim of execution begins at the place with its subject. -/
def IsClaimStart (place : ℕ) : Prop :=
  ∃ before c rest, normalizePlaced t content = before ++ (c, place) :: rest ∧
    positiveExecutionPatterns.any fun p =>
      p.matchesAt t (before.map Prod.fst).getLast? (c :: rest.map Prod.fst)

/-! ### The search for a claim in the making -/

/-- `(?<!\w)(?:ich\s+habe|wir\s+haben)\b` at the start of the text. -/
def subjectAt (before : Option Char) (text : List Char) : Bool :=
  !before.any (isWordChar t) &&
    [("ich".toList, "habe".toList), ("wir".toList, "haben".toList)].any fun (pronoun, verb) =>
      pronoun.isPrefixOf text && (text.drop pronoun.length).head?.any isSpace &&
        let rest := lstrip (text.drop pronoun.length)
        verb.isPrefixOf rest && atBoundary t verb.getLast? (rest.drop verb.length).head?

/-- The first place of a subject. -/
def searchSubject : Option Char → List Char → Option ℕ
  | _, [] => none
  | before, c :: cs =>
    if subjectAt t before (c :: cs) then some 0 else (searchSubject (some c) cs).map (· + 1)

/-- The text from the place on is the start of a subject. -/
def startsSubject (lowered : List Char) (start : ℕ) : Bool :=
  !(0 < start && (lowered[start - 1]?).any t.isAlnum) &&
    let suffix := (collapseSpaces false (lowered.drop start).zipIdx).map Prod.fst
    suffix != [] && positiveExecutionSubjects.any suffix.isPrefixOf

/-- `execution_claim_pending_start`. -/
def executionClaimPendingStart : Option ℕ :=
  if hasPositiveExecutionEvidence request then none
  else
    let lowered := casefold t content
    match searchSubject t none lowered with
    | some start => some start
    | none =>
      let suffixFloor := lowered.length + 1 - 9
      (List.range' suffixFloor (lowered.length - suffixFloor)).find? (startsSubject t lowered)

end Guard

end Trion.Output
