import Mathlib.Data.Option.Basic
import Trion.Library.Codec
import Trion.Python.Json
import Trion.RoutingFrame.Contracts

/-!
# Contracts as data

`asdict` of an operation contract, the strict parser of persisted contract data
(`operation_contract_schema.py`), and that the parser gives back the contract it is handed,
also when the data went through JSON in between.
-/

namespace Trion.RoutingFrame

open Trion.Python Codec

/-! ### `asdict` -/

/-- The strings of a tuple. -/
def stringItems (values : List String) : List PyVal := values.map .str

/-- A transition as a dictionary, its tuple written as the sequence `seq`. -/
def OperationTransition.entries (seq : List PyVal → PyVal) (t : OperationTransition) : PyDict :=
  [("source_operation", .str t.sourceOperation), ("target_operation", .str t.targetOperation),
    ("required_evidence", seq (stringItems t.requiredEvidence))]

/-- The provenance of one field as a dictionary. -/
def FieldProvenance.entries (p : FieldProvenance) : PyDict :=
  [("source", .str p.source), ("confidence", .float p.confidence), ("span", .str p.span)]

/-- A contract as a dictionary, its tuples written as the sequences `seq`. -/
def OperationContractFields.entries (seq : List PyVal → PyVal) (c : OperationContractFields) :
    PyDict :=
  [("domain", .str c.domain), ("primary_operation", .str c.primaryOperation),
    ("target", .str c.target), ("targets", seq (stringItems c.targets)),
    ("detail_fields", seq (stringItems c.detailFields)),
    ("mutating_action", .bool c.mutatingAction),
    ("required_evidence", seq (stringItems c.requiredEvidence)),
    ("allowed_operations", seq (stringItems c.allowedOperations)),
    ("allowed_transitions", seq (stringItems c.allowedTransitions)),
    ("transition_requirements",
      seq (c.transitionRequirements.map fun t => .dict (t.entries seq))),
    ("scope_lock", .str c.scopeLock),
    ("provenance", .dict (c.provenance.map fun row => (row.1, .dict row.2.entries)))]

/-- `asdict(contract)`. -/
def OperationContract.asdict (c : OperationContract) : PyVal :=
  .dict (c.toOperationContractFields.entries .tuple)

/-! ### `parse_operation_contract` -/

/-- `set(d) == set(names)`. -/
def hasExactly (d : PyDict) (names : List String) : Bool :=
  d.all (fun e => names.contains e.1) && names.all fun name => PyDict.has d name

/-- A string. -/
def asString? : PyVal → Option String
  | .str s => some s
  | _ => none

/-- A string without white space around it: `_clean_string`. -/
def cleanString? (v : PyVal) : Option String := (asString? v).filter fun s => s = strip s

/-- A string that is also not empty. -/
def nonemptyString? (v : PyVal) : Option String := (asString? v).filter fun s => IsName s

/-- The items of a list or a tuple. -/
def sequence? : PyVal → Option (List PyVal)
  | .list xs | .tuple xs => some xs
  | _ => none

/-- `_string_tuple`. -/
def stringTuple? (v : PyVal) : Option (List String) := do
  (← sequence? v).mapM nonemptyString?

/-- One row of `_transition_tuple`. -/
def transition? : PyVal → Option OperationTransition
  | .dict raw => do
    guard (hasExactly raw ["source_operation", "target_operation", "required_evidence"])
    let evidence ← stringTuple? (PyDict.get raw "required_evidence")
    let source ← asString? (PyDict.get raw "source_operation")
    let target ← asString? (PyDict.get raw "target_operation")
    OperationTransition.make? source target evidence
  | _ => none

/-- `_transition_tuple`. -/
def transitionTuple? (v : PyVal) : Option (List OperationTransition) := do
  (← sequence? v).mapM transition?

/-- `float(value)` for an integer or a float; a boolean is neither. -/
def number? : PyVal → Option PyFloat
  | .int n => PyFloat.ofInt? n
  | .float f => some f
  | _ => none

/-- One row of `_provenance`. -/
def fieldProvenance? : String × PyVal → Option (String × FieldProvenance)
  | (key, .dict raw) => do
    guard (hasExactly raw ["source", "confidence", "span"])
    let source ← asString? (PyDict.get raw "source")
    let confidence ← number? (PyDict.get raw "confidence")
    let span ← asString? (PyDict.get raw "span")
    return (key, { source := source, confidence := confidence, span := span })
  | _ => none

/-- `_provenance`. -/
def provenance? : PyVal → Option (List (String × FieldProvenance))
  | .dict rows => rows.mapM fieldProvenance?
  | _ => none

/-- A boolean. -/
def asBool? : PyVal → Option Bool
  | .bool b => some b
  | _ => none

/-- The names of the fields of an `OperationContract`. -/
def contractFieldNames : List String :=
  ["domain", "primary_operation", "target", "targets", "detail_fields", "mutating_action",
    "required_evidence", "allowed_operations", "allowed_transitions", "transition_requirements",
    "scope_lock", "provenance"]

/-- The fields of a contract, each by the rule for its annotation. -/
def contractFields? (d : PyDict) : Option OperationContractFields := do
  let domain ← cleanString? (PyDict.get d "domain")
  let primaryOperation ← cleanString? (PyDict.get d "primary_operation")
  let target ← cleanString? (PyDict.get d "target")
  let targets ← stringTuple? (PyDict.get d "targets")
  let detailFields ← stringTuple? (PyDict.get d "detail_fields")
  let mutatingAction ← asBool? (PyDict.get d "mutating_action")
  let requiredEvidence ← stringTuple? (PyDict.get d "required_evidence")
  let allowedOperations ← stringTuple? (PyDict.get d "allowed_operations")
  let allowedTransitions ← stringTuple? (PyDict.get d "allowed_transitions")
  let transitionRequirements ← transitionTuple? (PyDict.get d "transition_requirements")
  let scopeLock ← cleanString? (PyDict.get d "scope_lock")
  let provenance ← provenance? (PyDict.get d "provenance")
  return {
    domain := domain
    primaryOperation := primaryOperation
    target := target
    targets := targets
    detailFields := detailFields
    mutatingAction := mutatingAction
    requiredEvidence := requiredEvidence
    allowedOperations := allowedOperations
    allowedTransitions := allowedTransitions
    transitionRequirements := transitionRequirements
    scopeLock := scopeLock
    provenance := provenance }

/-- `parse_operation_contract` of persisted data: `none` where it gives `None`, or raises the
`OverflowError` of a confidence that is too large an integer. -/
def parseOperationContract : PyVal → Option OperationContract
  | .dict d => do
    guard (hasExactly d contractFieldNames)
    let contract ← OperationContract.make? (← contractFields? d)
    guard (IsName contract.domain ∧ IsName contract.primaryOperation)
    guard (contract.primaryOperation ∈ contract.allowedOperations)
    return contract
  | _ => none

/-! ### The parser reads contracts back -/

/-- The names a contract must have for the parser to accept it: the validation leaves them
free. -/
structure OperationContractFields.Named (f : OperationContractFields) : Prop where
  domain : IsName f.domain
  primaryOperation : IsName f.primaryOperation
  scopeLock : f.scopeLock = strip f.scopeLock

variable {seq : List PyVal → PyVal}

lemma cleanString?_str {s : String} (h : s = strip s) : cleanString? (.str s) = some s := by
  simp [cleanString?, asString?, ← h]

lemma nonemptyString?_readsBack : ReadsBack PyVal.str nonemptyString? IsName := by
  intro s h
  simp [nonemptyString?, asString?, Option.filter, h]

/-- A tuple of names is read back, whichever sequence it is written as. -/
lemma stringTuple?_readsBack (hseq : ∀ xs, sequence? (seq xs) = some xs) :
    ReadsBack (fun values => seq (stringItems values)) stringTuple? fun values =>
      ∀ value ∈ values, IsName value := by
  intro values h
  rw [stringTuple?, hseq]
  exact nonemptyString?_readsBack.list h

lemma transition?_readsBack (hseq : ∀ xs, sequence? (seq xs) = some xs) :
    ReadsBack (fun t : OperationTransition => .dict (t.entries seq)) transition? fun _ => True := by
  intro t _
  have hevidence := stringTuple?_readsBack hseq t.requiredEvidence t.evidence_valid
  simp only [Option.pure_def] at hevidence
  simp [transition?, OperationTransition.entries, hasExactly, PyDict.has, PyDict.get,
    List.lookup_cons, hevidence, asString?]

lemma fieldProvenance?_readsBack :
    ReadsBack (fun row : String × FieldProvenance => (row.1, PyVal.dict row.2.entries))
      fieldProvenance? fun _ => True := by
  rintro ⟨key, p⟩ _
  simp [fieldProvenance?, FieldProvenance.entries, hasExactly, PyDict.has, PyDict.get,
    List.lookup_cons, asString?, number?]

/-- The fields of a contract are read back. -/
lemma contractFields?_entries (hseq : ∀ xs, sequence? (seq xs) = some xs)
    (c : OperationContract) (h : c.Named) :
    contractFields? (c.toOperationContractFields.entries seq) =
      some c.toOperationContractFields := by
  have hdomain := cleanString?_str h.domain.2
  have hprimary := cleanString?_str h.primaryOperation.2
  have htarget := cleanString?_str c.target_trimmed
  have hscope := cleanString?_str h.scopeLock
  have htuple := stringTuple?_readsBack hseq
  have htargets := htuple c.targets c.targets_names
  have hdetails := htuple c.detailFields c.detailFields_names
  have hevidence := htuple c.requiredEvidence c.requiredEvidence_names
  have hallowed := htuple c.allowedOperations c.allowedOperations_names
  have hedges := htuple c.allowedTransitions c.allowedTransitions_names
  have htransitions : transitionTuple? (seq (c.transitionRequirements.map fun t =>
      .dict (t.entries seq))) = some c.transitionRequirements := by
    rw [transitionTuple?, hseq]
    exact (transition?_readsBack hseq).list fun _ _ => trivial
  have hprovenance : provenance? (.dict (c.provenance.map fun row =>
      (row.1, .dict row.2.entries))) = some c.provenance :=
    fieldProvenance?_readsBack.list fun _ _ => trivial
  -- one field after the other, in the order of the parser
  unfold contractFields?
  refine Option.bind_eq_some_iff.mpr ⟨_, hdomain, ?_⟩
  refine Option.bind_eq_some_iff.mpr ⟨_, hprimary, ?_⟩
  refine Option.bind_eq_some_iff.mpr ⟨_, htarget, ?_⟩
  refine Option.bind_eq_some_iff.mpr ⟨_, htargets, ?_⟩
  refine Option.bind_eq_some_iff.mpr ⟨_, hdetails, ?_⟩
  refine Option.bind_eq_some_iff.mpr ⟨_, rfl, ?_⟩
  refine Option.bind_eq_some_iff.mpr ⟨_, hevidence, ?_⟩
  refine Option.bind_eq_some_iff.mpr ⟨_, hallowed, ?_⟩
  refine Option.bind_eq_some_iff.mpr ⟨_, hedges, ?_⟩
  refine Option.bind_eq_some_iff.mpr ⟨_, htransitions, ?_⟩
  refine Option.bind_eq_some_iff.mpr ⟨_, hscope, ?_⟩
  refine Option.bind_eq_some_iff.mpr ⟨_, hprovenance, ?_⟩
  rfl

/-- The parser gives a named contract back from its dictionary, whichever sequences its tuples
are written as. -/
theorem parseOperationContract_entries (hseq : ∀ xs, sequence? (seq xs) = some xs)
    (c : OperationContract) (h : c.Named) :
    parseOperationContract (.dict (c.toOperationContractFields.entries seq)) = some c := by
  have hnames : hasExactly (c.toOperationContractFields.entries seq) contractFieldNames := by
    simp [hasExactly, OperationContractFields.entries, contractFieldNames, PyDict.has]
  have hallowed : c.primaryOperation ∈ c.allowedOperations := by
    rw [c.valid.allowed_eq h.primaryOperation.1]
    exact List.mem_singleton_self _
  simp [parseOperationContract, hnames, contractFields?_entries hseq c h, h.domain,
    h.primaryOperation, hallowed]

/-- What a contract parsed from a dictionary has from it. -/
structure ParsedFrom (d : PyDict) (c : OperationContract) : Prop where
  domain : cleanString? (PyDict.get d "domain") = some c.domain
  primaryOperation : cleanString? (PyDict.get d "primary_operation") = some c.primaryOperation
  mutatingAction : asBool? (PyDict.get d "mutating_action") = some c.mutatingAction
  scopeLock : cleanString? (PyDict.get d "scope_lock") = some c.scopeLock
  names : IsName c.domain ∧ IsName c.primaryOperation

lemma parsedFrom_of_parse {d : PyDict} {c : OperationContract}
    (h : parseOperationContract (.dict d) = some c) : ParsedFrom d c := by
  unfold parseOperationContract at h
  obtain ⟨-, -, h⟩ := Option.bind_eq_some_iff.mp h
  obtain ⟨fields, hfields, h⟩ := Option.bind_eq_some_iff.mp h
  obtain ⟨contract, hmake, h⟩ := Option.bind_eq_some_iff.mp h
  obtain ⟨_, hguard, h⟩ := Option.bind_eq_some_iff.mp h
  obtain ⟨-, -, hcontract⟩ := Option.bind_eq_some_iff.mp h
  obtain rfl := Option.some.inj hcontract
  obtain rfl := OperationContract.of_make? hmake
  have hnames : IsName contract.domain ∧ IsName contract.primaryOperation := by
    by_contra hnot
    rw [guard, if_neg hnot] at hguard
    cases hguard
  unfold contractFields? at hfields
  obtain ⟨domain, hdomain, h⟩ := Option.bind_eq_some_iff.mp hfields
  obtain ⟨primary, hprimary, h⟩ := Option.bind_eq_some_iff.mp h
  -- the target, the targets and the detail fields
  obtain ⟨_, -, h⟩ := Option.bind_eq_some_iff.mp h
  obtain ⟨_, -, h⟩ := Option.bind_eq_some_iff.mp h
  obtain ⟨_, -, h⟩ := Option.bind_eq_some_iff.mp h
  obtain ⟨mutating, hmutating, h⟩ := Option.bind_eq_some_iff.mp h
  -- the evidence, the allowed operations, the edges and the transitions
  obtain ⟨_, -, h⟩ := Option.bind_eq_some_iff.mp h
  obtain ⟨_, -, h⟩ := Option.bind_eq_some_iff.mp h
  obtain ⟨_, -, h⟩ := Option.bind_eq_some_iff.mp h
  obtain ⟨_, -, h⟩ := Option.bind_eq_some_iff.mp h
  obtain ⟨scope, hscope, h⟩ := Option.bind_eq_some_iff.mp h
  obtain ⟨_, -, hfields⟩ := Option.bind_eq_some_iff.mp h
  rw [← Option.some.inj hfields] at hnames
  constructor <;> rw [← Option.some.inj hfields]
  · exact hdomain
  · exact hprimary
  · exact hmutating
  · exact hscope
  · exact hnames

/-! ### JSON -/

lemma jsonCopyItems_stringItems (values : List String) :
    PyVal.jsonCopyItems (stringItems values) = some (stringItems values) :=
  jsonCopyItems_of_isJson (by simp [stringItems, PyVal.isJson])

lemma jsonCopy_transition (t : OperationTransition) :
    (PyVal.dict (t.entries .tuple)).jsonCopy = some (.dict (t.entries .list)) := by
  simp [PyVal.jsonCopy, PyVal.jsonCopyEntries, OperationTransition.entries,
    jsonCopyItems_stringItems]

lemma jsonCopy_transitions (ts : List OperationTransition) :
    PyVal.jsonCopyItems (ts.map fun t => .dict (t.entries .tuple)) =
      some (ts.map fun t => .dict (t.entries .list)) := by
  induction ts with
  | nil => rfl
  | cons t ts ih => simp [PyVal.jsonCopyItems, jsonCopy_transition, ih]

lemma jsonCopy_fieldProvenance (p : FieldProvenance) :
    (PyVal.dict p.entries).jsonCopy = some (.dict p.entries) := by
  simp [PyVal.jsonCopy, PyVal.jsonCopyEntries, FieldProvenance.entries]

lemma jsonCopy_provenance (rows : List (String × FieldProvenance)) :
    PyVal.jsonCopyEntries (rows.map fun row => (row.1, .dict row.2.entries)) =
      some (rows.map fun row => (row.1, .dict row.2.entries)) := by
  induction rows with
  | nil => rfl
  | cons row rows ih => simp [PyVal.jsonCopyEntries, jsonCopy_fieldProvenance, ih]

/-- Through JSON the tuples of a contract become lists, and nothing else changes. -/
theorem jsonCopy_asdict (c : OperationContract) :
    c.asdict.jsonCopy = some (.dict (c.toOperationContractFields.entries .list)) := by
  have htransitions := jsonCopy_transitions c.transitionRequirements
  have hprovenance := jsonCopy_provenance c.provenance
  simp only [OperationContract.asdict, OperationContractFields.entries, PyVal.jsonCopy,
    PyVal.jsonCopyEntries, jsonCopyItems_stringItems, htransitions, hprovenance]
  rfl

end Trion.RoutingFrame
