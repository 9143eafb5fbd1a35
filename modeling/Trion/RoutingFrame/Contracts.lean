import Trion.Python.Text

/-!
# Operation contracts

The contract that says which operation a request asks for, on which targets and in which
scope: `core/routing_frame/contracts.py` and `operation_contract_invariants.py`.  A contract
is what passes its own validation, so the invariants are part of the type.
-/

namespace Trion.RoutingFrame

open Trion.Python

/-- `FieldProvenance`. -/
structure FieldProvenance where
  source : String
  confidence : PyFloat
  span : String := ""
deriving DecidableEq, Repr

/-- `OperationTransition`: its constructor rejects names and evidence that are not clean. -/
@[ext]
structure OperationTransition where
  sourceOperation : String
  targetOperation : String
  requiredEvidence : List String
  operations_valid : IsName sourceOperation ∧ IsName targetOperation
  evidence_valid : ∀ e ∈ requiredEvidence, IsName e
deriving DecidableEq

/-- `OperationTransition(source, target, evidence)`, `none` where the constructor raises. -/
def OperationTransition.make? (sourceOperation targetOperation : String)
    (requiredEvidence : List String) : Option OperationTransition :=
  if ho : IsName sourceOperation ∧ IsName targetOperation then
    if he : ∀ e ∈ requiredEvidence, IsName e then
      some ⟨sourceOperation, targetOperation, requiredEvidence, ho, he⟩
    else none
  else none

@[simp] lemma OperationTransition.make?_self (t : OperationTransition) :
    make? t.sourceOperation t.targetOperation t.requiredEvidence = some t := by
  rw [make?, dif_pos t.operations_valid, dif_pos t.evidence_valid]

/-- `OperationTransition.edge`. -/
def OperationTransition.edge (t : OperationTransition) : String :=
  s!"{t.sourceOperation}->{t.targetOperation}"

/-- `MUTATING_OPERATIONS`. -/
def mutatingOperations : List String := ["write", "update", "delete", "execute", "maintain"]

/-- The fields of an `OperationContract` before they are validated. -/
@[ext]
structure OperationContractFields where
  domain : String
  primaryOperation : String
  target : String
  targets : List String
  detailFields : List String
  mutatingAction : Bool
  requiredEvidence : List String
  allowedOperations : List String
  allowedTransitions : List String
  transitionRequirements : List OperationTransition
  scopeLock : String
  provenance : List (String × FieldProvenance)
deriving DecidableEq

/-- The fields of `_STRING_TUPLE_FIELDS`. -/
def OperationContractFields.stringTuples (f : OperationContractFields) :
    List (String × List String) :=
  [("targets", f.targets), ("detail_fields", f.detailFields),
    ("required_evidence", f.requiredEvidence), ("allowed_operations", f.allowedOperations),
    ("allowed_transitions", f.allowedTransitions)]

/-- The edges of the transitions. -/
def OperationContractFields.edges (f : OperationContractFields) : List String :=
  f.transitionRequirements.map (·.edge)

/-- `if not condition: raise ValueError(message)`. -/
def require (condition : Prop) [Decidable condition] (message : String) : Except PyError Unit :=
  if condition then .ok () else .error (.valueError message)

@[simp] lemma require_eq_ok {p : Prop} [Decidable p] {message : String} :
    require p message = .ok () ↔ p := by
  unfold require
  split <;> simp_all

/-- A check and what follows it both pass. -/
lemma bind_eq_ok_iff {check rest : Except PyError Unit} :
    (check >>= fun _ => rest) = .ok () ↔ check = .ok () ∧ rest = .ok () := by
  constructor
  · intro h
    obtain ⟨_, hcheck, hrest⟩ := ok_of_bind h
    exact ⟨hcheck, hrest⟩
  · rintro ⟨hcheck, hrest⟩
    rw [hcheck]
    exact hrest

/-- The semantics of the operation: a contract with one allows just it and says whether it
mutates; one without allows and mutates nothing. -/
def requireSemantics (f : OperationContractFields) : Except PyError Unit :=
  if f.primaryOperation ≠ "" then do
    require (f.allowedOperations = [f.primaryOperation])
      "operation_contract_allowed_operations_invalid"
    require (f.mutatingAction = mutatingOperations.contains f.primaryOperation)
      "operation_contract_mutation_semantics_invalid"
  else
    require (f.allowedOperations = [] ∧ f.mutatingAction = false)
      "operation_contract_incomplete_semantics_invalid"

/-- `validate_operation_contract`.  That the values have their types is part of the model's
types. -/
def validateOperationContract (f : OperationContractFields) : Except PyError Unit := do
  match f.stringTuples.find? fun row => ¬∀ value ∈ row.2, IsName value with
  | some (name, _) =>
    .error (.valueError s!"operation_contract_tuple_field_invalid:{name}")
  | none =>
    require (f.target = f.targets.headD "") "operation_contract_target_projection_mismatch"
    require (f.allowedTransitions = f.edges ∧ f.edges.Nodup)
      "operation_contract_transition_projection_mismatch"
    requireSemantics f
    require (∀ row ∈ f.provenance, row.1 ≠ "") "operation_contract_provenance_invalid"

/-- What validation asks of the fields. -/
structure OperationContractFields.Valid (f : OperationContractFields) : Prop where
  names : ∀ row ∈ f.stringTuples, ∀ value ∈ row.2, IsName value
  target_eq : f.target = f.targets.headD ""
  transitions_eq : f.allowedTransitions = f.edges
  edges_nodup : f.edges.Nodup
  allowed_eq : f.primaryOperation ≠ "" → f.allowedOperations = [f.primaryOperation]
  mutating_eq : f.primaryOperation ≠ "" →
    f.mutatingAction = mutatingOperations.contains f.primaryOperation
  incomplete : f.primaryOperation = "" → f.allowedOperations = [] ∧ f.mutatingAction = false
  provenance_keys : ∀ row ∈ f.provenance, row.1 ≠ ""

lemma requireSemantics_eq_ok_iff {f : OperationContractFields} :
    requireSemantics f = .ok () ↔
      (f.primaryOperation ≠ "" → f.allowedOperations = [f.primaryOperation]) ∧
      (f.primaryOperation ≠ "" →
        f.mutatingAction = mutatingOperations.contains f.primaryOperation) ∧
      (f.primaryOperation = "" → f.allowedOperations = [] ∧ f.mutatingAction = false) := by
  unfold requireSemantics
  by_cases h : f.primaryOperation = ""
  · simp [h]
  · rw [if_pos h, bind_eq_ok_iff, require_eq_ok, require_eq_ok]
    simp [h]

/-- Validation accepts exactly the valid fields. -/
theorem validateOperationContract_eq_ok_iff {f : OperationContractFields} :
    validateOperationContract f = .ok () ↔ f.Valid := by
  unfold validateOperationContract
  cases hfind : f.stringTuples.find? fun row => ¬∀ value ∈ row.2, IsName value with
  | some row =>
    refine ⟨fun herror => (nomatch herror), fun hvalid => ?_⟩
    have hbad := List.find?_some hfind
    exact absurd (hvalid.names row (List.mem_of_find?_eq_some hfind)) (by simpa using hbad)
  | none =>
    have hnames : ∀ row ∈ f.stringTuples, ∀ value ∈ row.2, IsName value := by
      simpa using List.find?_eq_none.mp hfind
    dsimp only
    rw [bind_eq_ok_iff, bind_eq_ok_iff, bind_eq_ok_iff, require_eq_ok, require_eq_ok,
      require_eq_ok, requireSemantics_eq_ok_iff]
    constructor
    · rintro ⟨htarget, ⟨htransitions, hnodup⟩, ⟨hallowed, hmutating, hincomplete⟩, hkeys⟩
      exact ⟨hnames, htarget, htransitions, hnodup, hallowed, hmutating, hincomplete, hkeys⟩
    · intro h
      exact ⟨h.target_eq, ⟨h.transitions_eq, h.edges_nodup⟩,
        ⟨h.allowed_eq, h.mutating_eq, h.incomplete⟩, h.provenance_keys⟩

instance : DecidablePred OperationContractFields.Valid := fun _ =>
  decidable_of_iff _ validateOperationContract_eq_ok_iff

/-- `OperationContract`: fields that pass the validation. -/
@[ext]
structure OperationContract extends OperationContractFields where
  valid : toOperationContractFields.Valid

/-- `OperationContract(fields)`, `none` where the constructor raises. -/
def OperationContract.make? (f : OperationContractFields) : Option OperationContract :=
  if h : f.Valid then some ⟨f, h⟩ else none

@[simp] lemma OperationContract.make?_self (c : OperationContract) :
    make? c.toOperationContractFields = some c := by
  rw [make?, dif_pos c.valid]

lemma OperationContract.of_make? {f : OperationContractFields} {c : OperationContract}
    (h : make? f = some c) : c.toOperationContractFields = f := by
  unfold make? at h
  split at h
  · obtain rfl := Option.some.inj h
    rfl
  · cases h

/-- `p == q`. -/
def FieldProvenance.eq (p q : FieldProvenance) : Bool :=
  p.source == q.source && p.confidence.eq q.confidence && p.span == q.span

/-- The fields without the provenance. -/
def OperationContractFields.withoutProvenance (c : OperationContractFields) :
    OperationContractFields :=
  { c with provenance := [] }

/-- `c == d`: equal fields, and the same keys in the provenance with equal values. -/
def OperationContract.eq (c d : OperationContract) : Bool :=
  c.withoutProvenance = d.withoutProvenance && c.provenance.length == d.provenance.length &&
    c.provenance.all fun row => d.provenance.any fun other =>
      other.1 == row.1 && row.2.eq other.2

/-- Without a NaN in its provenance a contract is equal to one with the same fields. -/
lemma OperationContract.eq_self {c : OperationContract}
    (h : ∀ row ∈ c.provenance, row.2.confidence ≠ .nan) : c.eq c = true := by
  unfold OperationContract.eq
  simp only [decide_true, beq_self_eq_true, Bool.true_and, List.all_eq_true]
  intro row hrow
  refine List.any_eq_true.mpr ⟨row, hrow, ?_⟩
  simp [FieldProvenance.eq, PyFloat.eq, h row hrow]

namespace OperationContract

variable (c : OperationContract)

lemma targets_names : ∀ t ∈ c.targets, IsName t :=
  c.valid.names ("targets", c.targets) (by simp [OperationContractFields.stringTuples])

lemma detailFields_names : ∀ t ∈ c.detailFields, IsName t :=
  c.valid.names ("detail_fields", c.detailFields) (by simp [OperationContractFields.stringTuples])

lemma requiredEvidence_names : ∀ t ∈ c.requiredEvidence, IsName t :=
  c.valid.names ("required_evidence", c.requiredEvidence)
    (by simp [OperationContractFields.stringTuples])

lemma allowedOperations_names : ∀ t ∈ c.allowedOperations, IsName t :=
  c.valid.names ("allowed_operations", c.allowedOperations)
    (by simp [OperationContractFields.stringTuples])

lemma allowedTransitions_names : ∀ t ∈ c.allowedTransitions, IsName t :=
  c.valid.names ("allowed_transitions", c.allowedTransitions)
    (by simp [OperationContractFields.stringTuples])

/-- The target is the first of the targets, or empty. -/
lemma target_trimmed : c.target = strip c.target := by
  rw [c.valid.target_eq]
  cases h : c.targets with
  | nil => decide
  | cons t ts => exact (c.targets_names t (by simp [h])).2

/-- A primary operation is a clean name. -/
lemma primaryOperation_name (h : c.primaryOperation ≠ "") : IsName c.primaryOperation := by
  have hallowed := c.valid.allowed_eq h
  exact c.allowedOperations_names c.primaryOperation (by simp [hallowed])

end OperationContract

end Trion.RoutingFrame
