import Trion.Pipeline.StepReceipts

/-!
# Read-only contracts

What a chain of receipts issued from one contract authorizes: the contract narrowed to the
operation of the last receipt.  A narrowed contract keeps its flag for mutation, and the
validation compares that flag with the operation as it is spelled, while the eligibility of a
tool compares operations in lower case; so a read-only contract keeps mutating tools out
unless the operation is a mutating one only in lower case.
-/

namespace Trion.Pipeline

open Trion.Python Trion.TaskLoop Trion.RoutingFrame Trion.Orchestrator

/-- The receipts issued from a contract, each with the step it follows upon: an initial one,
and any number of others along the transitions. -/
inductive IssuedReceipt (rt : PyRuntime) (contract : PyDict) (fingerprint : String) :
    StepOperationReceipt → Option Predecessor → Prop
  | initial {stepId : String} {receipt : StepOperationReceipt} :
      issueInitialReceipt rt stepId contract fingerprint = some receipt →
      IssuedReceipt rt contract fingerprint receipt none
  | followup {stepId : String} {previous receipt : StepOperationReceipt}
      {earlier : Option Predecessor} {p : Predecessor} :
      IssuedReceipt rt contract fingerprint previous earlier → p.receipt = some previous →
      issueFollowupReceipt rt stepId (some p) contract fingerprint = some receipt →
      IssuedReceipt rt contract fingerprint receipt (some p)

/-- The dictionary of a contract narrowed to an operation and its evidence. -/
def narrowedEntries (c : OperationContract) (operation : String) (evidence : PyVal) : PyDict :=
  PyDict.set (narrowed (c.toOperationContractFields.entries .tuple) operation)
    "required_evidence" evidence

/-- The fields of a contract narrowed to an operation and its evidence. -/
def narrowedFields (c : OperationContract) (operation : String) (evidence : List String) :
    OperationContractFields :=
  { c with
    primaryOperation := operation
    allowedOperations := [operation]
    requiredEvidence := evidence }

variable {rt : PyRuntime} {c : OperationContract} {fingerprint : String}
  {receipt : StepOperationReceipt} {predecessor : Option Predecessor}

/-! ### The functions on the dictionary of a contract -/

@[simp] lemma clean_str (s : String) : clean rt (.str s) = strip s := by
  by_cases h : s = ""
  · subst h
    rfl
  · simp [clean, PyVal.strOr, PyVal.or, PyVal.truthy, PyVal.toStr, h]

/-- The values of a tuple of names are the names. -/
lemma values_stringItems {seq : List PyVal → PyVal} (hseq : ∀ xs, iterate (seq xs) = xs)
    {names : List String} (h : ∀ name ∈ names, IsName name) :
    values rt (seq (stringItems names)) = names := by
  have hclean : ((stringItems names).map (clean rt)) = names := by
    rw [stringItems, List.map_map]
    refine (List.map_congr_left fun name hname => ?_).trans (List.map_id _)
    rw [Function.comp_apply, clean_str, ← (h name hname).2, id]
  rw [values, hseq, hclean, List.filter_eq_self]
  intro name hname
  simpa using (h name hname).1

lemma transitionFrom_entries (operation : String) (t : OperationTransition) :
    transitionFrom rt operation (.dict (t.entries .tuple)) =
      if t.sourceOperation = operation then some (t.targetOperation, t.requiredEvidence)
      else none := by
  have hevidence := @values_stringItems rt .tuple (fun _ => rfl) _ t.evidence_valid
  have hsource := t.operations_valid.1.2
  have htarget := t.operations_valid.2
  simp [transitionFrom, OperationTransition.entries, PyDict.get, List.lookup_cons, hevidence,
    ← hsource, ← htarget.2, htarget.1]

/-- The transition out of an operation is one of the contract's. -/
lemma transitionRequirement_entries {operation : String} {transition : String × List String}
    (h : transitionRequirement rt operation
      (PyDict.get (c.toOperationContractFields.entries .tuple) "transition_requirements") =
        some transition) :
    ∃ t ∈ c.transitionRequirements, transition = (t.targetOperation, t.requiredEvidence) := by
  have hget : PyDict.get (c.toOperationContractFields.entries .tuple) "transition_requirements" =
      .tuple (c.transitionRequirements.map fun t => .dict (t.entries .tuple)) := rfl
  rw [transitionRequirement, hget] at h
  split at h
  · rename_i single hsingle
    obtain rfl := Option.some.inj h
    have hmem : single ∈ ((RoutingFrame.sequence? (.tuple (c.transitionRequirements.map fun t =>
        .dict (t.entries .tuple)))).getD []).filterMap (transitionFrom rt operation) := by
      rw [hsingle]
      exact List.mem_singleton_self _
    obtain ⟨raw, hraw, hfrom⟩ := List.mem_filterMap.mp hmem
    obtain ⟨t, ht, rfl⟩ := List.mem_map.mp hraw
    rw [transitionFrom_entries] at hfrom
    split at hfrom
    · exact ⟨t, ht, (Option.some.inj hfrom).symm⟩
    · cases hfrom
  · cases h

/-! ### What a chain of receipts authorizes -/

/-- What every receipt of a chain has. -/
structure ChainReceipt (c : OperationContract) (fingerprint : String)
    (receipt : StepOperationReceipt) : Prop where
  fingerprint_ne : fingerprint ≠ ""
  fingerprint_eq : receipt.operationContractFingerprint = fingerprint
  scope : receipt.scopePreserved = true
  operation : IsName receipt.operation

lemma chainReceipt_of_initial {stepId : String}
    (h : issueInitialReceipt rt stepId (c.toOperationContractFields.entries .tuple) fingerprint =
      some receipt) :
    ChainReceipt c fingerprint receipt ∧ receipt.operation = c.primaryOperation ∧
      c.primaryOperation ≠ "" := by
  have hget : PyDict.get (c.toOperationContractFields.entries .tuple) "primary_operation" =
      .str c.primaryOperation := rfl
  rw [issueInitialReceipt, hget, clean_str] at h
  split at h
  · cases h
  · rename_i hcond
    simp only [not_or] at hcond
    obtain rfl := Option.some.inj h
    have hne : c.primaryOperation ≠ "" := by
      intro hempty
      rw [hempty] at hcond
      exact hcond.2.2.1 rfl
    have hname := c.primaryOperation_name hne
    exact ⟨⟨hcond.2.1, rfl, rfl, by rwa [← hname.2]⟩, hname.2.symm, hne⟩

/-- A follow-up receipt is for the target of a transition of the contract. -/
lemma chainReceipt_of_followup {stepId : String} {p : Predecessor}
    (hp : ∃ previous, p.receipt = some previous ∧ ChainReceipt c fingerprint previous)
    (h : issueFollowupReceipt rt stepId (some p) (c.toOperationContractFields.entries .tuple)
      fingerprint = some receipt) :
    ChainReceipt c fingerprint receipt ∧ ∃ previous, p.validReceipt fingerprint = some previous ∧
      ∃ t ∈ c.transitionRequirements, receipt.operation = t.targetOperation ∧
        transitionRequirement rt previous.operation
          (PyDict.get (c.toOperationContractFields.entries .tuple) "transition_requirements") =
            some (t.targetOperation, t.requiredEvidence) := by
  simp only [issueFollowupReceipt, Option.bind_eq_bind, Option.bind_some,
    Option.bind_eq_some_iff] at h
  obtain ⟨previous, hprevious, _, -, transition, htransition, hreceipt⟩ := h
  obtain ⟨t, ht, rfl⟩ := transitionRequirement_entries htransition
  obtain rfl := Option.some.inj hreceipt
  obtain ⟨_, -, hchain⟩ := hp
  exact ⟨⟨hchain.fingerprint_ne, rfl, rfl, t.operations_valid.2⟩, previous, hprevious, t, ht, rfl,
    htransition⟩

lemma IssuedReceipt.chainReceipt
    (h : IssuedReceipt rt (c.toOperationContractFields.entries .tuple) fingerprint receipt
      predecessor) : ChainReceipt c fingerprint receipt := by
  induction h with
  | initial hissue => exact (chainReceipt_of_initial hissue).1
  | followup _ hp hissue ih => exact (chainReceipt_of_followup ⟨_, hp, ih⟩ hissue).1

/-- For a receipt of a chain the contract is narrowed to the operation of the receipt, with
the evidence of the contract or of a transition. -/
theorem IssuedReceipt.contractForReceipt_eq
    (h : IssuedReceipt rt (c.toOperationContractFields.entries .tuple) fingerprint receipt
      predecessor) :
    ∃ (seq : List PyVal → PyVal) (evidence : List String), (∀ xs, sequence? (seq xs) = some xs) ∧ (∀ e ∈ evidence, IsName e) ∧
      contractForReceipt rt (c.toOperationContractFields.entries .tuple) (some receipt)
        fingerprint predecessor =
          narrowedEntries c receipt.operation (seq (stringItems evidence)) := by
  have hchain := h.chainReceipt
  have hauthorized : ¬(receipt.scopePreserved = false ∨ fingerprint = "" ∨
      receipt.operationContractFingerprint ≠ fingerprint) := by
    simp [hchain.scope, hchain.fingerprint_ne, hchain.fingerprint_eq]
  cases h with
  | initial hissue =>
    obtain ⟨-, hoperation, hne⟩ := chainReceipt_of_initial hissue
    refine ⟨.tuple, c.requiredEvidence, fun _ => rfl, c.requiredEvidence_names, ?_⟩
    have hprimary : clean rt (PyDict.get (c.toOperationContractFields.entries .tuple)
        "primary_operation") = receipt.operation := by
      rw [hoperation]
      exact (clean_str _).trans (c.primaryOperation_name hne).2.symm
    have hallowed : receipt.operation ∈ values rt (PyDict.get
        (c.toOperationContractFields.entries .tuple) "allowed_operations") := by
      have hvalues := @values_stringItems rt .tuple (fun _ => rfl) _
        c.allowedOperations_names
      have hget : PyDict.get (c.toOperationContractFields.entries .tuple) "allowed_operations" =
          .tuple (stringItems c.allowedOperations) := rfl
      rw [hget, hvalues, c.valid.allowed_eq hne, hoperation]
      exact List.mem_singleton_self _
    rw [contractForReceipt, if_neg hauthorized, if_neg (by rw [hprimary]; simp [hallowed])]
    rfl
  | @followup stepId previous receipt earlier p hprevious hp hissue =>
    obtain ⟨-, valid, hvalid, t, ht, hoperation, htransition⟩ :=
      chainReceipt_of_followup ⟨_, hp, hprevious.chainReceipt⟩ hissue
    refine ⟨.list, t.requiredEvidence, fun _ => rfl, t.evidence_valid, ?_⟩
    rw [contractForReceipt, if_neg hauthorized]
    simp only [hvalid, Option.bind_some, htransition]
    rw [if_neg (by simp [hoperation])]
    rfl

/-! ### Narrowed contracts are parsed -/

lemma narrowedEntries_get (c : OperationContract) (operation : String) (evidence : PyVal) :
    PyDict.get (narrowedEntries c operation evidence) "domain" = .str c.domain ∧
      PyDict.get (narrowedEntries c operation evidence) "primary_operation" = .str operation ∧
      PyDict.get (narrowedEntries c operation evidence) "mutating_action" =
        .bool c.mutatingAction ∧
      PyDict.get (narrowedEntries c operation evidence) "scope_lock" = .str c.scopeLock :=
  ⟨rfl, rfl, rfl, rfl⟩

/-- A narrowed contract is valid when the operation agrees with the flag for mutation. -/
lemma narrowedFields_valid {operation : String} {evidence : List String}
    (hoperation : IsName operation) (hevidence : ∀ e ∈ evidence, IsName e)
    (hflag : c.mutatingAction = mutatingOperations.contains operation) :
    (narrowedFields c operation evidence).Valid where
  names := by
    simp only [OperationContractFields.stringTuples, narrowedFields, List.mem_cons,
      List.not_mem_nil, or_false]
    rintro row (rfl | rfl | rfl | rfl | rfl)
    · exact c.targets_names
    · exact c.detailFields_names
    · exact hevidence
    · simpa using hoperation
    · exact c.allowedTransitions_names
  target_eq := c.valid.target_eq
  transitions_eq := c.valid.transitions_eq
  edges_nodup := c.valid.edges_nodup
  allowed_eq _ := rfl
  mutating_eq _ := hflag
  incomplete hempty := absurd hempty hoperation.1
  provenance_keys := c.valid.provenance_keys

/-- The parser gives a narrowed contract back from its dictionary. -/
lemma parse_narrowedEntries {operation : String} {evidence : List String}
    {seq : List PyVal → PyVal} (hseq : ∀ xs, sequence? (seq xs) = some xs)
    (hevidence : ∀ e ∈ evidence, IsName e) (hdomain : IsName c.domain)
    (hscope : c.scopeLock = strip c.scopeLock)
    (hvalid : (narrowedFields c operation evidence).Valid) (hoperation : IsName operation) :
    parseOperationContract (.dict (narrowedEntries c operation (seq (stringItems evidence)))) =
      some ⟨narrowedFields c operation evidence, hvalid⟩ := by
  have hparsed := @parseOperationContract_entries .tuple (fun _ => rfl)
    ⟨narrowedFields c operation evidence, hvalid⟩ ⟨hdomain, hoperation, hscope⟩
  -- the dictionary is that of the narrowed contract, but for the kind of two sequences
  have hallowed : PyDict.get (narrowedEntries c operation (seq (stringItems evidence)))
      "allowed_operations" = .list (stringItems [operation]) := rfl
  have hrequired : PyDict.get (narrowedEntries c operation (seq (stringItems evidence)))
      "required_evidence" = seq (stringItems evidence) := rfl
  have hlist := @stringTuple?_readsBack .list (fun _ => rfl) [operation]
    (by simpa using hoperation)
  have hseqEvidence := stringTuple?_readsBack hseq evidence hevidence
  have htuple := @stringTuple?_readsBack .tuple (fun _ => rfl) [operation]
    (by simpa using hoperation)
  have htupleEvidence := @stringTuple?_readsBack .tuple (fun _ => rfl) evidence hevidence
  have hfields : contractFields? (narrowedEntries c operation (seq (stringItems evidence))) =
      contractFields? ((narrowedFields c operation evidence).entries .tuple) := by
    unfold contractFields?
    rw [hallowed, hrequired, hlist, hseqEvidence, ← htuple, ← htupleEvidence]
    rfl
  have hnames : hasExactly (narrowedEntries c operation (seq (stringItems evidence)))
      contractFieldNames =
      hasExactly ((narrowedFields c operation evidence).entries .tuple) contractFieldNames := rfl
  rw [← hparsed, parseOperationContract, parseOperationContract, hfields, hnames]

/-! ### Tools for a read-only contract -/

lemma cleanString?_str_inv {s t : String} (h : cleanString? (.str s) = some t) :
    s = t ∧ s = strip s := by
  rw [cleanString?, asString?, Option.filter_some] at h
  split at h
  · rename_i hclean
    exact ⟨Option.some.inj h, by simpa using hclean⟩
  · cases h

/-- A tool that a narrowed contract without mutation lets through only reads, its family is the
operation in lower case, and the contract has a clean domain and scope. -/
structure LetThrough (rt : PyRuntime) (c : OperationContract) (operation : String)
    (tool : ToolDescriptor) : Prop where
  spelled : operation ∉ mutatingOperations
  risk : tool.risk rt = "read_only"
  family : tool.family rt = rt.lower operation
  domain : IsName c.domain
  scope : c.scopeLock = strip c.scopeLock

lemma letThrough_of_eligible {tools : List ToolDescriptor} {tool : ToolDescriptor}
    {operation : String} {evidence : PyVal} (hread : c.mutatingAction = false)
    (h : tool ∈ eligibleToolsForContract rt tools
      (.dict (narrowedEntries c operation evidence))) : LetThrough rt c operation tool := by
  obtain ⟨-, parsed, hparse, -, heligible⟩ := mem_eligibleToolsForContract.mp h
  have hparsed := parsedFrom_of_parse hparse
  obtain ⟨hgetDomain, hgetPrimary, hgetFlag, hgetScope⟩ := narrowedEntries_get c operation evidence
  have hprimary := hparsed.primaryOperation
  have hdomain := hparsed.domain
  have hscope := hparsed.scopeLock
  have hflag := hparsed.mutatingAction
  rw [hgetPrimary] at hprimary
  rw [hgetDomain] at hdomain
  rw [hgetScope] at hscope
  rw [hgetFlag, hread] at hflag
  obtain rfl : operation = parsed.primaryOperation := (cleanString?_str_inv hprimary).1
  have hmutating : parsed.mutatingAction = false := (Option.some.inj hflag).symm
  have hne := hparsed.names.2.1
  refine ⟨?_, ?_, ?_, ?_, (cleanString?_str_inv hscope).2⟩
  · have hsemantics := parsed.valid.mutating_eq hne
    rw [hmutating] at hsemantics
    simpa using hsemantics.symm
  · simpa [hmutating] using heligible.risk
  · have hfamily := heligible.operation
    rw [parsed.valid.allowed_eq hne] at hfamily
    simpa using hfamily
  · rw [(cleanString?_str_inv hdomain).1]
    exact hparsed.names.1

/-- A tool made to measure for a narrowed contract. -/
def fittingTool (rt : PyRuntime) (c : OperationContract) (operation : String)
    (evidence : List String) (hvalid : (narrowedFields c operation evidence).Valid) :
    ToolDescriptor where
  name := "fitting_tool"
  capabilityDomain := c.domain
  capabilityOperation := rt.lower operation
  capabilityEvidenceTypes := evidence
  capabilityRisk := "read_only"
  capabilityTargetScopes :=
    [targetScopeFromContract rt (rt.lower c.domain) ⟨narrowedFields c operation evidence, hvalid⟩]

/-- The scopes a contract can ask for are names in lower case. -/
lemma targetScope_mem (rt : PyRuntime) (domain : String) (c : OperationContract) :
    targetScopeFromContract rt domain c ∈ ["assistant_identity", "runtime_state", "",
      "tool_capability", "assistant_home", "project_docs", "time_reference",
      "external_world"] := by
  unfold targetScopeFromContract
  split_ifs <;> simp

/-- The tool made to measure is let through when the operation is a mutating one in lower
case. -/
lemma fittingTool_eligible {rt : CaseRuntime} {operation : String} {evidence : List String}
    (hread : c.mutatingAction = false) (hdomain : IsName c.domain)
    (hevidence : ∀ e ∈ evidence, IsName e)
    (hmutating : rt.lower operation ∈ mutatingOperations)
    (hvalid : (narrowedFields c operation evidence).Valid) :
    Eligible rt.toPyRuntime ⟨narrowedFields c operation evidence, hvalid⟩
      (fittingTool rt.toPyRuntime c operation evidence hvalid) := by
  have hlower : ∀ m ∈ mutatingOperations, normalized rt.toPyRuntime m = m ∧ m ≠ "" ∧
      operationFamily m = m := by
    intro m hm
    have htext : ∀ m ∈ mutatingOperations, strip m = m ∧ m ≠ "" ∧ operationFamily m = m ∧
        isLowerAscii m = true := by decide +kernel
    obtain ⟨hstrip, hne, hfamily, hascii⟩ := htext m hm
    exact ⟨by rw [normalized, hstrip, rt.lower_eq_self hascii], hne, hfamily⟩
  obtain ⟨hoperation, hne, hfamily⟩ := hlower _ hmutating
  have hdomainEq : normalized rt.toPyRuntime c.domain = rt.lower c.domain := by
    rw [normalized, ← hdomain.2]
  have hrisk : normalized rt.toPyRuntime "read_only" = "read_only" := by
    rw [normalized, show strip "read_only" = "read_only" by decide +kernel]
    exact rt.lower_eq_self (by decide +kernel)
  refine ⟨⟨?_, ?_, ?_⟩, hdomainEq, ?_, ?_, ?_, ?_⟩
  · exact hdomainEq ▸ rt.lower_ne_empty _ hdomain.1
  · exact hoperation.symm ▸ hne
  · exact ne_of_eq_of_ne hrisk (by decide)
  · have : (fittingTool rt.toPyRuntime c operation evidence hvalid).family rt.toPyRuntime =
        rt.lower operation := by
      rw [ToolDescriptor.family, capabilityOperationFamily, fittingTool, hoperation]
      exact (congrArg operationFamily hoperation).trans hfamily
    rw [this]
    exact List.mem_map_of_mem (List.mem_singleton_self _)
  · intro e he
    obtain ⟨name, hname, rfl⟩ := List.mem_map.mp he
    refine List.mem_map.mpr ⟨name, hname, ?_⟩
    rw [normalized, ← (hevidence name hname).2]
  · intro hscope
    have hscopes : ∀ s ∈ ["assistant_identity", "runtime_state", "", "tool_capability",
        "assistant_home", "project_docs", "time_reference", "external_world"],
        strip s = s ∧ isLowerAscii s = true := by decide +kernel
    obtain ⟨hstrip, hascii⟩ := hscopes _ (targetScope_mem rt.toPyRuntime (rt.lower c.domain)
      ⟨narrowedFields c operation evidence, hvalid⟩)
    refine List.mem_map.mpr ⟨_, List.mem_filter.mpr ⟨List.mem_singleton_self _, ?_⟩, ?_⟩
    · rw [hstrip]
      exact decide_eq_true hscope
    · rw [normalized, hstrip, rt.lower_eq_self hascii]
      rfl
  · rw [if_neg (by simp [narrowedFields, hread])]
    exact hrisk

/-- A read-only contract keeps mutating tools out of what a receipt of it authorizes exactly
when the operation of the receipt, if it is a mutating one in lower case, is spelled so; a
contract whose domain or scope is no clean text authorizes no tool at all. -/
theorem read_only_tools_iff (rt : CaseRuntime) (c : OperationContract)
    (hread : c.mutatingAction = false) (fingerprint : String) {receipt : StepOperationReceipt}
    {predecessor : Option Predecessor}
    (h : IssuedReceipt rt.toPyRuntime (c.toOperationContractFields.entries .tuple) fingerprint
      receipt predecessor) :
    (∀ tools, ∀ tool ∈ eligibleToolsForContract rt.toPyRuntime tools
        (.dict (contractForReceipt rt.toPyRuntime (c.toOperationContractFields.entries .tuple)
          (some receipt) fingerprint predecessor)),
        tool.risk rt.toPyRuntime = "read_only" ∧
          tool.family rt.toPyRuntime ∉ mutatingOperations) ↔
      (IsName c.domain → c.scopeLock = strip c.scopeLock →
        rt.lower receipt.operation ∈ mutatingOperations →
        receipt.operation ∈ mutatingOperations) := by
  obtain ⟨seq, evidence, hseq, hevidence, hcontract⟩ := h.contractForReceipt_eq
  have hname := h.chainReceipt.operation
  rw [hcontract]
  constructor
  · intro hall hdomain hscope hmutating
    by_contra hspelled
    have hflag : c.mutatingAction = mutatingOperations.contains receipt.operation := by
      simpa [hread] using hspelled
    have hvalid := narrowedFields_valid hname hevidence hflag
    have hparse := parse_narrowedEntries hseq hevidence hdomain hscope hvalid hname
    have heligible := fittingTool_eligible hread hdomain hevidence hmutating hvalid
    have hmem := mem_eligibleToolsForContract.mpr
      ⟨List.mem_singleton_self _, _, hparse, rt.lower_ne_empty _ hname.1, heligible⟩
    have hfamily := (letThrough_of_eligible hread hmem).family
    exact (hall _ _ hmem).2 (hfamily.symm ▸ hmutating)
  · intro hspelled tools tool htool
    have hthrough := letThrough_of_eligible hread htool
    refine ⟨hthrough.risk, fun hmutating => hthrough.spelled ?_⟩
    exact hspelled hthrough.domain hthrough.scope (hthrough.family ▸ hmutating)

/-! ### Two spellings -/

/-- A contract on containers that is flagged as read-only. -/
def containerFields (operation : String) : OperationContractFields where
  domain := "container_runtime"
  primaryOperation := operation
  target := ""
  targets := []
  detailFields := []
  mutatingAction := false
  requiredEvidence := []
  allowedOperations := [operation]
  allowedTransitions := []
  transitionRequirements := []
  scopeLock := "home"
  provenance := []

def listingContract : OperationContract := ⟨containerFields "list", by decide +kernel⟩

/-- The validation takes `Delete` for an operation that does not mutate. -/
def capitalDeleteContract : OperationContract := ⟨containerFields "Delete", by decide +kernel⟩

/-- The initial receipt of a step for an operation. -/
def stepReceiptFor (operation : String) : StepOperationReceipt where
  stepId := "tool_1"
  operation := operation
  operationContractFingerprint := "fingerprint"
  scopePreserved := true

/-- A tool that deletes containers and is declared to read only. -/
def deletingTool : ToolDescriptor where
  name := "container_delete"
  capabilityDomain := "container_runtime"
  capabilityOperation := "delete"
  capabilityRisk := "read_only"
  capabilityTargetScopes := ["runtime_state"]

/-- A listing contract keeps the deleting tool out. -/
theorem listing_read_only :
    deletingTool ∉ eligibleToolsForContract PyRuntime.ascii [deletingTool]
      (.dict (contractForReceipt PyRuntime.ascii
        (listingContract.toOperationContractFields.entries .tuple)
        (some (stepReceiptFor "list")) "fingerprint" none)) := by
  intro hmem
  have hissue : issueInitialReceipt PyRuntime.ascii "tool_1"
      (listingContract.toOperationContractFields.entries .tuple) "fingerprint" =
      some (stepReceiptFor "list") := by decide +kernel
  have hfamilies := (read_only_tools_iff .ascii listingContract rfl "fingerprint"
    (.initial hissue)).mpr fun _ _ hlower => absurd hlower (by decide +kernel)
  exact (hfamilies _ _ hmem).2 (by decide +kernel)

/-- The contract that is not flagged for mutation lets the deleting tool through. -/
theorem capital_delete_reaches_deleting_tool :
    capitalDeleteContract.mutatingAction = false ∧
      IssuedReceipt PyRuntime.ascii
        (capitalDeleteContract.toOperationContractFields.entries .tuple) "fingerprint"
        (stepReceiptFor "Delete") none ∧
      deletingTool ∈ eligibleToolsForContract PyRuntime.ascii [deletingTool]
        (.dict (contractForReceipt PyRuntime.ascii
          (capitalDeleteContract.toOperationContractFields.entries .tuple)
          (some (stepReceiptFor "Delete")) "fingerprint" none)) ∧
      deletingTool.family PyRuntime.ascii ∈ mutatingOperations := by
  have hissue : issueInitialReceipt PyRuntime.ascii "tool_1"
      (capitalDeleteContract.toOperationContractFields.entries .tuple) "fingerprint" =
      some (stepReceiptFor "Delete") := by decide +kernel
  exact ⟨rfl, .initial hissue, by decide +kernel, by decide +kernel⟩

end Trion.Pipeline
