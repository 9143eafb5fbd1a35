import Trion.RoutingFrame.ContractSchema

/-!
# Which tools a contract lets through

`tool_eligibility.py`, with the helpers it uses: the hard gates on domain, operation, evidence,
scope and risk.  Names are compared in lower case.
-/

namespace Trion.Orchestrator

open Trion.Python Trion.RoutingFrame

/-- The fields of a `ToolDescriptor` that eligibility reads, and its name. -/
structure ToolDescriptor where
  name : String
  capabilityDomain : String := ""
  capabilityOperation : String := ""
  capabilityEvidenceTypes : List String := []
  capabilityRisk : String := ""
  capabilityTargetScopes : List String := []
deriving DecidableEq, Repr

/-- `capability_operation_family` of an operation that is in lower case and stripped. -/
def operationFamily (value : String) : String :=
  if value ∈ ["search", "semantic_search", "graph_search", "recall", "query", "find"] then "search"
  else if value ∈ ["read", "get", "load", "recent"] then "read"
  else if value ∈ ["list", "inventory"] then "list"
  else if value ∈ ["inspect", "describe", "metadata"] then "inspect"
  else if value ∈ ["logs", "tail"] then "logs"
  else if value ∈ ["save", "create", "write", "record"] then "write"
  else if value ∈ ["update", "upsert", "append"] then "update"
  else if value ∈ ["delete", "remove", "reset"] then "delete"
  else if value ∈ ["start", "stop", "restart", "run", "execute"] then "execute"
  else if value ∈ ["maintenance", "maintain", "backfill", "optimize"] then "maintain"
  else if value ∈ ["healthcheck", "stats", "status", "neighbors"] then "read"
  else value

/-- `capability_operation_family`. -/
def capabilityOperationFamily (rt : PyRuntime) (operation : String) : String :=
  operationFamily (rt.lower (strip operation))

/-- `str(item).strip().lower()`. -/
def normalized (rt : PyRuntime) (s : String) : String := rt.lower (strip s)

/-- `target_scope_from_contract`, for a domain in lower case and no intent kind. -/
def targetScopeFromContract (rt : PyRuntime) (domain : String) (contract : OperationContract) :
    String :=
  if domain = "memory" then "assistant_identity"
  else if domain = "container_runtime" then
    if contract.primaryOperation ≠ "" then "runtime_state" else ""
  else if domain = "tools" then "tool_capability"
  else if domain = "files" then
    if rt.lower contract.scopeLock = "home" then "assistant_home" else "project_docs"
  else if domain = "time" then "time_reference"
  else "external_world"

/-- The family under which a tool's operation is compared. -/
def ToolDescriptor.family (rt : PyRuntime) (tool : ToolDescriptor) : String :=
  capabilityOperationFamily rt (normalized rt tool.capabilityOperation)

/-- The risk of a tool as it is compared. -/
def ToolDescriptor.risk (rt : PyRuntime) (tool : ToolDescriptor) : String :=
  normalized rt tool.capabilityRisk

/-- The gates a tool passes for a contract, in the order of the source. -/
structure Eligible (rt : PyRuntime) (contract : OperationContract) (tool : ToolDescriptor) :
    Prop where
  declared : normalized rt tool.capabilityDomain ≠ "" ∧
    normalized rt tool.capabilityOperation ≠ "" ∧ tool.risk rt ≠ ""
  domain : normalized rt tool.capabilityDomain = rt.lower contract.domain
  operation : tool.family rt ∈ contract.allowedOperations.map rt.lower
  evidence : ∀ e ∈ contract.requiredEvidence.map rt.lower,
    e ∈ tool.capabilityEvidenceTypes.map (normalized rt)
  scope : targetScopeFromContract rt (rt.lower contract.domain) contract ≠ "" →
    targetScopeFromContract rt (rt.lower contract.domain) contract ∈
      (tool.capabilityTargetScopes.filter fun scope => strip scope ≠ "").map (normalized rt)
  risk : if contract.mutatingAction then tool.risk rt ≠ "read_only" else tool.risk rt = "read_only"

instance (rt : PyRuntime) (contract : OperationContract) (tool : ToolDescriptor) :
    Decidable (Eligible rt contract tool) :=
  decidable_of_iff
    ((normalized rt tool.capabilityDomain ≠ "" ∧
        normalized rt tool.capabilityOperation ≠ "" ∧ tool.risk rt ≠ "") ∧
      normalized rt tool.capabilityDomain = rt.lower contract.domain ∧
      tool.family rt ∈ contract.allowedOperations.map rt.lower ∧
      (∀ e ∈ contract.requiredEvidence.map rt.lower,
        e ∈ tool.capabilityEvidenceTypes.map (normalized rt)) ∧
      (targetScopeFromContract rt (rt.lower contract.domain) contract ≠ "" →
        targetScopeFromContract rt (rt.lower contract.domain) contract ∈
          (tool.capabilityTargetScopes.filter fun scope => strip scope ≠ "").map
            (normalized rt)) ∧
      if contract.mutatingAction then tool.risk rt ≠ "read_only" else tool.risk rt = "read_only")
    ⟨fun ⟨h₁, h₂, h₃, h₄, h₅, h₆⟩ => ⟨h₁, h₂, h₃, h₄, h₅, h₆⟩,
      fun h => ⟨h.declared, h.domain, h.operation, h.evidence, h.scope, h.risk⟩⟩

/-- `eligible_tools_for_contract`. -/
def eligibleToolsForContract (rt : PyRuntime) (tools : List ToolDescriptor) (contract : PyVal) :
    List ToolDescriptor :=
  match parseOperationContract contract with
  | none => []
  | some parsed =>
    if rt.lower parsed.primaryOperation = "" then []
    else tools.filter fun tool => Eligible rt parsed tool

/-- An eligible tool is one of the tools, and it passes the gates of the contract. -/
lemma mem_eligibleToolsForContract {rt : PyRuntime} {tools : List ToolDescriptor}
    {contract : PyVal} {tool : ToolDescriptor} :
    tool ∈ eligibleToolsForContract rt tools contract ↔
      tool ∈ tools ∧ ∃ parsed, parseOperationContract contract = some parsed ∧
        rt.lower parsed.primaryOperation ≠ "" ∧ Eligible rt parsed tool := by
  unfold eligibleToolsForContract
  cases hparse : parseOperationContract contract with
  | none => simp
  | some parsed =>
    dsimp only
    split_ifs with hempty
    · simp [hempty]
    · simp [hempty]

end Trion.Orchestrator
