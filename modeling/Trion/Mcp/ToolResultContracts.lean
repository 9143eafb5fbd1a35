import Trion.Mcp.ProtocolContracts
import Trion.Python.Json

/-!
# Tool results

The envelope of a tool result (`tool_result_contracts.py`): it is made of the outcome of a
request, its parts are frozen and checked against one another, and the mapping that goes over the
wire is made of it.
-/

namespace Trion.Mcp

open Trion.Python

/-! ### Outcomes -/

/-- `value is None`. -/
def isNone : PyVal → Bool
  | .none => true
  | _ => false

/-- The payload, with `None` for none. -/
def MCPTransportRequestOutcome.payloadValue (o : MCPTransportRequestOutcome) : PyVal :=
  o.payload.getD .none

/-- The outcome with its payload and its error frozen. -/
def MCPTransportRequestOutcome.frozen (o : MCPTransportRequestOutcome) :
    MCPTransportRequestOutcome :=
  { o with payload := o.payload.map freezeValue, protocolError := o.protocolError.map freezeEntries }

/-- `MCPTransportRequestOutcome.__post_init__`: the fields are checked against the status, and the
payload and the error are frozen. -/
def MCPTransportRequestOutcome.postInit (o : MCPTransportRequestOutcome) :
    Except PyError MCPTransportRequestOutcome :=
  match o.status with
  | .ok =>
    if isNone o.payloadValue ∨ o.protocolFailureKind.isSome ∨ o.protocolError.isSome ∨
        o.transportDiagnostic.isSome then
      .error (.valueError "OK requires only a non-None payload")
    else .ok o.frozen
  | .protocolFailure =>
    if !isNone o.payloadValue ∨ o.transportDiagnostic.isSome then
      .error (.valueError "protocol failure forbids payload and transport diagnostic")
    else
      match o.protocolFailureKind with
      | some .jsonRpcError =>
        if o.protocolError.isNone then
          .error (.valueError "JSON_RPC_ERROR requires the original mapping")
        else .ok o.frozen
      | some .malformedResponse =>
        if o.protocolError.isSome then
          .error (.valueError "MALFORMED_RESPONSE forbids protocol_error")
        else .ok o.frozen
      | none => .error (.valueError "protocol failure requires a controlled failure kind")
  | .transportFailure =>
    if !isNone o.payloadValue ∨ o.protocolFailureKind.isSome ∨ o.protocolError.isSome then
      .error (.valueError "transport failure forbids protocol fields and payload")
    else if (o.transportDiagnostic.getD "") = "" then
      .error (.valueError "transport failure requires one non-empty diagnostic")
    else .ok o.frozen

/-! ### Freezing -/

mutual

/-- `_freeze`. -/
def freeze : PyVal → Except PyError PyVal
  | .dict entries => (freezeMapping entries).map .dict
  | .list items => (freezeSequence items).map .tuple
  | .tuple items => (freezeSequence items).map .tuple
  | .float (.finite q) => .ok (.float (.finite q))
  | .float _ => .error .typeError
  | .object _ => .error .typeError
  | value => .ok value

/-- `_freeze` on the items of a sequence. -/
def freezeSequence : List PyVal → Except PyError (List PyVal)
  | [] => .ok []
  | item :: items => do return (← freeze item) :: (← freezeSequence items)

/-- `_freeze` on the values of a mapping. -/
def freezeMapping : List (String × PyVal) → Except PyError (List (String × PyVal))
  | [] => .ok []
  | (key, item) :: entries => do return (key, ← freeze item) :: (← freezeMapping entries)

end

mutual

/-- `_plain`. -/
def plain : PyVal → PyVal
  | .dict entries => .dict (plainEntries entries)
  | .tuple items => .list (plainItems items)
  | value => value

/-- `_plain` on the items of a sequence. -/
def plainItems : List PyVal → List PyVal
  | [] => []
  | item :: items => plain item :: plainItems items

/-- `_plain` on the values of a mapping. -/
def plainEntries : List (String × PyVal) → List (String × PyVal)
  | [] => []
  | (key, item) :: entries => (key, plain item) :: plainEntries entries

end

/-! ### Envelopes -/

/-- `MCPToolCallStatus`. -/
inductive MCPToolCallStatus where
  | success
  | toolFailure
  | protocolFailure
  | transportFailure
deriving DecidableEq, Repr

/-- `MCPResultPresence`. -/
inductive MCPResultPresence where
  | missing
  | empty
  | value
deriving DecidableEq, Repr

/-- `MCPToolResultEnvelope`. -/
structure MCPToolResultEnvelope where
  status : MCPToolCallStatus
  contentPresence : MCPResultPresence := .missing
  content : PyVal := .none
  structuredContentPresence : MCPResultPresence := .missing
  structuredContent : PyVal := .none
  isErrorPresence : MCPResultPresence := .missing
  isError : PyVal := .none
  protocolError : PyVal := .none
  transportDiagnostic : PyVal := .none

namespace MCPToolResultEnvelope

/-- `_validate_content`. -/
def validateContent (e : MCPToolResultEnvelope) : Except PyError Unit :=
  match e.contentPresence, e.content with
  | .missing, .none => .ok ()
  | .missing, _ => .error (.valueError "missing content requires None")
  | presence, .list items | presence, .tuple items =>
    if (presence = .empty) ≠ (items.length = 0) then
      .error (.valueError "content presence contradicts its value")
    else .ok ()
  | _, _ => .error .typeError

/-- `_validate_structured_content`. -/
def validateStructuredContent (e : MCPToolResultEnvelope) : Except PyError Unit :=
  match e.structuredContentPresence, e.structuredContent with
  | .missing, .none => .ok ()
  | .missing, _ => .error (.valueError "missing structuredContent requires None")
  | presence, .dict entries =>
    if (presence = .empty) ≠ (entries.length = 0) then
      .error (.valueError "structuredContent presence contradicts its value")
    else .ok ()
  | _, _ => .error .typeError

/-- `_validate_is_error`. -/
def validateIsError (e : MCPToolResultEnvelope) : Except PyError Unit :=
  match e.isErrorPresence, e.isError with
  | .empty, _ => .error (.valueError "isError never permits EMPTY")
  | .missing, .none => .ok ()
  | .missing, _ => .error (.valueError "missing isError requires None")
  | .value, .bool _ => .ok ()
  | .value, _ => .error .typeError

/-- `result_present`. -/
def resultPresent (e : MCPToolResultEnvelope) : Prop :=
  e.contentPresence ≠ .missing ∨ e.structuredContentPresence ≠ .missing ∨
    e.isErrorPresence ≠ .missing

instance (e : MCPToolResultEnvelope) : Decidable e.resultPresent :=
  inferInstanceAs (Decidable (_ ∨ _))

/-- `self.is_error is True`. -/
def isErrorTrue (e : MCPToolResultEnvelope) : Bool := e.isError matches .bool true

/-- `_validate_status`. -/
def validateStatus (e : MCPToolResultEnvelope) : Except PyError Unit :=
  match e.status with
  | .success | .toolFailure =>
    if !isNone e.protocolError ∨ !isNone e.transportDiagnostic then
      .error (.valueError "tool results forbid protocol and transport diagnostics")
    else if e.isErrorTrue ≠ (e.status = .toolFailure) then
      .error (.valueError "status contradicts isError")
    else .ok ()
  | .protocolFailure =>
    if e.resultPresent ∨ !isNone e.transportDiagnostic then
      .error (.valueError "protocol failure forbids result and transport fields")
    else
      match e.protocolError with
      | .none | .dict _ => .ok ()
      | _ => .error .typeError
  | .transportFailure =>
    if e.resultPresent ∨ !isNone e.protocolError then
      .error (.valueError "transport failure forbids result and protocol fields")
    else
      match e.transportDiagnostic with
      | .str text =>
        if text = "" then .error (.valueError "transport failure requires a diagnostic")
        else .ok ()
      | _ => .error (.valueError "transport failure requires a diagnostic")

/-- `MCPToolResultEnvelope.__post_init__`. -/
def postInit (e : MCPToolResultEnvelope) : Except PyError MCPToolResultEnvelope := do
  e.validateContent
  e.validateStructuredContent
  e.validateIsError
  e.validateStatus
  return { e with
    content := ← freeze e.content
    structuredContent := ← freeze e.structuredContent
    protocolError := ← freeze e.protocolError }

end MCPToolResultEnvelope

/-! ### Projections -/

/-- `_presence` of something with a length. -/
def presenceOf (length : ℕ) : MCPResultPresence := if length = 0 then .empty else .value

/-- The field `content` as the envelope takes it: `none` where it is present and no sequence. -/
def contentField (payload : PyDict) : Option (MCPResultPresence × PyVal) :=
  match payload.lookup "content" with
  | none => some (.missing, .none)
  | some (.list items) => some (presenceOf items.length, .list items)
  | some (.tuple items) => some (presenceOf items.length, .tuple items)
  | some _ => none

/-- The field `structuredContent` as the envelope takes it. -/
def structuredField (payload : PyDict) : Option (MCPResultPresence × PyVal) :=
  match payload.lookup "structuredContent" with
  | none => some (.missing, .none)
  | some (.dict entries) => some (presenceOf entries.length, .dict entries)
  | some _ => none

/-- The field `isError` as the envelope takes it. -/
def isErrorField (payload : PyDict) : Option (MCPResultPresence × PyVal) :=
  match payload.lookup "isError" with
  | none => some (.missing, .none)
  | some (.bool b) => some (.value, .bool b)
  | some _ => none

/-- `project_tool_result_envelope` of the payload of an answer. -/
def projectPayload (payload : PyDict) : Except PyError MCPToolResultEnvelope :=
  match contentField payload, structuredField payload, isErrorField payload with
  | some content, some structured, some isError =>
    MCPToolResultEnvelope.postInit
      { status := if isError.2 matches .bool true then .toolFailure else .success
        contentPresence := content.1
        content := content.2
        structuredContentPresence := structured.1
        structuredContent := structured.2
        isErrorPresence := isError.1
        isError := isError.2 }
  | _, _, _ => MCPToolResultEnvelope.postInit { status := .protocolFailure }

/-- `project_tool_result_envelope`. -/
def projectToolResultEnvelope (o : MCPTransportRequestOutcome) :
    Except PyError MCPToolResultEnvelope :=
  match o.status with
  | .transportFailure =>
    MCPToolResultEnvelope.postInit
      { status := .transportFailure
        transportDiagnostic := (o.transportDiagnostic.map PyVal.str).getD .none }
  | .protocolFailure =>
    MCPToolResultEnvelope.postInit
      { status := .protocolFailure
        protocolError := (o.protocolError.map PyVal.dict).getD .none }
  | .ok =>
    match o.payloadValue with
    | .dict payload => projectPayload payload
    | _ => MCPToolResultEnvelope.postInit { status := .protocolFailure }

/-- `project_tool_result_wire_mapping`. -/
def projectToolResultWireMapping (e : MCPToolResultEnvelope) : PyDict :=
  let result : PyDict := if e.contentPresence ≠ .missing then [("content", plain e.content)] else []
  let result := if e.structuredContentPresence ≠ .missing then
    result ++ [("structuredContent", plain e.structuredContent)] else result
  let result := if e.isErrorPresence ≠ .missing then result ++ [("isError", e.isError)] else result
  let result := if isNone e.protocolError then result
    else PyDict.set result "error" (plain e.protocolError)
  if isNone e.transportDiagnostic then result
  else PyDict.set result "error" e.transportDiagnostic

end Trion.Mcp
