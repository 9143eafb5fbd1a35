import Trion.Python.Value

/-!
# Outcomes of requests to MCP servers

What a transport makes of an answer, and what it makes of the protocol version in the answer to
an `initialize` request.  Values that a server sends are read with `json.loads` and frozen:
lists become tuples, dictionaries stay mappings.
-/

namespace Trion.Mcp

open Trion.Python

/-- `SUPPORTED_MCP_PROTOCOL_VERSION`. -/
def supportedMcpProtocolVersion : String := "2024-11-05"

/-- `MCPProtocolNegotiationStatus`. -/
inductive MCPProtocolNegotiationStatus where
  | negotiated
  | missing
  | malformed
  | unsupported
deriving DecidableEq, Repr

/-- The name of the status. -/
def MCPProtocolNegotiationStatus.name : MCPProtocolNegotiationStatus → String
  | .negotiated => "NEGOTIATED"
  | .missing => "MISSING"
  | .malformed => "MALFORMED"
  | .unsupported => "UNSUPPORTED"

/-- `MCPProtocolNegotiationResult`. -/
structure MCPProtocolNegotiationResult where
  status : MCPProtocolNegotiationStatus
  protocolVersion : Option String := none
deriving DecidableEq, Repr

/-- `validate_protocol_version`. -/
def validateProtocolVersion : PyVal → MCPProtocolNegotiationResult
  | .none => { status := .missing }
  | .str value =>
    if value = "" then { status := .malformed }
    else if value ≠ supportedMcpProtocolVersion then
      { status := .unsupported, protocolVersion := some value }
    else { status := .negotiated, protocolVersion := some value }
  | _ => { status := .malformed }

/-- The negotiated version is the supported one. -/
lemma negotiated_iff {value : PyVal} :
    (validateProtocolVersion value).status = .negotiated ↔
      value = .str supportedMcpProtocolVersion := by
  cases value with
  | str text =>
    dsimp only [validateProtocolVersion]
    by_cases hempty : text = ""
    · rw [if_pos hempty, hempty]
      simp [supportedMcpProtocolVersion]
    · rw [if_neg hempty]
      by_cases hother : text = supportedMcpProtocolVersion <;> simp [hother]
  | _ => simp [validateProtocolVersion]

mutual

/-- `_freeze_value` on what `json.loads` returns. -/
def freezeValue : PyVal → PyVal
  | .list items => .tuple (freezeItems items)
  | .tuple items => .tuple (freezeItems items)
  | .dict entries => .dict (freezeEntries entries)
  | value => value

/-- `_freeze_value` on the items of a sequence. -/
def freezeItems : List PyVal → List PyVal
  | [] => []
  | item :: items => freezeValue item :: freezeItems items

/-- `_freeze_value` on the values of a mapping. -/
def freezeEntries : List (String × PyVal) → List (String × PyVal)
  | [] => []
  | (key, item) :: entries => (key, freezeValue item) :: freezeEntries entries

end

/-- `MCPTransportRequestStatus`. -/
inductive MCPTransportRequestStatus where
  | ok
  | protocolFailure
  | transportFailure
deriving DecidableEq, Repr

/-- `MCPTransportProtocolFailureKind`. -/
inductive MCPTransportProtocolFailureKind where
  | jsonRpcError
  | malformedResponse
deriving DecidableEq, Repr

/-- `MCPTransportRequestOutcome`. -/
structure MCPTransportRequestOutcome where
  status : MCPTransportRequestStatus
  payload : Option PyVal := none
  protocolFailureKind : Option MCPTransportProtocolFailureKind := none
  protocolError : Option PyDict := none
  transportDiagnostic : Option String := none

namespace MCPTransportRequestOutcome

/-- A request that was answered. -/
def answered (payload : PyVal) : MCPTransportRequestOutcome :=
  { status := .ok, payload := some payload }

/-- A request that was answered with a JSON-RPC error. -/
def jsonRpcError (error : PyDict) : MCPTransportRequestOutcome :=
  { status := .protocolFailure, protocolFailureKind := some .jsonRpcError
    protocolError := some error }

/-- A request whose answer is not one. -/
def malformedResponse : MCPTransportRequestOutcome :=
  { status := .protocolFailure, protocolFailureKind := some .malformedResponse }

/-- A request that could not be sent or was not answered. -/
def transportFailure (diagnostic : String) : MCPTransportRequestOutcome :=
  { status := .transportFailure, transportDiagnostic := some diagnostic }

end MCPTransportRequestOutcome

/-- `MCPSTDIOReadStatus`. -/
inductive MCPSTDIOReadStatus where
  | jsonMessage
  | malformedResponse
  | readFailure
  | readTimeout
deriving DecidableEq, Repr

/-- `MCPSTDIOReadObservation`. -/
structure MCPSTDIOReadObservation where
  status : MCPSTDIOReadStatus
  payload : Option PyDict := none
  transportDiagnostic : Option String := none

end Trion.Mcp
