import Trion.Library.OperationRun
import Trion.Library.OrderedDict
import Trion.Mcp.ProtocolContracts

/-!
# The HTTP transport

`smart_request` negotiates a protocol version and a session with the server unless that has been
done, finds out the format of the answers once, and posts its payload with what was negotiated;
a session error makes it negotiate and post again.  What was negotiated is kept in fields of the
transport, which no lock protects.  The model takes one access to them, or one post, at a time,
of whichever call comes next.

The initialize exchanges that negotiated a version are numbered, and the negotiation result is
kept with the number of its exchange.
-/

namespace Trion.Mcp

open Trion.Python OrderedDict OperationRun

/-! ### Responses -/

/-- A response of the server: its status code and headers, what `json` returns if it does, the
lines of its body or the exception they end with, and the text of the exception that
`raise_for_status` raises for it. -/
structure HttpResponse where
  statusCode : ℕ
  contentType : String := ""
  sessionId : Option String := none
  json : Option PyVal := none
  lines : List (Except String String) := []
  statusError : String := ""

/-- `success` of `parse_response_outcome`. -/
def successOutcome : Option PyVal → MCPTransportRequestOutcome
  | some payload => .answered (freezeValue payload)
  | none => .malformedResponse

/-- `protocol_error` of `parse_response_outcome`. -/
def protocolErrorOutcome : PyVal → MCPTransportRequestOutcome
  | .dict error => .jsonRpcError (freezeEntries error)
  | _ => .malformedResponse

/-- What of a line of an event stream is read as JSON. -/
def eventText (line : String) : Option String :=
  if startsWith line "data: " then some (String.ofList (line.toList.drop 6))
  else if startsWith line "\x7b" then some line
  else none

/-- What `json.loads` raises: a `JSONDecodeError`, or another exception (an integer of too many
digits, too deep a nesting) with its text. -/
inductive LoadsError where
  | decode
  | other (text : String)

/-- `json.loads`. -/
abbrev JsonLoads := String → Except LoadsError PyVal

/-- The lines of an event stream; `result` is the first result so far. -/
def parseEventLines (loads : JsonLoads) :
    Option PyVal → List (Except String String) → Except String MCPTransportRequestOutcome
  | result, [] => .ok (successOutcome result)
  | _, .error text :: _ => .error text
  | result, .ok line :: lines =>
    match (eventText line).map loads with
    | none => parseEventLines loads result lines
    | some (.error .decode) => parseEventLines loads result lines
    | some (.error (.other text)) => .error text
    | some (.ok (.dict data)) =>
      if PyDict.has data "error" then .ok (protocolErrorOutcome (PyDict.get data "error"))
      else if PyDict.has data "result" then
        match PyDict.get data "result" with
        | .dict candidate =>
          parseEventLines loads (some (result.getD (.dict candidate))) lines
        | _ => .ok .malformedResponse
      else parseEventLines loads result lines
    | some (.ok _) => .ok .malformedResponse

/-- `parse_response_outcome`. -/
def parseResponseOutcome (loads : JsonLoads) (response : HttpResponse) :
    Except String MCPTransportRequestOutcome :=
  if containsStr response.contentType "text/event-stream" then
    parseEventLines loads none response.lines
  else
    match response.json with
    | some (.dict data) =>
      if PyDict.has data "error" then .ok (protocolErrorOutcome (PyDict.get data "error"))
      else if PyDict.has data "result" then
        match PyDict.get data "result" with
        | .none => .ok .malformedResponse
        | payload => .ok (successOutcome (some payload))
      else .ok (successOutcome (some (.dict data)))
    | _ => .ok .malformedResponse

/-- `raise_for_status`. -/
def raiseForStatus (response : HttpResponse) : Except String Unit :=
  if 400 ≤ response.statusCode ∧ response.statusCode < 600 then .error response.statusError
  else .ok ()

/-- `response.json().get("error", {}).get("message", "")`, where it is a text. -/
def errorMessage (response : HttpResponse) : Option String :=
  match response.json with
  | some (.dict data) =>
    if PyDict.has data "error" then
      match PyDict.get data "error" with
      | .dict error =>
        if PyDict.has error "message" then
          match PyDict.get error "message" with
          | .str message => some message
          | _ => none
        else some ""
      | _ => none
    else some ""
  | _ => none

/-- The response to a post is a session error, as `smart_request` tells. -/
def isSessionError (rt : PyRuntime) (response : HttpResponse) : Bool :=
  response.statusCode == 400 &&
    ((errorMessage response).any fun message => containsStr (rt.lower message) "session")

/-- The protocol version in the response to an `initialize` request. -/
def initializeVersion (loads : JsonLoads) (response : HttpResponse) :
    Except String PyVal := do
  raiseForStatus response
  let outcome ← parseResponseOutcome loads response
  return match outcome.status, outcome.payload with
    | .ok, some (.dict payload) => PyDict.get payload "protocolVersion"
    | .ok, _ => .dict []
    | _, _ => .none

/-! ### The state -/

/-- What a session is ensured for. -/
inductive SessionUse where
  | request
  | detection

/-- `FORMAT_UNKNOWN`, `FORMAT_JSON`, `FORMAT_STREAMABLE` and `FORMAT_STREAMABLE_STATELESS`. -/
inductive HttpFormat where
  | unknown
  | json
  | streamable
  | streamableStateless

/-- Headers of a post. -/
abbrev Headers := List (String × String)

/-- What an initialize exchange that negotiated a version returned. -/
structure Exchange where
  negotiation : MCPProtocolNegotiationResult
  sessionId : Option String

/-- Where a call of `smart_request` is. -/
inductive HttpPhase where
  /-- `ensure_session` reads the negotiation result. -/
  | ensuring (use : SessionUse)
  /-- `initialize_session` clears the session id. -/
  | clearingSession (use : SessionUse)
  /-- `initialize_session` clears the negotiation result. -/
  | clearingNegotiation (use : SessionUse)
  /-- The `initialize` request is posted. -/
  | initializing (use : SessionUse)
  /-- `initialize_session` sets the negotiation result. -/
  | settingNegotiation (use : SessionUse) (exchange : ℕ)
  /-- `initialize_session` sets the session id. -/
  | settingSession (use : SessionUse) (exchange : ℕ)
  /-- `if transport._session_id`, before it is logged. -/
  | loggingSession (use : SessionUse)
  /-- `transport._session_id[:8]`. -/
  | slicingSession (use : SessionUse)
  /-- `if not transport._format_detected` of `smart_request`. -/
  | checkingFormat
  /-- `if transport._format_detected` of `detect_format`. -/
  | detecting
  /-- `get_headers_with_session` reads the negotiation result. -/
  | readingNegotiation (use : SessionUse)
  /-- `get_headers_with_session` looks whether there is a session id. -/
  | checkingSession (use : SessionUse) (exchange : ℕ) (headers : Headers)
  /-- `get_headers_with_session` reads the session id. -/
  | readingSession (use : SessionUse) (exchange : ℕ) (headers : Headers)
  /-- The payload, or the request the format is detected with, is posted. -/
  | posting (use : SessionUse) (exchange : ℕ) (headers : Headers)
  /-- `detect_format` sets the format. -/
  | settingFormat (format : HttpFormat)
  /-- `detect_format` sets that the format is known. -/
  | settingDetected
  /-- After a session error the session id is cleared. -/
  | droppingSession
  /-- After a session error the negotiation result is cleared. -/
  | droppingNegotiation
  /-- After a session error the format is set. -/
  | droppingFormat
  | done

/-- A call of `smart_request`. -/
structure HttpCall where
  payload : PyVal
  retryCount : ℕ := 0
  phase : HttpPhase := .ensuring .request

/-- A transport with its calls and the initialize exchanges that negotiated a version; the
negotiation result is kept as the number of its exchange. -/
structure HTTPTransport where
  apiKey : Option String := none
  format : Option HttpFormat := none
  sessionId : Option String := none
  negotiation : Option ℕ := none
  formatDetected : Bool := false
  calls : List HttpCall := []
  exchanges : List Exchange := []

/-- What happens in the course of a step. -/
inductive HttpEvent where
  /-- An `initialize` request is posted. -/
  | initializePosted (call : ℕ) (headers : Headers)
  /-- Another message is posted, with the headers made from the result of the exchange. -/
  | posted (call : ℕ) (use : SessionUse) (body : PyVal) (exchange : ℕ) (headers : Headers)
  /-- The server has answered the payload with a session error and the call tries again. -/
  | refused (call : ℕ)
  | ended (call : ℕ) (outcome : MCPTransportRequestOutcome)

/-- A call begins, or goes on; `response` is what a post of it returns or raises. -/
inductive HttpStep where
  | begin (payload : PyVal)
  | advance (call : ℕ) (response : Except String HttpResponse)

/-- The payload of the request the format is detected with. -/
def detectionPayload : PyVal :=
  .dict [("jsonrpc", .str "2.0"), ("id", .int 1), ("method", .str "tools/list"),
    ("params", .dict [])]

namespace HTTPTransport

/-- `get_base_headers`. -/
def baseHeaders (t : HTTPTransport) : Headers :=
  let headers := [("Content-Type", "application/json"),
    ("Accept", "application/json, text/event-stream")]
  match t.apiKey with
  | some key => if key = "" then headers else headers ++ [("Authorization", "Bearer " ++ key)]
  | none => headers

/-- The call goes on to another phase. -/
def setPhase (t : HTTPTransport) (call : ℕ) (c : HttpCall) (phase : HttpPhase) : HTTPTransport :=
  { t with calls := t.calls.set call { c with phase := phase } }

/-- The call ends. -/
def finish (t : HTTPTransport) (call : ℕ) (c : HttpCall) (outcome : MCPTransportRequestOutcome) :
    HTTPTransport × List HttpEvent :=
  (t.setPhase call c .done, [.ended call outcome])

/-- The call ends with an exception. -/
def fail (t : HTTPTransport) (call : ℕ) (c : HttpCall) (text : String) :
    HTTPTransport × List HttpEvent :=
  t.finish call c (.transportFailure (orElse text "HTTP transport failure"))

/-- Where a call goes on when its session is ensured. -/
def afterSession : SessionUse → HttpPhase
  | .request => .checkingFormat
  | .detection => .readingNegotiation .detection

/-- What a call does without a negotiated version. -/
def rejected (t : HTTPTransport) (call : ℕ) (c : HttpCall) :
    SessionUse → HTTPTransport × List HttpEvent
  | .request => t.finish call c .malformedResponse
  | .detection => (t.setPhase call c (.readingNegotiation .request), [])

/-- The format a response tells. -/
def detectedFormat (rt : PyRuntime) : Except String HttpResponse → HttpFormat
  | .error _ => .unknown
  | .ok response =>
    let refusal := (errorMessage response).any fun message =>
      containsStr (rt.lower message) "session" || containsStr message "Missing session ID"
    if response.statusCode = 400 ∧ refusal = true then .streamable
    else if response.statusCode = 200 then
      if containsStr response.contentType "text/event-stream" then .streamableStateless else .json
    else if response.statusCode = 406 then .streamableStateless
    else .unknown

/-- What a call does with the response to its `initialize` request. -/
def afterInitialize (loads : JsonLoads) (t : HTTPTransport) (call : ℕ) (c : HttpCall)
    (use : SessionUse) (response : Except String HttpResponse) : HTTPTransport × List HttpEvent :=
  match response with
  | .error text => t.fail call c text
  | .ok response =>
    match initializeVersion loads response with
    | .error text => t.fail call c text
    | .ok version =>
      let negotiation := validateProtocolVersion version
      if negotiation.status = .negotiated then
        let exchange := Exchange.mk negotiation response.sessionId
        ({ t with exchanges := t.exchanges ++ [exchange] }.setPhase call c
          (.settingNegotiation use t.exchanges.length), [])
      else t.rejected call c use

/-- What a call does with the response to its payload. -/
def afterPost (rt : PyRuntime) (loads : JsonLoads) (t : HTTPTransport) (call : ℕ)
    (c : HttpCall) (response : Except String HttpResponse) : HTTPTransport × List HttpEvent :=
  match response with
  | .error text => t.fail call c text
  | .ok response =>
    if isSessionError rt response = true ∧ c.retryCount < 2 then
      (t.setPhase call { c with retryCount := c.retryCount + 1 } .droppingSession, [.refused call])
    else
      match raiseForStatus response with
      | .error text => t.fail call c text
      | .ok _ =>
        match parseResponseOutcome loads response with
        | .error text => t.fail call c text
        | .ok outcome => t.finish call c outcome

/-- The headers with the negotiated version. -/
def versionHeaders (t : HTTPTransport) (exchange : ℕ) : Headers :=
  insert t.baseHeaders "MCP-Protocol-Version"
    ((t.exchanges[exchange]?.bind (·.negotiation.protocolVersion)).getD "")

/-- The headers with the session id; a header without a value is not sent. -/
def sessionHeaders (t : HTTPTransport) (headers : Headers) : Headers :=
  match t.sessionId with
  | some id => insert headers "Mcp-Session-Id" id
  | none => headers

/-- There is no session id, or it is empty. -/
def noSession (t : HTTPTransport) : Bool := t.sessionId.getD "" == ""

/-- A call goes on. -/
def advance (rt : PyRuntime) (loads : JsonLoads) (t : HTTPTransport) (call : ℕ)
    (c : HttpCall) (response : Except String HttpResponse) : HTTPTransport × List HttpEvent :=
  match c.phase with
  | .ensuring use =>
    (t.setPhase call c (if t.negotiation.isSome then afterSession use else .clearingSession use),
      [])
  | .clearingSession use =>
    ({ t with sessionId := none }.setPhase call c (.clearingNegotiation use), [])
  | .clearingNegotiation use =>
    ({ t with negotiation := none }.setPhase call c (.initializing use), [])
  | .initializing use =>
    let (t', events) := t.afterInitialize loads call c use response
    (t', .initializePosted call t.baseHeaders :: events)
  | .settingNegotiation use exchange =>
    ({ t with negotiation := some exchange }.setPhase call c (.settingSession use exchange), [])
  | .settingSession use exchange =>
    ({ t with sessionId := t.exchanges[exchange]?.bind Exchange.sessionId }.setPhase call c
      (.loggingSession use), [])
  | .loggingSession use =>
    (t.setPhase call c (if t.noSession then afterSession use else .slicingSession use), [])
  | .slicingSession use =>
    if t.sessionId.isSome then (t.setPhase call c (afterSession use), [])
    else t.fail call c "'NoneType' object is not subscriptable"
  | .checkingFormat =>
    (t.setPhase call c (if t.formatDetected then .readingNegotiation .request else .detecting), [])
  | .detecting =>
    (t.setPhase call c (if t.formatDetected then .readingNegotiation .request
      else .ensuring .detection), [])
  | .readingNegotiation use =>
    match t.negotiation with
    | none => t.rejected call c use
    | some exchange =>
      (t.setPhase call c (.checkingSession use exchange (t.versionHeaders exchange)), [])
  | .checkingSession use exchange headers =>
    (t.setPhase call c (if t.noSession then .posting use exchange headers
      else .readingSession use exchange headers), [])
  | .readingSession use exchange headers =>
    (t.setPhase call c (.posting use exchange (t.sessionHeaders headers)), [])
  | .posting .detection exchange headers =>
    (t.setPhase call c (.settingFormat (detectedFormat rt response)),
      [.posted call .detection detectionPayload exchange headers])
  | .posting .request exchange headers =>
    let (t', events) := t.afterPost rt loads call c response
    (t', .posted call .request c.payload exchange headers :: events)
  | .settingFormat format => ({ t with format := some format }.setPhase call c .settingDetected, [])
  | .settingDetected =>
    ({ t with formatDetected := true }.setPhase call c (.readingNegotiation .request), [])
  | .droppingSession => ({ t with sessionId := none }.setPhase call c .droppingNegotiation, [])
  | .droppingNegotiation => ({ t with negotiation := none }.setPhase call c .droppingFormat, [])
  | .droppingFormat =>
    ({ t with format := some .streamable }.setPhase call c (.ensuring .request), [])
  | .done => (t, [])

end HTTPTransport

/-- One step of a transport and its server. -/
def httpTransport (rt : PyRuntime) (loads : JsonLoads) :
    System HTTPTransport HttpStep (List HttpEvent) := fun t step =>
  match step with
  | .begin payload => ({ t with calls := t.calls ++ [{ payload := payload }] }, [])
  | .advance call response =>
    match t.calls[call]? with
    | some c => t.advance rt loads call c response
    | none => (t, [])

end Trion.Mcp
