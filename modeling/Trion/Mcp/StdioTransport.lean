import Trion.Library.OperationRun
import Trion.Mcp.ProtocolContracts

/-!
# The STDIO transport

`STDIOTransport` talks to a server process over its standard input and output.  A request starts
the process when there is none, negotiates with it, writes its message and takes the next
observation from a queue that a reader thread fills.  Requests and `shutdown` may be called by
several threads, and an earlier process may have left its reader behind; so the model takes one
statement that touches shared state at a time, of whichever call, reader or server comes next.

Which of the server's lines answers which request is nothing the transport knows.  The model
numbers the requests that were written to a process and keeps with each line the number of the
request it was written as the answer to.
-/

namespace Trion.Mcp

open Trion.Python OperationRun

/-! ### Lines and observations -/

/-- `parse_stdio_read_line`, on what `json.loads` makes of the line. -/
def parseStdioReadLine : Option PyVal → MCPSTDIOReadObservation
  | some (.dict entries) => { status := .jsonMessage, payload := some (freezeEntries entries) }
  | _ => { status := .malformedResponse }

/-- `_outcome_from_read_observation`. -/
def outcomeFromReadObservation (observation : MCPSTDIOReadObservation) :
    MCPTransportRequestOutcome :=
  match observation.status with
  | .readFailure => .transportFailure
      (orElse (observation.transportDiagnostic.getD "") "STDIO transport failure")
  | .readTimeout => .transportFailure
      (orElse (observation.transportDiagnostic.getD "") "Timeout waiting for response")
  | .malformedResponse => .malformedResponse
  | .jsonMessage =>
    let envelope := observation.payload.getD []
    match PyDict.get envelope "result", PyDict.get envelope "error" with
    | .none, .dict error => .jsonRpcError error
    | .none, _ => .malformedResponse
    | result, _ => .answered result

/-- `_failure_text`; `dictText` is `str` of a dictionary. -/
def failureText (dictText : PyDict → String) (outcome : MCPTransportRequestOutcome) : String :=
  if outcome.status = .transportFailure then
    orElse (outcome.transportDiagnostic.getD "") "STDIO transport failure"
  else if outcome.protocolFailureKind = some .jsonRpcError then
    dictText (outcome.protocolError.getD [])
  else "Malformed MCP response"

/-- The protocol version in the answer to an `initialize` request. -/
def protocolVersionOf (outcome : MCPTransportRequestOutcome) : PyVal :=
  match outcome.payload with
  | some (.dict entries) => PyDict.get entries "protocolVersion"
  | _ => .dict []

/-- What `_initialize_process` raises when it looks at the answer, if it does. -/
def initializeError (dictText : PyDict → String) (outcome : MCPTransportRequestOutcome) :
    Option String :=
  if outcome.status ≠ .ok then some ("Initialize failed: " ++ failureText dictText outcome)
  else
    let negotiation := validateProtocolVersion (protocolVersionOf outcome)
    if negotiation.status ≠ .negotiated then
      some ("Initialize failed: " ++ negotiation.status.name)
    else none

/-! ### Messages -/

/-- The messages the transport writes. -/
inductive StdioMessage where
  | initializeRequest
  | initializedNotification
  | toolsList
  | toolsCall (name : String) (arguments : PyDict)

/-- The payload of a message. -/
def StdioMessage.payload : StdioMessage → PyDict
  | .initializeRequest => [("jsonrpc", .str "2.0"), ("id", .int 0), ("method", .str "initialize"),
      ("params", .dict [("protocolVersion", .str supportedMcpProtocolVersion),
        ("capabilities", .dict []),
        ("clientInfo", .dict [("name", .str "trion-hub"), ("version", .str "1.0.0")])])]
  | .initializedNotification => [("jsonrpc", .str "2.0"),
      ("method", .str "notifications/initialized"), ("params", .dict [])]
  | .toolsList => [("jsonrpc", .str "2.0"), ("id", .int 1), ("method", .str "tools/list"),
      ("params", .dict [])]
  | .toolsCall name arguments => [("jsonrpc", .str "2.0"), ("id", .int 1),
      ("method", .str "tools/call"),
      ("params", .dict [("name", .str name), ("arguments", .dict arguments)])]

/-- The operations of a transport. -/
inductive StdioOperation where
  /-- `list_tools_protocol_result`. -/
  | listTools
  /-- `call_tool`. -/
  | callTool (name : String) (arguments : PyDict)
  /-- `shutdown`. -/
  | shutdown

/-! ### The state -/

/-- A line of a server: the process that wrote it, the number of the request it answers, and
what `json.loads` makes of it. -/
structure ServerLine where
  process : ℕ
  answerTo : Option ℕ
  loaded : Option PyVal

/-- What a wait for a response ends with: a line that a reader has put into the queue, the
failure of a reader, or nothing. -/
inductive Received where
  | line (written : ServerLine)
  | failure (text : String)
  | nothing

/-- A line was received. -/
def Received.isLine : Received → Bool
  | .line _ => true
  | _ => false

/-- The observation of a wait. -/
def Received.observation : Received → MCPSTDIOReadObservation
  | .line written => parseStdioReadLine written.loaded
  | .failure text =>
    { status := .readFailure, transportDiagnostic := some (orElse text "STDIO transport failure") }
  | .nothing =>
    { status := .readTimeout, transportDiagnostic := some "Timeout waiting for response" }

/-- A server process: the numbers of the requests it has received and not answered, and the
lines it has written that nobody has read. -/
structure ServerProcess where
  inbox : List ℕ := []
  stdout : List ServerLine := []

/-- Where a reader thread is in `_read_output`. -/
inductive ReaderPhase where
  /-- At the condition of the loop. -/
  | atLoop
  /-- About to call `self.process.stdout.readline`. -/
  | calling
  /-- In `readline` on the output of a process. -/
  | reading (process : ℕ)
  /-- About to call `self.process.poll`. -/
  | polling
  | ended

/-- The reader is in `readline`. -/
def ReaderPhase.isReading : ReaderPhase → Bool
  | .reading _ => true
  | _ => false

/-- Where a call is.  In `_start_process`, `process` is the process the call has started. -/
inductive CallPhase where
  /-- At `if self.process is not None`, which is one step with the `Popen` that follows. -/
  | starting (message : StdioMessage)
  /-- `self.process` is set. -/
  | popened (message : StdioMessage) (process : ℕ)
  /-- `self._running` is set. -/
  | running (message : StdioMessage) (process : ℕ)
  /-- The reader thread is started; about to write the `initialize` request. -/
  | initializing (message : StdioMessage) (process : ℕ)
  /-- Waiting for the answer to the `initialize` request. -/
  | awaitingInitialize (message : StdioMessage) (process ticket : ℕ)
  /-- The answer was accepted; about to write the `initialized` notification. -/
  | acknowledging (message : StdioMessage) (process : ℕ) (answer : Received)
  /-- `_start_process` has returned; about to write the message. -/
  | sending (message : StdioMessage)
  /-- Waiting for the answer to the message. -/
  | awaiting (ticket : ℕ)
  /-- At `self._running = False`. -/
  | stopping
  /-- At `if not self.process`. -/
  | stopped
  /-- At `self.process.terminate()`. -/
  | terminating
  /-- The process has ended; at `self.process = None`. -/
  | clearing
  | done

/-- A transport with its calls, its reader threads and the processes it has started.  The last
two fields are not the transport's: the number of the next request that is written, and the
processes whose start raised an exception after they were started. -/
structure STDIOTransport where
  process : Option ℕ := none
  responseQueue : List Received := []
  running : Bool := false
  calls : List CallPhase := []
  readers : List ReaderPhase := []
  servers : List ServerProcess := []
  nextTicket : ℕ := 0
  abandoned : List ℕ := []

/-- What happens in the course of a step. -/
inductive StdioEvent where
  /-- The call has started the process. -/
  | started (call process : ℕ)
  /-- The call has found a process and starts none. -/
  | reused (call process : ℕ)
  /-- The call has written a message to the process. -/
  | wrote (call process : ℕ) (message : StdioMessage)
  /-- The initialize exchange with the process has ended; `answer` is what was accepted. -/
  | negotiated (call process : ℕ) (answer : Received)
  /-- `_start_process` raises an exception after it has started the process. -/
  | startFailed (call process : ℕ)
  /-- The request that was written with the number `ticket` ends with the outcome, which is
  taken from what was received. -/
  | answered (call ticket : ℕ) (received : Received) (outcome : MCPTransportRequestOutcome)
  /-- The request ends with an exception. -/
  | failed (call : ℕ) (outcome : MCPTransportRequestOutcome)

/-- A step: a call begins, or goes on with what the system call it makes returns; it takes the
first observation of the queue, or its wait ends with the queue empty; a reader thread goes on;
a server answers the first request it has not answered, or writes another line. -/
inductive StdioStep where
  | begin (operation : StdioOperation)
  | advance (call : ℕ) (result : Except String Unit)
  | take (call : ℕ)
  | timeOut (call : ℕ)
  /-- `readline` returns a line, or `poll` returns `None`. -/
  | read (reader : ℕ)
  /-- `readline` returns the empty string, or `poll` returns an exit code. -/
  | readEnd (reader : ℕ)
  | readError (reader : ℕ) (text : String)
  | answer (process : ℕ) (loaded : Option PyVal)
  | notify (process : ℕ) (loaded : Option PyVal)

namespace STDIOTransport

/-- The call goes on to another phase. -/
def setCall (t : STDIOTransport) (call : ℕ) (phase : CallPhase) : STDIOTransport :=
  { t with calls := t.calls.set call phase }

/-- The reader goes on to another phase. -/
def setReader (t : STDIOTransport) (reader : ℕ) (phase : ReaderPhase) : STDIOTransport :=
  { t with readers := t.readers.set reader phase }

/-- The outcome of a request that ends with an exception. -/
def exceptionOutcome (text : String) : MCPTransportRequestOutcome :=
  .transportFailure (orElse text "STDIO transport failure")

/-- An exception before there is a process, or after `_start_process`. -/
def fail (t : STDIOTransport) (call : ℕ) (text : String) : STDIOTransport × List StdioEvent :=
  (t.setCall call .done, [.failed call (exceptionOutcome text)])

/-- An exception in `_start_process` after `self.process` was set: nothing is undone. -/
def failStart (t : STDIOTransport) (call process : ℕ) (text : String) :
    STDIOTransport × List StdioEvent :=
  ({ t with abandoned := t.abandoned ++ [process] }.setCall call .done,
    [.startFailed call process, .failed call (exceptionOutcome text)])

/-- A process has received a message.  One that has an `id` is a request, which gets the next
number and which the process is going to answer. -/
def written (t : STDIOTransport) (message : StdioMessage) (process : ℕ) : STDIOTransport :=
  if PyDict.has message.payload "id" then
    { t with
      servers := t.servers.modify process fun s => { s with inbox := s.inbox ++ [t.nextTicket] }
      nextTicket := t.nextTicket + 1 }
  else t

/-- `_write_payload`: the process it is written to, or the exception it raises. -/
def writePayload (t : STDIOTransport) (message : StdioMessage) (result : Except String Unit) :
    Except String (ℕ × STDIOTransport) :=
  match t.process, result with
  | none, _ => .error "STDIO process stdin is not available"
  | some _, .error text => .error text
  | some process, .ok () => .ok (process, t.written message process)

/-- A call goes on. -/
def advance (t : STDIOTransport) (call : ℕ) (result : Except String Unit) :
    STDIOTransport × List StdioEvent :=
  match t.calls[call]? with
  | some (.starting message) =>
    match t.process with
    | some process => (t.setCall call (.sending message), [.reused call process])
    | none =>
      match result with
      | .error text => t.fail call text
      | .ok () =>
        ({ t with
            process := some t.servers.length
            servers := t.servers ++ [ServerProcess.mk [] []] }.setCall call
          (.popened message t.servers.length), [.started call t.servers.length])
  | some (.popened message process) =>
    ({ t with running := true }.setCall call (.running message process), [])
  | some (.running message process) =>
    match result with
    | .error text => t.failStart call process text
    | .ok () =>
      ({ t with readers := t.readers ++ [ReaderPhase.atLoop] }.setCall call
        (.initializing message process), [])
  | some (.initializing message process) =>
    match t.writePayload .initializeRequest result with
    | .error text => t.failStart call process text
    | .ok (target, t') =>
      (t'.setCall call (.awaitingInitialize message process t.nextTicket),
        [.wrote call target .initializeRequest])
  | some (.acknowledging message process answer) =>
    match t.writePayload .initializedNotification result with
    | .error text => t.failStart call process text
    | .ok (target, t') =>
      (t'.setCall call (.sending message),
        [.wrote call target .initializedNotification, .negotiated call process answer])
  | some (.sending message) =>
    match t.writePayload message result with
    | .error text => t.fail call text
    | .ok (target, t') =>
      (t'.setCall call (.awaiting t.nextTicket), [.wrote call target message])
  | some .stopping => ({ t with running := false }.setCall call .stopped, [])
  | some .stopped =>
    (t.setCall call (if t.process.isSome then .terminating else .done), [])
  | some .terminating =>
    (t.setCall call (if t.process.isSome then .clearing else .done), [])
  | some .clearing => ({ t with process := none }.setCall call .done, [])
  | _ => (t, [])

/-- A wait of the call ends. -/
def receive (dictText : PyDict → String) (t : STDIOTransport) (call : ℕ) (received : Received) :
    STDIOTransport × List StdioEvent :=
  let outcome := outcomeFromReadObservation received.observation
  match t.calls[call]? with
  | some (.awaitingInitialize message process _) =>
    match initializeError dictText outcome with
    | none => (t.setCall call (.acknowledging message process received), [])
    | some text => t.failStart call process text
  | some (.awaiting ticket) => (t.setCall call .done, [.answered call ticket received outcome])
  | _ => (t, [])

/-- The call is in `_wait_for_response`. -/
def waits (t : STDIOTransport) (call : ℕ) : Bool :=
  match t.calls[call]? with
  | some (.awaitingInitialize ..) => true
  | some (.awaiting _) => true
  | _ => false

/-- A reader puts an observation into the queue. -/
def put (t : STDIOTransport) (received : Received) : STDIOTransport :=
  { t with responseQueue := t.responseQueue ++ [received] }

/-- A reader ends with an exception. -/
def failReader (t : STDIOTransport) (reader : ℕ) (text : String) : STDIOTransport :=
  (t.put (.failure text)).setReader reader .ended

/-- The exception of an access to an attribute of `None`. -/
def noneHasNo (name : String) : String :=
  "'NoneType' object has no attribute '" ++ name ++ "'"

/-- A reader goes on; `ended` says that `readline` returns the empty string, or `poll` an exit
code. -/
def advanceReader (t : STDIOTransport) (reader : ℕ) (ended : Bool) : STDIOTransport :=
  match t.readers[reader]? with
  | some .atLoop => t.setReader reader (if t.running && t.process.isSome then .calling else .ended)
  | some .calling =>
    match t.process with
    | some process => t.setReader reader (.reading process)
    | none => t.failReader reader (noneHasNo "stdout")
  | some (.reading process) =>
    match t.servers[process]?, ended with
    | some ⟨inbox, line :: stdout⟩, false =>
      ({ t with servers := t.servers.set process ⟨inbox, stdout⟩ }.put (.line line)).setReader
        reader .atLoop
    | some ⟨_, []⟩, true => t.setReader reader .polling
    | _, _ => t
  | some .polling =>
    if t.process.isNone then t.failReader reader (noneHasNo "poll")
    else t.setReader reader (if ended then .ended else .atLoop)
  | _ => t

/-- A server answers the first of the requests it has not answered. -/
def answer (t : STDIOTransport) (process : ℕ) (loaded : Option PyVal) : STDIOTransport :=
  match t.servers[process]? with
  | some ⟨ticket :: inbox, stdout⟩ =>
    { t with servers := t.servers.set process ⟨inbox, stdout ++ [⟨process, some ticket, loaded⟩]⟩ }
  | _ => t

/-- A server writes a line that answers nothing. -/
def notify (t : STDIOTransport) (process : ℕ) (loaded : Option PyVal) : STDIOTransport :=
  match t.servers[process]? with
  | some ⟨inbox, stdout⟩ =>
    { t with servers := t.servers.set process ⟨inbox, stdout ++ [⟨process, none, loaded⟩]⟩ }
  | none => t

/-- Where the call of an operation begins. -/
def firstPhase : StdioOperation → CallPhase
  | .listTools => .starting .toolsList
  | .callTool name arguments => .starting (.toolsCall name arguments)
  | .shutdown => .stopping

end STDIOTransport

/-- One step of a transport and of what it talks to. -/
def stdioTransport (dictText : PyDict → String) :
    System STDIOTransport StdioStep (List StdioEvent) := fun t step =>
  match step with
  | .begin operation => ({ t with calls := t.calls ++ [STDIOTransport.firstPhase operation] }, [])
  | .advance call result => t.advance call result
  | .take call =>
    match t.waits call, t.responseQueue with
    | true, received :: rest => { t with responseQueue := rest }.receive dictText call received
    | _, _ => (t, [])
  | .timeOut call =>
    match t.waits call, t.responseQueue with
    | true, [] => t.receive dictText call .nothing
    | _, _ => (t, [])
  | .read reader => (t.advanceReader reader false, [])
  | .readEnd reader => (t.advanceReader reader true, [])
  | .readError reader text =>
    match t.readers[reader]? with
    | some (.reading _) => (t.failReader reader text, [])
    | _ => (t, [])
  | .answer process loaded => (t.answer process loaded, [])
  | .notify process loaded => (t.notify process loaded, [])

/-! ### Operations and messages -/

/-- The message is a `tools/list` or a `tools/call` request. -/
def StdioMessage.IsToolRequest : StdioMessage → Prop
  | .toolsList => True
  | .toolsCall .. => True
  | _ => False

/-- The operation is a request. -/
def StdioOperation.isRequest : StdioOperation → Bool
  | .shutdown => false
  | _ => true

/-- The call has ended. -/
def CallPhase.isDone : CallPhase → Bool
  | .done => true
  | _ => false

lemma eq_done_of_isDone {phase : CallPhase} (h : phase.isDone = true) : phase = .done := by
  cases phase <;> simp_all [CallPhase.isDone]

/-- The operation that begins with the step. -/
def StdioStep.begun? : StdioStep → Option StdioOperation
  | .begin operation => some operation
  | _ => none

/-- The operations are called one after the other. -/
def OneAtATime (t : STDIOTransport) (step : StdioStep) : Prop :=
  step.begun?.isSome = true → ∀ phase ∈ t.calls, phase.isDone = true

instance (t : STDIOTransport) : DecidablePred (OneAtATime t) := fun _ =>
  inferInstanceAs (Decidable (_ → _))

/-! ### What a step leaves as it is -/

section Frame

variable {t t' : STDIOTransport} {message : StdioMessage} {target : ℕ}

@[simp] lemma written_process : (t.written message target).process = t.process := by
  unfold STDIOTransport.written
  split <;> rfl

@[simp] lemma written_responseQueue :
    (t.written message target).responseQueue = t.responseQueue := by
  unfold STDIOTransport.written
  split <;> rfl

@[simp] lemma written_calls : (t.written message target).calls = t.calls := by
  unfold STDIOTransport.written
  split <;> rfl

@[simp] lemma written_readers : (t.written message target).readers = t.readers := by
  unfold STDIOTransport.written
  split <;> rfl

/-- Writing a payload needs a process, and changes nothing but what the process has received. -/
lemma writePayload_ok {result : Except String Unit}
    (h : t.writePayload message result = .ok (target, t')) :
    t.process = some target ∧ t' = t.written message target := by
  unfold STDIOTransport.writePayload at h
  cases hprocess : t.process with
  | none =>
    rw [hprocess] at h
    simp at h
  | some process =>
    rw [hprocess] at h
    cases result with
    | error text => simp at h
    | ok _ =>
      obtain ⟨rfl, rfl⟩ := Prod.mk.inj (Except.ok.inj h)
      exact ⟨rfl, rfl⟩

/-- Only a line is taken for an answer. -/
lemma exists_line_of_ok {received : Received}
    (h : (outcomeFromReadObservation received.observation).status = .ok) :
    ∃ line, received = .line line := by
  cases received with
  | line line => exact ⟨line, rfl⟩
  | failure text =>
    simp [Received.observation, outcomeFromReadObservation,
      MCPTransportRequestOutcome.transportFailure] at h
  | nothing =>
    simp [Received.observation, outcomeFromReadObservation,
      MCPTransportRequestOutcome.transportFailure] at h

end Frame

end Trion.Mcp
