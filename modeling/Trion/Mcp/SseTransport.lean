import Trion.Mcp.HttpTransport

/-!
# The SSE transport

`call_tool` of the SSE transport and `parse_response_outcome` of the HTTP transport read the same
event streams.  Where the one takes an event that is `null` for one that is not JSON, the other
takes it for a malformed answer; and an exception of `json.loads` that is no `JSONDecodeError` ends
the one with an outcome and the other without one.
-/

namespace Trion.Mcp

open Trion.Python

/-! ### The source -/

section Source

variable (loads : JsonLoads)

/-- The text of a data line. -/
def dataText (line : String) : String := String.ofList (line.toList.drop 6)

/-- `decode_sse_event`. -/
def decodeSseEvent (line : String) : Except String PyVal :=
  if startsWith line "data: " then
    match loads (dataText line) with
    | .ok data => .ok data
    | .error .decode => .ok .none
    | .error (.other text) => .error text
  else .ok .none

/-- `decode_sse_tool_result_envelope`. -/
def decodeSseToolResultEnvelope : PyVal → MCPTransportRequestOutcome
  | .dict result => .answered (freezeValue (.dict result))
  | _ => .malformedResponse

/-- The loop of `call_tool` over the lines of the response, of which an exception may take the
place of one. -/
def readSseLines : Option MCPTransportRequestOutcome → List (Except String String) →
    Except String (Option MCPTransportRequestOutcome)
  | outcome, [] => .ok outcome
  | _, .error text :: _ => .error text
  | outcome, .ok line :: lines =>
    if startsWith line "data: " then
      match decodeSseEvent loads line with
      | .error text => .error text
      | .ok .none => readSseLines outcome lines
      | .ok (.dict data) =>
        if PyDict.has data "error" then
          .ok (some (match PyDict.get data "error" with
            | .dict error => .jsonRpcError (freezeEntries error)
            | _ => .malformedResponse))
        else if PyDict.has data "result" then
          let candidate := decodeSseToolResultEnvelope (PyDict.get data "result")
          if candidate.status = .protocolFailure then .ok (some candidate)
          else readSseLines (some (outcome.getD candidate)) lines
        else readSseLines outcome lines
      | .ok _ => .ok (some .malformedResponse)
    else readSseLines outcome lines

/-- The outcome in `SSETransport.call_tool`: the negotiation and the post may raise. -/
def sseCallOutcome (negotiation : Except String MCPProtocolNegotiationResult)
    (response : Except String HttpResponse) : MCPTransportRequestOutcome :=
  let called : Except String MCPTransportRequestOutcome := do
    if (← negotiation).status ≠ .negotiated then return .malformedResponse
    let response ← response
    raiseForStatus response
    return (← readSseLines loads none response.lines).getD .malformedResponse
  match called with
  | .ok outcome => outcome
  | .error text => .transportFailure (orElse text "SSE transport failure")

end Source

/-! ### The events of a stream -/

/-- The event ends the reading, for a decoder that passes over `null`. -/
def endsReading : PyVal → Bool
  | .none => false
  | .dict data =>
    PyDict.has data "error" || (PyDict.has data "result" &&
      match PyDict.get data "result" with
      | .dict _ => false
      | _ => true)
  | _ => true

/-- The event is a JSON-RPC error. -/
def isRpcError : PyVal → Bool
  | .dict data =>
    PyDict.has data "error" &&
      match PyDict.get data "error" with
      | .dict _ => true
      | _ => false
  | _ => false

/-- The event has a result. -/
def hasResult : PyVal → Bool
  | .dict data => PyDict.has data "result"
  | _ => false

/-- What `json.loads` makes of the data lines that it does not raise a `JSONDecodeError` for: a
value, or the text of another exception. -/
def eventsOf (loads : JsonLoads) (lines : List String) : List (Except String PyVal) :=
  lines.filterMap fun line =>
    match loads (dataText line) with
    | .ok event => some (.ok event)
    | .error .decode => none
    | .error (.other text) => some (.error text)

/-- The reading stops there. -/
def stopsReading : Except String PyVal → Bool
  | .ok event => endsReading event
  | .error _ => true

/-- The events before the first that stops the reading. -/
def readEvents (events : List (Except String PyVal)) : List (Except String PyVal) :=
  events.takeWhile fun event => !stopsReading event

/-- No exception stops the reading. -/
def Decodable (events : List (Except String PyVal)) : Prop :=
  ∀ text, events.find? stopsReading ≠ some (.error text)

/-- The reading has an outcome of its own: it ends with a JSON-RPC error, or at the end of the
stream after a result. -/
def HasOutcome (events : List (Except String PyVal)) : Prop :=
  match events.find? stopsReading with
  | some (.ok event) => isRpcError event = true
  | some (.error _) => False
  | none => ∃ event, .ok event ∈ events ∧ hasResult event = true

/-- No event that is read is `null`, or without `null` too the answer is malformed. -/
def NullHarmless (events : List (Except String PyVal)) : Prop :=
  .ok .none ∉ readEvents events ∨ ¬HasOutcome events

/-! ### What both decoders read -/

/-- What the event that ends the reading comes to. -/
def endingOutcome : PyVal → MCPTransportRequestOutcome
  | .dict data =>
    if PyDict.has data "error" then protocolErrorOutcome (PyDict.get data "error")
    else .malformedResponse
  | _ => .malformedResponse

/-- The result in an event. -/
def resultOf : PyVal → Option PyVal
  | .dict data => if PyDict.has data "result" then some (PyDict.get data "result") else none
  | _ => none

/-- The first result in the events. -/
def firstResult (events : List (Except String PyVal)) : Option PyVal :=
  events.findSome? fun event => event.toOption.bind resultOf

/-- The outcome of a stream without `null`, where `result` has been read before. -/
def streamOutcome (result : Option PyVal) (events : List (Except String PyVal)) :
    Except String MCPTransportRequestOutcome :=
  match events.find? stopsReading with
  | some (.ok event) => .ok (endingOutcome event)
  | some (.error text) => .error text
  | none => .ok (successOutcome (result.or (firstResult events)))

section Decoders

variable {loads : JsonLoads} {line : String} {lines : List String} {result : Option PyVal}
  {event : PyVal} {events : List (Except String PyVal)} {text : String}

lemma streamOutcome_of_ends (h : endsReading event = true) :
    streamOutcome result (.ok event :: events) = .ok (endingOutcome event) := by
  have hstops : stopsReading (.ok event) = true := h
  rw [streamOutcome, List.find?_cons_of_pos hstops]

lemma streamOutcome_error : streamOutcome result (.error text :: events) = .error text := by
  have hstops : stopsReading (.error text) = true := rfl
  rw [streamOutcome, List.find?_cons_of_pos hstops]

/-- An event that does not end the reading leaves its result, if it is the first. -/
lemma streamOutcome_of_not_ends (h : endsReading event = false) :
    streamOutcome result (.ok event :: events) =
      streamOutcome (result.or (resultOf event)) events := by
  have hgoes : ¬stopsReading (.ok event) = true := by simp [stopsReading, h]
  have hfirst : result.or (firstResult (.ok event :: events)) =
      (result.or (resultOf event)).or (firstResult events) := by
    rw [firstResult, List.findSome?_cons, Option.or_assoc]
    cases hresult : resultOf event with
    | none => simp [hresult, Except.toOption, firstResult]
    | some value => simp [hresult, Except.toOption]
  rw [streamOutcome, List.find?_cons_of_neg hgoes, hfirst, streamOutcome]

/-- What an event that is read does to the loop of the SSE transport. -/
lemma readSseLines_event {outcome : Option MCPTransportRequestOutcome}
    {rest : List (Except String String)} (hdata : startsWith line "data: " = true)
    (hevent : loads (dataText line) = .ok event) :
    readSseLines loads outcome (.ok line :: rest) =
      if endsReading event = true then .ok (some (endingOutcome event))
      else readSseLines loads (outcome.or
        ((resultOf event).map fun value => .answered (freezeValue value))) rest := by
  have hdecode : decodeSseEvent loads line = .ok event := by
    rw [decodeSseEvent, if_pos hdata, hevent]
  rw [readSseLines, if_pos hdata, hdecode]
  cases event with
  | dict data =>
    by_cases herror : PyDict.has data "error" = true
    · have hends : endsReading (.dict data) = true := by simp [endsReading, herror]
      simp only [herror, hends, if_true, endingOutcome]
      cases PyDict.get data "error" <;> rfl
    · by_cases hresult : PyDict.has data "result" = true
      · simp only [herror, hresult, if_true, endingOutcome, resultOf, endsReading, Bool.true_and]
        cases PyDict.get data "result" with
        | dict value => cases outcome <;> simp [decodeSseToolResultEnvelope,
            MCPTransportRequestOutcome.answered]
        | _ => simp [decodeSseToolResultEnvelope, MCPTransportRequestOutcome.malformedResponse]
      · simp [herror, hresult, resultOf, endsReading]
  | none => simp [endsReading, resultOf]
  | _ => rfl

lemma readSseLines_skip {outcome : Option MCPTransportRequestOutcome}
    {rest : List (Except String String)} (hevent : loads (dataText line) = .error .decode) :
    readSseLines loads outcome (.ok line :: rest) = readSseLines loads outcome rest := by
  have hdecode : decodeSseEvent loads line = .ok .none := by
    rw [decodeSseEvent, hevent]
    exact ite_self _
  rw [readSseLines, hdecode]
  exact ite_self _

lemma readSseLines_raises {outcome : Option MCPTransportRequestOutcome}
    {rest : List (Except String String)} (hdata : startsWith line "data: " = true)
    (hevent : loads (dataText line) = .error (.other text)) :
    readSseLines loads outcome (.ok line :: rest) = .error text := by
  have hdecode : decodeSseEvent loads line = .error text := by
    rw [decodeSseEvent, if_pos hdata, hevent]
  rw [readSseLines, if_pos hdata, hdecode]

lemma eventsOf_cons_decode (hevent : loads (dataText line) = .error .decode) :
    eventsOf loads (line :: lines) = eventsOf loads lines :=
  List.filterMap_cons_none (by rw [hevent])

lemma eventsOf_cons_ok (hevent : loads (dataText line) = .ok event) :
    eventsOf loads (line :: lines) = .ok event :: eventsOf loads lines :=
  List.filterMap_cons_some (by rw [hevent])

lemma eventsOf_cons_other (hevent : loads (dataText line) = .error (.other text)) :
    eventsOf loads (line :: lines) = .error text :: eventsOf loads lines :=
  List.filterMap_cons_some (by rw [hevent])

/-- The SSE transport passes over `null`. -/
lemma readSseLines_eq (hlines : ∀ line ∈ lines, startsWith line "data: " = true) :
    (readSseLines loads (result.map fun value => .answered (freezeValue value))
        (lines.map .ok)).map (·.getD .malformedResponse) =
      streamOutcome result (eventsOf loads lines) := by
  induction lines generalizing result with
  | nil =>
    show Except.ok _ = Except.ok (successOutcome (result.or none))
    cases result <;> rfl
  | cons line lines ih =>
    obtain ⟨hdata, hlines⟩ := List.forall_mem_cons.mp hlines
    rw [List.map_cons]
    match hevent : loads (dataText line) with
    | .error .decode =>
      rw [readSseLines_skip hevent, eventsOf_cons_decode hevent]
      exact ih hlines
    | .error (.other text) =>
      rw [readSseLines_raises hdata hevent, eventsOf_cons_other hevent, streamOutcome_error]
      rfl
    | .ok event =>
      rw [readSseLines_event hdata hevent, eventsOf_cons_ok hevent]
      by_cases hends : endsReading event = true
      · rw [if_pos hends, streamOutcome_of_ends hends]
        rfl
      · rw [if_neg hends, streamOutcome_of_not_ends (by simpa using hends), ← ih hlines]
        cases result <;> rfl

/-- What an event that is read does to the loop of the HTTP transport. -/
lemma parseEventLines_event {rest : List (Except String String)}
    (hdata : startsWith line "data: " = true) (hevent : loads (dataText line) = .ok event)
    (hnull : event ≠ .none) :
    parseEventLines loads result (.ok line :: rest) =
      if endsReading event = true then .ok (endingOutcome event)
      else parseEventLines loads (result.or (resultOf event)) rest := by
  have htext : (eventText line).map loads = some (.ok event) := by
    rw [eventText, if_pos hdata]
    exact congrArg some hevent
  rw [parseEventLines, htext]
  cases event with
  | dict data =>
    by_cases herror : PyDict.has data "error" = true
    · simp [herror, endsReading, endingOutcome]
    · by_cases hresult : PyDict.has data "result" = true
      · simp only [herror, hresult, if_true, endingOutcome, resultOf, endsReading, Bool.true_and]
        cases PyDict.get data "result" with
        | dict value => cases result <;> simp
        | _ => simp
      · simp [herror, hresult, resultOf, endsReading]
  | none => exact absurd rfl hnull
  | _ => rfl

lemma parseEventLines_skip {rest : List (Except String String)}
    (hdata : startsWith line "data: " = true) (hevent : loads (dataText line) = .error .decode) :
    parseEventLines loads result (.ok line :: rest) = parseEventLines loads result rest := by
  have htext : (eventText line).map loads = some (.error .decode) := by
    rw [eventText, if_pos hdata]
    exact congrArg some hevent
  rw [parseEventLines, htext]

lemma parseEventLines_raises {rest : List (Except String String)}
    (hdata : startsWith line "data: " = true)
    (hevent : loads (dataText line) = .error (.other text)) :
    parseEventLines loads result (.ok line :: rest) = .error text := by
  have htext : (eventText line).map loads = some (.error (.other text)) := by
    rw [eventText, if_pos hdata]
    exact congrArg some hevent
  rw [parseEventLines, htext]

lemma parseEventLines_null {rest : List (Except String String)}
    (hdata : startsWith line "data: " = true) (hevent : loads (dataText line) = .ok .none) :
    parseEventLines loads result (.ok line :: rest) = .ok .malformedResponse := by
  have htext : (eventText line).map loads = some (.ok .none) := by
    rw [eventText, if_pos hdata]
    exact congrArg some hevent
  rw [parseEventLines, htext]

/-- The HTTP transport takes `null` for a malformed answer, where it reads one. -/
lemma parseEventLines_eq (hlines : ∀ line ∈ lines, startsWith line "data: " = true) :
    (.ok .none ∈ readEvents (eventsOf loads lines) →
        parseEventLines loads result (lines.map .ok) = .ok .malformedResponse) ∧
      (.ok .none ∉ readEvents (eventsOf loads lines) →
        parseEventLines loads result (lines.map .ok) =
          streamOutcome result (eventsOf loads lines)) := by
  induction lines generalizing result with
  | nil =>
    refine ⟨nofun, fun _ => ?_⟩
    show _ = Except.ok (successOutcome (result.or none))
    rw [Option.or_none]
    rfl
  | cons line lines ih =>
    obtain ⟨hdata, hlines⟩ := List.forall_mem_cons.mp hlines
    rw [List.map_cons]
    match hevent : loads (dataText line) with
    | .error .decode =>
      rw [parseEventLines_skip hdata hevent, eventsOf_cons_decode hevent]
      exact ih hlines
    | .error (.other text) =>
      rw [parseEventLines_raises hdata hevent, eventsOf_cons_other hevent, streamOutcome_error,
        readEvents, List.takeWhile_cons_of_neg (by simp [stopsReading])]
      exact ⟨nofun, fun _ => rfl⟩
    | .ok event =>
      rw [eventsOf_cons_ok hevent, readEvents]
      by_cases hnull : event = .none
      · subst hnull
        rw [parseEventLines_null hdata hevent, List.takeWhile_cons_of_pos rfl]
        exact ⟨fun _ => rfl, fun h => absurd List.mem_cons_self h⟩
      · rw [parseEventLines_event hdata hevent hnull]
        by_cases hends : endsReading event = true
        · rw [if_pos hends, List.takeWhile_cons_of_neg (by simp [stopsReading, hends]),
            streamOutcome_of_ends hends]
          exact ⟨nofun, fun _ => rfl⟩
        · rw [if_neg hends, List.takeWhile_cons_of_pos (by simp [stopsReading, hends]),
            streamOutcome_of_not_ends (by simpa using hends), List.mem_cons,
            or_iff_right (by simpa using Ne.symm hnull)]
          exact ih hlines

/-! ### When the answer is malformed -/

lemma protocolErrorOutcome_eq_malformed_iff {error : PyVal} :
    protocolErrorOutcome error = .malformedResponse ↔ ∀ entries, error ≠ .dict entries := by
  cases error <;> simp [protocolErrorOutcome, MCPTransportRequestOutcome.jsonRpcError,
    MCPTransportRequestOutcome.malformedResponse]

lemma successOutcome_eq_malformed_iff : successOutcome result = .malformedResponse ↔
    result = none := by
  cases result <;> simp [successOutcome, MCPTransportRequestOutcome.answered,
    MCPTransportRequestOutcome.malformedResponse]

lemma endingOutcome_eq_malformed_iff :
    endingOutcome event = .malformedResponse ↔ ¬isRpcError event = true := by
  cases event with
  | dict data =>
    by_cases herror : PyDict.has data "error" = true
    · simp only [endingOutcome, herror, if_true, protocolErrorOutcome_eq_malformed_iff, isRpcError,
        Bool.true_and]
      cases PyDict.get data "error" <;> simp
    · simp [endingOutcome, herror, isRpcError]
  | _ => simp [endingOutcome, isRpcError]

lemma isSome_resultOf : (resultOf event).isSome = hasResult event := by
  cases event with
  | dict data =>
    rw [resultOf, hasResult]
    cases PyDict.has data "result" <;> rfl
  | _ => rfl

/-- Where no exception stops the reading, the outcome is malformed just if the stream has none. -/
lemma streamOutcome_eq_malformed_iff (h : Decodable events) :
    ∃ outcome, streamOutcome none events = .ok outcome ∧
      (outcome = .malformedResponse ↔ ¬HasOutcome events) := by
  unfold Decodable at h
  unfold streamOutcome HasOutcome
  match hfind : events.find? stopsReading with
  | some (.ok event) => exact ⟨_, rfl, endingOutcome_eq_malformed_iff⟩
  | some (.error text) => exact absurd hfind (h text)
  | none =>
    refine ⟨_, rfl, ?_⟩
    simp only [Option.none_or, successOutcome_eq_malformed_iff, firstResult,
      List.findSome?_eq_none_iff, ← isSome_resultOf, not_exists, not_and,
      Option.not_isSome_iff_eq_none]
    constructor
    · exact fun hnone event hevent => hnone (.ok event) hevent
    · rintro hnone (text | event) hevent
      · rfl
      · exact hnone event hevent

end Decoders

/-- The JSON text of a result. -/
def resultText : String := "\x7b\"result\": \x7b\"content\": []\x7d\x7d"

/-- `json.loads` on `null`, on that text and on texts that are not JSON. -/
def exampleLoads : JsonLoads := fun text =>
  if text = "null" then .ok .none
  else if text = resultText then .ok (.dict [("result", .dict [("content", .list [])])])
  else .error .decode

/-- An event stream of data lines. -/
def eventStream (texts : List String) : HttpResponse :=
  { statusCode := 200, contentType := "text/event-stream"
    lines := (texts.map fun text => "data: " ++ text).map .ok }

end Trion.Mcp
