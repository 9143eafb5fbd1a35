import Trion.Output.ExecutionGuard

/-!
# Streaming an answer

`complete_output` with and without a sink for the pieces of the answer.  With a sink the chunks
of the model are checked as they come: what may be the start of the tool marker is held back,
what has been put together is shown to the execution guard, and it is sent up to the place from
which on a claim may be in the making.
-/

namespace Trion.Output

open Trion.Python Markers

/-! ### The answer -/

/-- `TOOL_MARKUP_MARKER`. -/
def toolMarkupMarker : List Char := "[TOOL_CALL]".toList

/-- `TOOL_MARKUP_REJECTION`. -/
def toolMarkupRejection : List Char :=
  "Die Antwort enthielt unzulässiges Tool-Markup und wurde verworfen. ".toList ++
    "Bitte wiederhole die Anfrage.".toList

/-- `_HOLLOW_PREFIXES`. -/
def hollowPrefixes : List (List Char) :=
  ["Natürlich! ".toList, "Natürlich, ".toList, "Gerne! ".toList, "Gerne, ".toList,
   "Of course! ".toList, "Of course, ".toList, "Sure! ".toList, "Sure, ".toList,
   "Certainly! ".toList, "Certainly, ".toList]

/-- `_strip_hollow_prefix`. -/
def stripHollowPrefix (text : List Char) : Bool × List Char :=
  let leading := lstrip text
  match hollowPrefixes.find? (·.isPrefixOf leading) with
  | some hollow => (true, lstrip (leading.drop hollow.length))
  | none => (false, text)

/-- `_postcheck_full`. -/
def postcheckFull (content : List Char) : Bool × List Char := stripHollowPrefix (stripText content)

/-- `apply_tool_markup_guard`. -/
def applyToolMarkupGuard (content : List Char) : List Char :=
  if (findText toolMarkupMarker content).isSome then toolMarkupRejection else content

/-- `OutputResult`. -/
structure OutputResult where
  content : List Char
  truncated : Bool := false
  postcheckApplied : Bool := false
deriving DecidableEq

/-- `complete_output` without a sink, for what the model answers. -/
def completeOutput (content : List Char) : OutputResult :=
  { content := (postcheckFull content).2, postcheckApplied := (postcheckFull content).1 }

/-! ### The stream -/

/-- A piece that is sent, with the place of the answer from which it is taken. -/
structure SentPiece where
  start : ℕ
  text : List Char
deriving DecidableEq

/-- The variables of the loop: the joined chunks, what is held back, and what has been sent. -/
structure StreamState where
  content : List Char := []
  pending : List Char := []
  emittedLength : ℕ := 0
  postcheckApplied : Bool := false
  firstChunkSeen : Bool := false
  sent : List SentPiece := []

/-- How a stream ends: the guard rejects what has been put together, the marker is found or may
have begun, or the answer is complete. -/
inductive Outcome where
  | rejected (prospective : List Char)
  | blocked
  | answered (content : List Char) (postcheckApplied : Bool)
deriving DecidableEq

section Streaming

variable (t : TextTables) (request : OutputRequest)

/-- The result that is returned. -/
def Outcome.result : Outcome → OutputResult
  | .rejected prospective =>
    { content := applyExecutionConsistencyGuard t request prospective, postcheckApplied := true }
  | .blocked => { content := toolMarkupRejection, postcheckApplied := true }
  | .answered content postcheckApplied => { content, postcheckApplied }

/-- The place up to which the text is sent. -/
def emitEnd (prospective : List Char) : ℕ :=
  (executionClaimPendingStart t request prospective).getD prospective.length

/-- `chunk_sink` up to the place, unless it has been reached. -/
def emit (s : StreamState) : StreamState :=
  if s.emittedLength < emitEnd t request s.content then
    { s with
      emittedLength := emitEnd t request s.content
      sent := s.sent ++ [⟨s.emittedLength,
        (s.content.take (emitEnd t request s.content)).drop s.emittedLength⟩] }
  else s

/-- Text without markup is added to the answer, or the guard rejects it. -/
def addSafe (s : StreamState) (safeText : List Char) : StreamState × Option Outcome :=
  if safeText = [] then (s, none)
  else
    let prospective := s.content ++ safeText
    if applyExecutionConsistencyGuard t request prospective ≠ prospective then
      (s, some (.rejected prospective))
    else (emit t request { s with content := prospective }, none)

/-- The size of the longest end that may be the start of the marker. -/
def pendingSize (candidate : List Char) : ℕ :=
  greatest (fun size => (candidate.drop (candidate.length - size)).isPrefixOf toolMarkupMarker)
    (min candidate.length (toolMarkupMarker.length - 1))

/-- The body of the loop, for a text that is not empty. -/
def onText (s : StreamState) (text : List Char) : StreamState × Option Outcome :=
  let candidate := s.pending ++ text
  match findText toolMarkupMarker candidate with
  | some place =>
    match addSafe t request s (candidate.take place) with
    | (s, some outcome) => (s, some outcome)
    | (s, none) => ({ s with pending := [] }, some .blocked)
  | none =>
    let size := pendingSize candidate
    addSafe t request { s with pending := candidate.drop (candidate.length - size) }
      (candidate.take (candidate.length - size))

/-- One round of the loop. -/
def onChunk (s : StreamState) (chunk : List Char) : StreamState × Option Outcome :=
  if chunk = [] then (s, none)
  else if s.firstChunkSeen then onText t request s chunk
  else
    let (postcheckApplied, text) := stripHollowPrefix chunk
    let s := { s with firstChunkSeen := true, postcheckApplied }
    if text = [] then (s, none) else onText t request s text

/-- The end of the loop. -/
def finish (s : StreamState) : List SentPiece × Outcome :=
  if s.pending ≠ [] then (s.sent, .blocked)
  else
    (if s.emittedLength < s.content.length then
        s.sent ++ [⟨s.emittedLength, s.content.drop s.emittedLength⟩]
      else s.sent,
      .answered s.content s.postcheckApplied)

/-- `_stream_output`: what is sent, and how it ends. -/
def streamOutput : StreamState → List (List Char) → List SentPiece × Outcome
  | s, [] => finish s
  | s, chunk :: chunks =>
    match onChunk t request s chunk with
    | (s, some outcome) => (s.sent, outcome)
    | (s, none) => streamOutput s chunks

end Streaming

end Trion.Output
