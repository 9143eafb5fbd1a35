import Trion.Python.Casing

/-!
# The reasoning filter

`StreamingReasoningSanitizer` takes the blocks between `<think>` and `</think>` out of a text
that arrives in chunks.  It looks for the tags in the lower case of what it has buffered and
cuts the buffer at the places found there, keeps back the end of the buffer that may be the
start of a tag, and has a `flush` for the end of the stream.
-/

namespace Trion.Llm

open Trion.Python Markers

/-! ### The source -/

/-- `_OPEN`. -/
def openTag : List Char := "<think>".toList

/-- `_CLOSE`. -/
def closeTag : List Char := "</think>".toList

/-- `StreamingReasoningSanitizer`. -/
structure StreamingReasoningSanitizer where
  buffer : List Char := []
  insideThink : Bool := false
deriving DecidableEq

section Source

variable (t : LowerCase)

/-- `_longest_marker_prefix_suffix`. -/
def longestMarkerPrefixSuffix (text marker : List Char) : ℕ :=
  greatest (fun size => ((t.lower marker).take size).isSuffixOf (t.lower text))
    (min (t.lower text).length ((t.lower marker).length - 1))

/-- `_split_safe_prefix`. -/
def splitSafePrefix (text marker : List Char) : List Char × List Char :=
  let keep := longestMarkerPrefixSuffix t text marker
  if keep = 0 then (text, []) else (text.take (text.length - keep), text.drop (text.length - keep))

/-- `_keep_possible_prefix`. -/
def keepPossiblePrefix (text marker : List Char) : List Char :=
  let keep := longestMarkerPrefixSuffix t text marker
  if 0 < keep then text.drop (text.length - keep) else []

/-- The loop of `feed`, with the pieces emitted so far.  A round that does not end it takes a tag
from the buffer, so the length of the buffer bounds the rounds. -/
def feedLoop : ℕ → StreamingReasoningSanitizer → List (List Char) →
    StreamingReasoningSanitizer × List (List Char)
  | 0, s, out => (s, out)
  | rounds + 1, s, out =>
    if s.buffer = [] then (s, out)
    else if s.insideThink then
      match findText closeTag (t.lower s.buffer) with
      | none => ({ s with buffer := keepPossiblePrefix t s.buffer closeTag }, out)
      | some closeIndex =>
        feedLoop rounds ⟨s.buffer.drop (closeIndex + closeTag.length), false⟩ out
    else
      match findText openTag (t.lower s.buffer) with
      | none =>
        let (emit, rest) := splitSafePrefix t s.buffer openTag
        ({ s with buffer := rest }, if emit = [] then out else out ++ [emit])
      | some openIndex =>
        feedLoop rounds ⟨s.buffer.drop (openIndex + openTag.length), true⟩
          (if 0 < openIndex then out ++ [s.buffer.take openIndex] else out)

/-- `feed`. -/
def feed (s : StreamingReasoningSanitizer) (chunk : List Char) :
    StreamingReasoningSanitizer × List (List Char) :=
  if chunk = [] then (s, [])
  else
    let buffer := s.buffer ++ chunk
    feedLoop t (buffer.length + 1) { s with buffer := buffer } []

/-- `flush`. -/
def flush (s : StreamingReasoningSanitizer) :
    StreamingReasoningSanitizer × List (List Char) :=
  if s.insideThink then ({ s with buffer := [] }, [])
  else
    let (emit, rest) := splitSafePrefix t s.buffer openTag
    ({ s with buffer := rest }, if emit = [] then [] else [emit])

/-- The pieces that are emitted over the chunks of a stream and its end. -/
def sanitizeStream : StreamingReasoningSanitizer → List (List Char) → List (List Char)
  | s, [] => (flush t s).2
  | s, chunk :: chunks => (feed t s chunk).2 ++ sanitizeStream (feed t s chunk).1 chunks

end Source

/-! ### What is promised -/

section Promise

variable (t : LowerCase)

/-- The text without its `<think>` blocks, in any letter case, and without what follows an
unclosed one. -/
def withoutReasoning (text : List Char) : List Char :=
  visible (t.anyCase openTag) (t.anyCase closeTag) .shown 0 text

/-- The pieces of the stream are the text without its blocks, however it is cut. -/
def FiltersAnyCut (text : List Char) : Prop :=
  ∀ chunks : List (List Char), chunks.flatten = text →
    (sanitizeStream t {} chunks).flatten = withoutReasoning t text

end Promise

end Trion.Llm
