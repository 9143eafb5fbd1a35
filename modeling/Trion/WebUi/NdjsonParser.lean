import Trion.Library.Utf8Decoder

/-!
# Event lines of a chat stream

`parseNDJSONStream`: the bytes of a response come in chunks, are decoded and split into lines, and
each line that is JSON is an event.  `JSON.parse` is a parameter.
-/

namespace Trion.WebUi

open Utf8 Streaming

/-! ### The parser -/

/-- What `String.prototype.trim` takes off. -/
def isJsSpace (c : Char) : Bool :=
  let n := c.toNat
  n == 0x09 || n == 0x0A || n == 0x0B || n == 0x0C || n == 0x0D || n == 0x20 || n == 0xA0 ||
    n == 0x1680 || (0x2000 ≤ n && n ≤ 0x200A) || n == 0x2028 || n == 0x2029 || n == 0x202F ||
    n == 0x205F || n == 0x3000 || n == 0xFEFF

section Parser

variable {ε : Type} (parse : List Char → Option ε)

/-- The event of a line.  A blank one is passed over, as is one that is not JSON. -/
def lineEvent (line : List Char) : Option ε := if line.all isJsSpace then none else parse line

/-- The loop of `parseNDJSONStream` between two chunks, with what has been yielded. -/
structure ParserState (ε : Type) where
  decoder : TextDecoder
  buffer : List Char
  events : List ε

/-- The loop before the first chunk. -/
def ParserState.start : ParserState ε := ⟨.start, [], []⟩

/-- A chunk. -/
def readChunk (s : ParserState ε) (value : List UInt8) : ParserState ε :=
  let decoded := s.decoder.decode value
  let lines := (s.buffer ++ decoded.2).splitOn '\n'
  { decoder := decoded.1
    buffer := lines.getLastD []
    events := s.events ++ lines.dropLast.filterMap (lineEvent parse) }

/-- `parseNDJSONStream`: the events that are yielded for the chunks of a body. -/
def parseNDJSONStream : Option (List (List UInt8)) → Except String (List ε)
  | none => .error "No response body available for streaming"
  | some chunks =>
    let s := chunks.foldl (readChunk parse) .start
    .ok (s.events ++ (lineEvent parse s.buffer).toList)

end Parser

/-! ### Lines -/

/-- Lines with or without a newline at the end. -/
def joinLines (lines : List (List Char)) (finalNewline : Bool) : List Char :=
  ['\n'].intercalate lines ++ if finalNewline then ['\n'] else []

/-- The bytes of a text. -/
def utf8Bytes (text : List Char) : List UInt8 := text.flatMap String.utf8EncodeChar

/-- The lines without a byte order mark before the first. -/
def unmarked : List (List Char) → List (List Char)
  | [] => []
  | line :: lines => withoutMark line :: lines

section Events

variable {ε : Type} {parse : List Char → Option ε} {bytes value : List UInt8}
  {lines : List (List Char)} {s : ParserState ε}

/-- What the loop has after some bytes: the pieces of their text, of which the last one waits. -/
structure HasRead (parse : List Char → Option ε) (bytes : List UInt8) (s : ParserState ε) :
    Prop where
  decoder : s.decoder = (TextDecoder.start.decode bytes).1
  buffer : s.buffer = ((TextDecoder.start.decode bytes).2.splitOn '\n').getLastD []
  events : s.events =
    ((TextDecoder.start.decode bytes).2.splitOn '\n').dropLast.filterMap (lineEvent parse)

lemma hasRead_start : HasRead parse [] (.start : ParserState ε) where
  decoder := rfl
  buffer := by simp [ParserState.start]
  events := by simp [ParserState.start]

/-- A chunk goes on from where the bytes before it ended. -/
lemma HasRead.readChunk (h : HasRead parse bytes s) (value : List UInt8) :
    HasRead parse (bytes ++ value) (readChunk parse s value) := by
  have hdecode := TextDecoder.decode_append .start bytes value
  rw [← h.decoder] at hdecode
  have hsplit := splitOn_append (d := '\n') (TextDecoder.start.decode bytes).2
    (s.decoder.decode value).2
  rw [← h.buffer] at hsplit
  have hne : (s.buffer ++ (s.decoder.decode value).2).splitOn '\n' ≠ [] :=
    List.splitOn_ne_nil _ _
  refine ⟨?_, ?_, ?_⟩
  · rw [hdecode]
    rfl
  · rw [hdecode, hsplit, getLastD_append _ hne]
    rfl
  · rw [hdecode, hsplit, List.dropLast_append_of_ne_nil hne, List.filterMap_append, ← h.events]
    rfl

/-- All chunks. -/
lemma hasRead_chunks (chunks : List (List UInt8)) (h : HasRead parse bytes s) :
    HasRead parse (bytes ++ chunks.flatten) (chunks.foldl (WebUi.readChunk parse) s) := by
  induction chunks generalizing bytes s with
  | nil => simpa using h
  | cons chunk chunks ih =>
    rw [List.flatten_cons, ← List.append_assoc]
    exact ih (h.readChunk chunk)

/-- The events are those of the pieces of the text, whatever the bytes and however they are cut. -/
lemma parseNDJSONStream_eq (chunks : List (List UInt8)) :
    parseNDJSONStream parse (some chunks) =
      .ok (((TextDecoder.start.decode chunks.flatten).2.splitOn '\n').filterMap
        (lineEvent parse)) := by
  have h : HasRead parse chunks.flatten (chunks.foldl (WebUi.readChunk parse) .start) :=
    hasRead_chunks chunks hasRead_start
  have hpieces := splitOn_eq_dropLast_append (d := '\n')
    (TextDecoder.start.decode chunks.flatten).2
  rw [parseNDJSONStream, h.events, h.buffer]
  conv_rhs => rw [hpieces, List.filterMap_append]
  congr 2

/-- A newline at the end adds a blank line, and no lines are one blank line. -/
lemma filterMap_splitOn_joinLines (hlines : ∀ line ∈ lines, '\n' ∉ line) (finalNewline : Bool) :
    ((joinLines lines finalNewline).splitOn '\n').filterMap (lineEvent parse) =
      lines.filterMap (lineEvent parse) := by
  have hblank : [[]].filterMap (lineEvent parse) = [] := rfl
  have hjoined : ((['\n'].intercalate lines).splitOn '\n').filterMap (lineEvent parse) =
      lines.filterMap (lineEvent parse) := by
    cases lines with
    | nil => rfl
    | cons line lines => rw [List.splitOn_intercalate '\n' hlines (List.cons_ne_nil line lines)]
  cases finalNewline with
  | false => rw [joinLines, if_neg Bool.false_ne_true, List.append_nil, hjoined]
  | true =>
    rw [joinLines, if_pos rfl, List.splitOn_append_cons_self, List.filterMap_append, hjoined,
      List.splitOn_nil, hblank, List.append_nil]

lemma joinLines_cons_cons (c : Char) (cs : List Char) (finalNewline : Bool) :
    joinLines ((c :: cs) :: lines) finalNewline = c :: joinLines (cs :: lines) finalNewline := by
  cases lines <;> simp [joinLines]

/-- A byte order mark before a text of lines is one before its first line. -/
lemma withoutMark_joinLines (lines : List (List Char)) (finalNewline : Bool) :
    withoutMark (joinLines lines finalNewline) = joinLines (unmarked lines) finalNewline := by
  have hnewline : '\n' ≠ bom := by decide
  cases lines with
  | nil => cases finalNewline <;> rfl
  | cons line lines =>
    cases line with
    | nil =>
      -- The text is empty or begins with a newline.
      cases lines <;> cases finalNewline <;>
        simp [joinLines, unmarked, withoutMark, hnewline]
    | cons c cs =>
      rw [joinLines_cons_cons, withoutMark, unmarked, withoutMark]
      split
      · rfl
      · rw [joinLines_cons_cons]

lemma notMem_of_mem_unmarked (hlines : ∀ line ∈ lines, '\n' ∉ line) :
    ∀ line ∈ unmarked lines, '\n' ∉ line := by
  cases lines with
  | nil => exact hlines
  | cons line lines =>
    intro line' hmem
    rcases List.mem_cons.mp hmem with rfl | hmem
    · exact fun hc => hlines line List.mem_cons_self (mem_of_mem_withoutMark hc)
    · exact hlines line' (List.mem_cons_of_mem _ hmem)

end Events

/-- However the bytes of event lines are cut into chunks, the parser yields the events of the lines
that are JSON, in order. -/
theorem parseNDJSONStream_of_lines {ε : Type} (parse : List Char → Option ε)
    {lines : List (List Char)} (hlines : ∀ line ∈ lines, '\n' ∉ line) (finalNewline : Bool)
    {chunks : List (List UInt8)}
    (hchunks : chunks.flatten = utf8Bytes (joinLines lines finalNewline)) :
    parseNDJSONStream parse (some chunks) =
      .ok ((unmarked lines).filterMap (lineEvent parse)) := by
  rw [parseNDJSONStream_eq, hchunks, utf8Bytes, TextDecoder.decode_start_encode,
    withoutMark_joinLines, filterMap_splitOn_joinLines (notMem_of_mem_unmarked hlines)]

/-- `JSON.parse` on the lines of the example. -/
def parseLetter (line : List Char) : Option String :=
  if line = "\"ä\"".toList then some "ä" else none

/-- The second chunk begins in the middle of a character. -/
theorem parseNDJSONStream_of_letter :
    parseNDJSONStream parseLetter
        (some [[0x22, 0xC3], [0xA4, 0x22, 0x0A, 0x0A], [0x78, 0x0A]]) =
      .ok ((unmarked ["\"ä\"".toList, [], ['x']]).filterMap (lineEvent parseLetter)) :=
  parseNDJSONStream_of_lines parseLetter (by decide) true (by decide +kernel)

end Trion.WebUi
