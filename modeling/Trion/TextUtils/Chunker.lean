import Trion.TextUtils.Boundaries

/-!
# The text chunker

A text whose tokens exceed a limit is cut into chunks.  A chunk ends at the best boundary within
the limit, and the next one starts at a boundary in the overlap before that end.  With code
protection the text is first cut at the matches of the pattern for code blocks.
-/

namespace Trion.TextUtils

open Trion.Python Patterns

/-- `text[start:stop]`. -/
def pySlice (text : List Char) (start stop : ℤ) : List Char :=
  let place (i : ℤ) : ℕ := (if i < 0 then max 0 (i + text.length) else i).toNat
  (text.take (place stop)).drop (place start)

/-- `text[i:i+1].isspace()`. -/
def isSpaceAt (text : List Char) (i : ℤ) : Bool :=
  match pySlice text i (i + 1) with
  | [c] => isSpace c
  | _ => false

/-- `TextChunk`. -/
structure TextChunk where
  index : ℕ
  content : List Char
  tokens : ℤ
  startChar : ℤ
  endChar : ℤ
  chunkType : ChunkType := .text
  hasOverlapBefore : Bool := false
  hasOverlapAfter : Bool := false
deriving DecidableEq, Repr

/-- `Chunker`. -/
structure Chunker where
  maxTokens : ℤ
  overlapTokens : ℤ
  respectCodeBlocks : Bool := true
  useTiktoken : Bool := true

variable (rt : ChunkerRuntime) (self : Chunker)

/-- `count_tokens`. -/
def countTokens (useTiktoken : Bool) (text : List Char) : ℤ :=
  if text = [] then 0
  else match useTiktoken, rt.encode with
    | true, some encode => encode (String.ofList text)
    | _, _ => rt.tokensOfLength text.length

/-- `Chunker.count`. -/
def Chunker.count (text : List Char) : ℤ := countTokens rt self.useTiktoken text

/-! ### The end of a chunk -/

/-- The loop that looks for white space before the hard end. -/
def cutAtSpace (text : List Char) (bound : ℤ) : ℕ → ℤ → ℤ
  | 0, cutPoint => cutPoint
  | turns + 1, cutPoint =>
    if bound < cutPoint then
      if isSpaceAt text cutPoint then cutPoint else cutAtSpace text bound turns (cutPoint - 1)
    else cutPoint

/-- `_find_chunk_end`. -/
def Chunker.findChunkEnd (text : List Char) (start : ℤ) (boundaries : List Boundary) : ℤ :=
  let maxChars := rt.charsOfTokens self.maxTokens
  let hardEnd := min (start + maxChars) text.length
  let relevant := boundaries.filter fun b => start < b.position && (b.position : ℤ) < hardEnd
  if relevant = [] then
    let bound := start + maxChars / 2
    let cutPoint := cutAtSpace text bound (hardEnd - bound).toNat hardEnd
    if start < cutPoint then cutPoint else hardEnd
  else
    let sorted := relevant.insertionSort fun a b =>
      b.priority < a.priority ∨ a.priority = b.priority ∧ b.position ≤ a.position
    match sorted.find? fun b =>
        self.count rt (pySlice text start b.position) ≤ self.maxTokens with
    | some b => b.position
    | none => (sorted.getLast?.map fun b => (b.position : ℤ)).getD hardEnd

/-! ### The start of the next chunk -/

/-- The loop that looks for white space in the overlap. -/
def startAtSpace (text : List Char) (stop : ℤ) : ℕ → ℤ → ℤ
  | 0, _ => stop
  | turns + 1, overlapStart =>
    if isSpaceAt text overlapStart then overlapStart + 1
    else startAtSpace text stop turns (overlapStart + 1)

/-- Where the overlap before the end of a chunk begins. -/
def Chunker.windowStart (stop : ℤ) : ℤ := max 0 (stop - rt.charsOfTokens self.overlapTokens)

/-- `_find_overlap_start`. -/
def Chunker.findOverlapStart (text : List Char) (stop : ℤ) : ℤ :=
  if self.overlapTokens = 0 ∨ (text.length : ℤ) ≤ stop then stop
  else
    let overlapStart := self.windowStart rt stop
    match findBoundaries (pySlice text overlapStart stop) with
    | b :: _ => b.position + overlapStart
    | [] => startAtSpace text stop (stop - overlapStart).toNat overlapStart

/-! ### Semantic chunks -/

/-- The chunk from a start to an end. -/
def Chunker.chunkAt (text : List Char) (chunkIndex : ℕ) (start stop : ℤ) : TextChunk :=
  let content := pySlice text start stop
  { index := chunkIndex, content, tokens := self.count rt content, startChar := start,
    endChar := stop, chunkType := detectChunkType rt content, hasOverlapBefore := 1 < chunkIndex,
    hasOverlapAfter := stop < text.length }

/-- The loop of `_chunk_semantic`, for so many turns; `none` where it has not ended by then. -/
def Chunker.semanticLoop (text : List Char) (boundaries : List Boundary) :
    ℕ → ℤ → ℕ → List TextChunk → Option (List TextChunk)
  | 0, _, _, _ => none
  | turns + 1, currentStart, chunkIndex, chunks =>
    if currentStart < text.length then
      let targetEnd := self.findChunkEnd rt text currentStart boundaries
      let chunks := chunks ++ [self.chunkAt rt text chunkIndex currentStart targetEnd]
      let currentStart := self.findOverlapStart rt text targetEnd
      if (text.length : ℤ) - 10 ≤ currentStart then some chunks
      else Chunker.semanticLoop text boundaries turns currentStart (chunkIndex + 1) chunks
    else some chunks

/-- `_chunk_semantic`, with so many turns for its loop. -/
def Chunker.chunkSemantic (turns : ℕ) (text : List Char) : Option (List TextChunk) :=
  self.semanticLoop rt text (findBoundaries text) turns 0 1 []

/-! ### Code protection -/

/-- `"\n".join(lines)`. -/
def joinLines (lines : List (List Char)) : List Char := ['\n'].intercalate lines

/-- The local variables of `_split_code_block`. -/
structure CodeSplit where
  chunks : List TextChunk := []
  currentLines : List (List Char) := []
  currentTokens : ℤ := 0
  localOffset : ℕ := 0

/-- The chunk of the lines that have been gathered. -/
def CodeSplit.chunk (s : CodeSplit) (charOffset startIndex : ℕ) : TextChunk :=
  let content := joinLines s.currentLines
  { index := startIndex + s.chunks.length, content, tokens := s.currentTokens,
    startChar := charOffset + s.localOffset, endChar := charOffset + s.localOffset + content.length,
    chunkType := .code }

/-- A turn of the loop of `_split_code_block`. -/
def Chunker.splitLine (charOffset startIndex : ℕ) (s : CodeSplit) (line : List Char) : CodeSplit :=
  let lineTokens := self.count rt (line ++ ['\n'])
  if self.maxTokens < s.currentTokens + lineTokens ∧ s.currentLines ≠ [] then
    { chunks := s.chunks ++ [s.chunk charOffset startIndex],
      currentLines := [line], currentTokens := lineTokens,
      localOffset := s.localOffset + (joinLines s.currentLines).length + 1 }
  else
    { s with currentLines := s.currentLines ++ [line],
             currentTokens := s.currentTokens + lineTokens }

/-- `_split_code_block`. -/
def Chunker.splitCodeBlock (code : List Char) (charOffset startIndex : ℕ) : List TextChunk :=
  let s := (code.splitOn '\n').foldl (self.splitLine rt charOffset startIndex) {}
  if s.currentLines = [] then s.chunks else s.chunks ++ [s.chunk charOffset startIndex]

/-- A segment of a text. -/
structure Segment where
  isCode : Bool
  content : List Char

/-- The segments between and in the code blocks, from the end of the last one on. -/
def segmentsFrom (text : List Char) (lastEnd : ℕ) : List Match → List Segment
  | [] => if lastEnd < text.length then [⟨false, text.drop lastEnd⟩] else []
  | m :: ms =>
    (if lastEnd < m.start then [⟨false, (text.take m.start).drop lastEnd⟩] else []) ++
      ⟨true, (text.take m.stop).drop m.start⟩ :: segmentsFrom text m.stop ms

/-- The chunks of a segment.  Code within one and a half times the limit stays whole. -/
def Chunker.segmentChunks (turns : ℕ) (segment : Segment) (chunkIndex charOffset : ℕ) :
    Option (List TextChunk) :=
  if segment.isCode then
    let codeTokens := self.count rt segment.content
    if 2 * codeTokens ≤ 3 * self.maxTokens then
      some [{ index := chunkIndex, content := segment.content, tokens := codeTokens,
              startChar := charOffset, endChar := charOffset + segment.content.length,
              chunkType := .code }]
    else some (self.splitCodeBlock rt segment.content charOffset chunkIndex)
  else
    (self.chunkSemantic rt turns segment.content).map fun textChunks =>
      textChunks.zipIdx.map fun (tc, i) =>
        { tc with index := chunkIndex + i, startChar := tc.startChar + charOffset,
                  endChar := tc.endChar + charOffset }

/-- The loop of `_chunk_with_code_protection` over the segments. -/
def Chunker.chunkSegments (turns : ℕ) :
    List Segment → ℕ → ℕ → List TextChunk → Option (List TextChunk)
  | [], _, _, chunks => some chunks
  | segment :: segments, chunkIndex, charOffset, chunks =>
    (self.segmentChunks rt turns segment chunkIndex charOffset).bind fun new =>
      Chunker.chunkSegments turns segments (chunkIndex + new.length)
        (charOffset + segment.content.length) (chunks ++ new)

/-- `_chunk_with_code_protection`, with so many turns for each of its loops. -/
def Chunker.chunkWithCodeProtection (turns : ℕ) (text : List Char) : Option (List TextChunk) :=
  let codeBlocks := findIter codeBlock text
  if codeBlocks = [] then self.chunkSemantic rt turns text
  else
    (self.chunkSegments rt turns (segmentsFrom text 0 codeBlocks) 1 0 []).map fun chunks =>
      chunks.zipIdx.map fun (chunk, i) => { chunk with index := i + 1 }

/-- What `chunk` raises: the text of its log message divides by the limit. -/
inductive ChunkerError where
  | zeroDivision
deriving DecidableEq, Repr

/-- `Chunker.chunk`, with so many turns for each of its loops. -/
def Chunker.chunk (turns : ℕ) (text : List Char) : Option (Except ChunkerError (List TextChunk)) :=
  if text = [] then some (.ok [])
  else
    let totalTokens := self.count rt text
    if totalTokens ≤ self.maxTokens then
      some (.ok [{ index := 1, content := text, tokens := totalTokens, startChar := 0,
                   endChar := text.length, chunkType := detectChunkType rt text }])
    else if self.maxTokens = 0 then some (.error .zeroDivision)
    else if self.respectCodeBlocks then
      (self.chunkWithCodeProtection rt turns text).map .ok
    else (self.chunkSemantic rt turns text).map .ok

/-! ### What chunks cover -/

/-- Every character that is no white space lies in a chunk. -/
def Covers (text : List Char) (chunks : List TextChunk) : Prop :=
  ∀ (p : ℕ) (c : Char), text[p]? = some c → isSpace c = false →
    ∃ chunk ∈ chunks, chunk.startChar ≤ p ∧ (p : ℤ) < chunk.endChar

/-- A token for every three and a half characters, and no tokeniser. -/
def approximate : ChunkerRuntime where
  isDecimal c := c.isDigit
  encode := none
  tokensOfLength n := 2 * n / 7
  charsOfTokens n := 7 * n / 2

end Trion.TextUtils
