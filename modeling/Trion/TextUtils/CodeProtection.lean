import Trion.TextUtils.Chunker

/-!
# Chunking with code protection

The pattern for code blocks is the empty pattern.  It matches at every place, and first at the
beginning, so that a text which is cut at all begins with an empty chunk for code.  Code
protection keeps what it promises for the texts alone that are not cut.
-/

namespace Trion.TextUtils

open Trion.Python Patterns

/-! ### What is promised -/

/-- A fenced code block: from a fence at the beginning of a line to the next fence. -/
def IsFencedBlock (text : List Char) (start stop : ℕ) : Prop :=
  ∃ before body after, text = before ++ "```".toList ++ body ++ "```".toList ++ after ∧
    (before = [] ∨ before.getLast? = some '\n') ∧ ¬ "```".toList <:+: body ∧
    start = before.length ∧ stop = before.length + 3 + body.length + 3

/-- What code protection promises of the chunks of a text. -/
structure KeepsCodeWhole (rt : ChunkerRuntime) (chunker : Chunker) (text : List Char)
    (chunks : List TextChunk) : Prop where
  nonempty : ∀ chunk ∈ chunks, chunk.content ≠ []
  covers : Covers text chunks
  inOrder : chunks.Pairwise fun chunk chunk' => chunk.startChar ≤ chunk'.startChar
  whole : ∀ start stop, IsFencedBlock text start stop →
    chunker.count rt ((text.take stop).drop start) ≤ chunker.maxTokens →
    ∃ chunk ∈ chunks, chunk.startChar ≤ start ∧ (stop : ℤ) ≤ chunk.endChar

variable {rt : ChunkerRuntime} {self : Chunker} {text : List Char} {turns : ℕ}
  {segments : List Segment} {chunkIndex charOffset : ℕ} {chunks result : List TextChunk}

/-! ### The first chunk -/

/-- What has been cut stays. -/
lemma prefix_of_chunkSegments
    (h : self.chunkSegments rt turns segments chunkIndex charOffset chunks = some result) :
    chunks <+: result := by
  induction segments generalizing chunkIndex charOffset chunks with
  | nil => exact Option.some.inj h ▸ List.prefix_refl _
  | cons segment segments ih =>
    unfold Chunker.chunkSegments at h
    obtain ⟨new, -, hrest⟩ := Option.bind_eq_some_iff.mp h
    exact (List.prefix_append chunks new).trans (ih hrest)

/-- No code gives one empty chunk, even where it is split. -/
lemma splitCodeBlock_nil (charOffset startIndex : ℕ) :
    ∃ chunk ∈ self.splitCodeBlock rt [] charOffset startIndex, chunk.content = [] := by
  have hline : self.splitLine rt charOffset startIndex {} [] =
      { currentLines := [[]], currentTokens := 0 + self.count rt (([] : List Char) ++ ['\n']) } := by
    unfold Chunker.splitLine
    rw [if_neg (fun h => h.2 rfl)]
    rfl
  unfold Chunker.splitCodeBlock
  have hlines : ([] : List Char).splitOn '\n' = [[]] := rfl
  dsimp only
  rw [hlines, List.foldl_cons, List.foldl_nil, hline, if_neg (List.cons_ne_nil _ _)]
  exact ⟨_, List.mem_append_right _ List.mem_cons_self, rfl⟩

/-- A text that is cut with code protection has an empty chunk. -/
lemma exists_empty_chunk (h : self.chunkWithCodeProtection rt turns text = some result) :
    ∃ chunk ∈ result, chunk.content = [] := by
  obtain ⟨rest, hblocks⟩ := findIter_nil text
  have hsegments : segmentsFrom text 0 (⟨0, []⟩ :: rest) =
      ⟨true, []⟩ :: segmentsFrom text 0 rest := rfl
  unfold Chunker.chunkWithCodeProtection codeBlock at h
  dsimp only at h
  rw [hblocks, if_neg (List.cons_ne_nil _ _), hsegments] at h
  obtain ⟨all, hall, rfl⟩ := Option.map_eq_some_iff.mp h
  unfold Chunker.chunkSegments at hall
  obtain ⟨new, hnew, hrest⟩ := Option.bind_eq_some_iff.mp hall
  -- the chunk for the empty match, whole or split
  obtain ⟨chunk, hmem, hempty⟩ : ∃ chunk ∈ new, chunk.content = [] := by
    unfold Chunker.segmentChunks at hnew
    rw [if_pos rfl] at hnew
    dsimp only at hnew
    split at hnew
    · obtain rfl := Option.some.inj hnew
      exact ⟨_, List.mem_cons_self, rfl⟩
    · obtain rfl := Option.some.inj hnew
      exact splitCodeBlock_nil 0 1
  have hkept : chunk ∈ all :=
    (prefix_of_chunkSegments hrest).subset (List.mem_append_right _ hmem)
  obtain ⟨i, hi⟩ := List.mem_iff_getElem?.mp hkept
  refine ⟨{ chunk with index := i + 1 }, List.mem_map.mpr ⟨(chunk, i), ?_, rfl⟩, hempty⟩
  exact List.mem_zipIdx_iff_getElem?.mpr hi

/-- A text that exceeds the limit is not chunked as promised. -/
lemma not_keepsCodeWhole (hrespect : self.respectCodeBlocks = true) (htext : text ≠ [])
    (hlong : self.maxTokens < self.count rt text)
    (hchunk : self.chunk rt turns text = some (.ok result)) :
    ¬ KeepsCodeWhole rt self text result := by
  intro hkeeps
  unfold Chunker.chunk at hchunk
  dsimp only at hchunk
  rw [if_neg htext, if_neg (by omega)] at hchunk
  by_cases hzero : self.maxTokens = 0
  · rw [if_pos hzero] at hchunk
    cases hchunk
  · rw [if_neg hzero, if_pos hrespect] at hchunk
    obtain ⟨chunks, hprotect, heq⟩ := Option.map_eq_some_iff.mp hchunk
    obtain rfl := Except.ok.inj heq
    obtain ⟨chunk, hmem, hempty⟩ := exists_empty_chunk hprotect
    exact hkeeps.nonempty chunk hmem hempty

/-- A text within the limit is one chunk. -/
lemma keepsCodeWhole_of_le (hshort : self.count rt text ≤ self.maxTokens) (htext : text ≠ []) :
    KeepsCodeWhole rt self text
      [{ index := 1, content := text, tokens := self.count rt text, startChar := 0,
         endChar := text.length, chunkType := detectChunkType rt text }] := by
  refine ⟨fun chunk hmem => ?_, fun p c hp _ => ?_, List.pairwise_singleton _ _,
    fun start stop hblock _ => ?_⟩
  · obtain rfl := List.mem_singleton.mp hmem
    exact htext
  · obtain ⟨hlt, -⟩ := List.getElem?_eq_some_iff.mp hp
    exact ⟨_, List.mem_cons_self, Int.natCast_nonneg p, Int.ofNat_lt.mpr hlt⟩
  · obtain ⟨before, body, after, rfl, -, -, rfl, rfl⟩ := hblock
    refine ⟨_, List.mem_cons_self, Int.natCast_nonneg _, Int.ofNat_le.mpr ?_⟩
    have hfence : "```".toList.length = 3 := rfl
    simp only [List.length_append, hfence]
    omega

/-- Code protection.  `chunk` returns chunks as it promises for the empty text and for the texts
within the limit, and for no other. -/
theorem chunk_keeps_code_iff (rt : ChunkerRuntime) (maxTokens overlapTokens : ℤ)
    (useTiktoken : Bool) (text : List Char) :
    (∃ chunks, (∃ enough, ∀ turns, enough ≤ turns →
        Chunker.chunk rt ⟨maxTokens, overlapTokens, true, useTiktoken⟩ turns text =
          some (.ok chunks)) ∧
      KeepsCodeWhole rt ⟨maxTokens, overlapTokens, true, useTiktoken⟩ text chunks) ↔
    text = [] ∨ countTokens rt useTiktoken text ≤ maxTokens := by
  constructor
  · rintro ⟨chunks, ⟨enough, hchunk⟩, hkeeps⟩
    by_contra hnot
    obtain ⟨htext, hlong⟩ := not_or.mp hnot
    refine not_keepsCodeWhole rfl htext ?_ (hchunk enough (Nat.le_refl _)) hkeeps
    exact not_le.mp hlong
  · intro hcases
    by_cases htext : text = []
    · subst htext
      refine ⟨[], ⟨0, fun turns _ => rfl⟩, ?_⟩
      refine ⟨by simp, fun p c hp => by simp at hp, .nil, ?_⟩
      rintro start stop ⟨before, body, after, heq, -⟩
      have hlength := congrArg List.length heq
      have hfence : "```".toList.length = 3 := rfl
      simp only [List.length_append, List.length_nil, hfence] at hlength
      omega
    · have hshort := hcases.resolve_left htext
      refine ⟨_, ⟨0, fun turns _ => ?_⟩, keepsCodeWhole_of_le hshort htext⟩
      unfold Chunker.chunk
      dsimp only
      rw [if_neg htext]
      exact if_pos hshort

/-- A fenced block of two tokens under a limit of one: the text begins with an empty chunk, and
every character of the block is a chunk of its own. -/
theorem empty_code_chunks :
    (Chunker.chunk approximate ⟨1, 0, true, true⟩ 5 "```\nab\n```".toList).map
        (Except.map fun chunks => (chunks.length, (chunks.take 3).map TextChunk.content)) =
      some (.ok (21, [[], ['`'], []])) ∧
    ∀ turns chunks,
      Chunker.chunk approximate ⟨1, 0, true, true⟩ turns "```\nab\n```".toList =
        some (.ok chunks) →
      ¬ KeepsCodeWhole approximate ⟨1, 0, true, true⟩ "```\nab\n```".toList chunks :=
  ⟨by decide +kernel,
    fun _ _ hchunk => not_keepsCodeWhole rfl (by decide) (by decide) hchunk⟩

end Trion.TextUtils
