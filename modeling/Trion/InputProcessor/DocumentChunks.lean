import Trion.Library.Windows
import Trion.Python.Text

/-!
# Chunks of a document

The words of a document are cut into chunks of at most a cap of words, which overlap in a given
number of words where that leaves room for progress.  The loop ends; its chunks are the sliding
windows over the words; and without the overlaps they are the words of the document.
-/

namespace Trion.InputProcessor

open Trion.Python Windows

/-- `DocumentChunk`. -/
structure DocumentChunk where
  index : ℕ
  content : String
  estimatedTokens : ℕ
deriving DecidableEq, Repr

/-- The numbers the configuration sets. -/
structure ChunkConfig where
  chunkMaxTokens : ℤ
  chunkOverlapTokens : ℤ

variable (cfg : ChunkConfig) (userText : String) (maxTokens overlapTokens : Option ℤ)

/-- `token_cap`. -/
def tokenCap : ℤ :=
  match maxTokens with
  | some rawCap => max 1 rawCap
  | none => max 50 cfg.chunkMaxTokens

/-- `overlap`. -/
def overlap : ℤ := max 0 (overlapTokens.getD cfg.chunkOverlapTokens)

/-- `step`. -/
def chunkStep : ℤ :=
  max 1 (tokenCap cfg maxTokens -
    min (overlap cfg overlapTokens) (tokenCap cfg maxTokens - 1))

/-- The loop of `chunk_document`, for so many turns; `none` where it has not ended by then. -/
def chunkLoop (words : List String) (tokenCap step : ℕ) :
    ℕ → ℕ → ℕ → List DocumentChunk → Option (List DocumentChunk)
  | 0, _, _, _ => none
  | turns + 1, start, index, chunks =>
    if start < words.length then
      let stop := min words.length (start + tokenCap)
      let content := strip (joinWords ((words.drop start).take (stop - start)))
      let (chunks, index) :=
        if content = "" then (chunks, index)
        else (chunks ++ [⟨index, content, stop - start⟩], index + 1)
      if words.length ≤ stop then some chunks
      else chunkLoop words tokenCap step turns (start + step) index chunks
    else some chunks

/-- `chunk_document`, with so many turns for its loop. -/
def chunkDocument (turns : ℕ) : Option (List DocumentChunk) :=
  let text := strip userText
  if text = "" then some []
  else
    let words := strSplit text
    if words = [] then some []
    else chunkLoop words (tokenCap cfg maxTokens).toNat (chunkStep cfg maxTokens overlapTokens).toNat
      turns 0 0 []

/-! ### The chunks are windows -/

/-- The chunks of some windows, numbered on from an index. -/
def numbered (index : ℕ) : List (List String) → List DocumentChunk
  | [] => []
  | w :: ws => ⟨index, joinWords w, w.length⟩ :: numbered (index + 1) ws

variable {words : List String} {windowList : List (List String)}

lemma index_numbered (index : ℕ) (windowList : List (List String)) :
    (numbered index windowList).map DocumentChunk.index =
      List.range' index windowList.length := by
  induction windowList generalizing index with
  | nil => rfl
  | cons w ws ih =>
    unfold numbered
    rw [List.map_cons, ih, List.length_cons, List.range'_succ]

lemma words_numbered (index : ℕ) (h : ∀ w ∈ windowList, ∀ word ∈ w, IsWord word) :
    (numbered index windowList).map (fun chunk => strSplit chunk.content) = windowList := by
  induction windowList generalizing index with
  | nil => rfl
  | cons w ws ih =>
    unfold numbered
    rw [List.map_cons, strSplit_joinWords (h w List.mem_cons_self),
      ih (index + 1) fun v hv => h v (List.mem_cons_of_mem _ hv)]

lemma mem_numbered {index : ℕ} {chunk : DocumentChunk} (h : chunk ∈ numbered index windowList) :
    ∃ w ∈ windowList, chunk.content = joinWords w ∧ chunk.estimatedTokens = w.length := by
  induction windowList generalizing index with
  | nil => exact absurd h List.not_mem_nil
  | cons w ws ih =>
    unfold numbered at h
    rcases List.mem_cons.mp h with rfl | h
    · exact ⟨w, List.mem_cons_self, rfl, rfl⟩
    · obtain ⟨v, hv, hcontent⟩ := ih h
      exact ⟨v, List.mem_cons_of_mem _ hv, hcontent⟩

lemma joinWords_ne_empty (hne : words ≠ []) (h : ∀ w ∈ words, IsWord w) : joinWords words ≠ "" := by
  intro hempty
  have hsplit := strSplit_joinWords h
  rw [hempty] at hsplit
  exact hne (hsplit.symm.trans (by decide))

/-- The loop cuts what is left of the words into windows, and ends. -/
lemma chunkLoop_eq {cap step turns start index : ℕ} {chunks : List DocumentChunk}
    (hwords : ∀ w ∈ words, IsWord w) (hstep : 0 < step) (hcap : step ≤ cap)
    (hstart : start < words.length) (hturns : words.length - start ≤ turns) :
    chunkLoop words cap step turns start index chunks =
      some (chunks ++ numbered index (windows cap step hstep (words.drop start))) := by
  -- every turn moves the start on, so the turns outlast the words
  induction turns generalizing start index chunks with
  | zero => omega
  | succ turns ih =>
    have hslice : (words.drop start).take (min words.length (start + cap) - start) =
        (words.drop start).take cap := by
      rcases Nat.le_total words.length (start + cap) with hle | hle
      · rw [min_eq_left hle, List.take_of_length_le (by rw [List.length_drop]),
          List.take_of_length_le (by rw [List.length_drop]; omega)]
      · rw [min_eq_right hle, Nat.add_sub_cancel_left]
    have hslice_words : ∀ w ∈ (words.drop start).take cap, IsWord w := fun w hw =>
      hwords w (List.mem_of_mem_drop (List.mem_of_mem_take hw))
    have hslice_ne : (words.drop start).take cap ≠ [] := by
      intro hnil
      have hlength := congrArg List.length hnil
      rw [List.length_take, List.length_drop, List.length_nil] at hlength
      omega
    have hslice_length : min words.length (start + cap) - start =
        ((words.drop start).take cap).length := by
      rw [List.length_take, List.length_drop]
      omega
    unfold chunkLoop
    dsimp only
    rw [if_pos hstart, hslice, hslice_length, strip_joinWords hslice_words,
      if_neg (joinWords_ne_empty hslice_ne hslice_words)]
    dsimp only
    split
    next hlast =>
      have hshort : (words.drop start).length ≤ cap := by
        rw [List.length_drop]
        omega
      rw [windows_of_le hshort, List.take_of_length_le hshort]
      rfl
    next hmore =>
      have hlong : cap < (words.drop start).length := by
        rw [List.length_drop]
        omega
      rw [ih (by omega) (by omega), windows_of_lt hlong, List.drop_drop, List.append_assoc]
      rfl

/-! ### Parameters -/

lemma one_le_tokenCap : 1 ≤ tokenCap cfg maxTokens := by
  unfold tokenCap
  cases maxTokens with
  | none =>
    dsimp only
    omega
  | some rawCap =>
    dsimp only
    omega

/-- The step leaves the overlap over, and is at least one word. -/
lemma chunkStep_eq : chunkStep cfg maxTokens overlapTokens =
      tokenCap cfg maxTokens - min (overlap cfg overlapTokens) (tokenCap cfg maxTokens - 1) ∧
    1 ≤ chunkStep cfg maxTokens overlapTokens ∧ 0 ≤ overlap cfg overlapTokens := by
  have hcap := one_le_tokenCap cfg maxTokens
  have hoverlap : 0 ≤ overlap cfg overlapTokens := by
    unfold overlap
    omega
  unfold chunkStep
  omega

/-- Chunks cover the document.  The loop ends; the indices count up from zero; no chunk has more
words than the cap; neighbouring chunks have `min(overlap, cap - 1)` words in common, the last of
the one and the first of the other; and without these the chunks are the words of the text. -/
theorem chunkDocument_covers :
    ∃ chunks, (∃ enough, ∀ turns, enough ≤ turns →
        chunkDocument cfg userText maxTokens overlapTokens turns = some chunks) ∧
      chunks.map DocumentChunk.index = List.range chunks.length ∧
      (∀ chunk ∈ chunks, (strSplit chunk.content).length = chunk.estimatedTokens ∧
        (chunk.estimatedTokens : ℤ) ≤ tokenCap cfg maxTokens) ∧
      (chunks.map fun chunk => strSplit chunk.content).IsChain
        (Overlaps (min (overlap cfg overlapTokens) (tokenCap cfg maxTokens - 1)).toNat) ∧
      joinWindows (min (overlap cfg overlapTokens) (tokenCap cfg maxTokens - 1)).toNat
        (chunks.map fun chunk => strSplit chunk.content) = strSplit userText := by
  by_cases hempty : strSplit userText = []
  · refine ⟨[], ⟨0, fun turns _ => ?_⟩, rfl, fun _ hmem => absurd hmem List.not_mem_nil, .nil,
      hempty.symm⟩
    unfold chunkDocument
    dsimp only
    rw [strSplit_strip, if_pos hempty, ite_self]
  · obtain ⟨hstepEq, hone, hoverlap⟩ := chunkStep_eq cfg maxTokens overlapTokens
    have hcapOne := one_le_tokenCap cfg maxTokens
    have hwords : ∀ w ∈ strSplit userText, IsWord w := fun w hw => isWord_of_mem_strSplit hw
    generalize hcap : (tokenCap cfg maxTokens).toNat = cap
    generalize hstepNat : (chunkStep cfg maxTokens overlapTokens).toNat = step
    have hstep : 0 < step := by omega
    have hle : step ≤ cap := by omega
    have hoverlapNat :
        (min (overlap cfg overlapTokens) (tokenCap cfg maxTokens - 1)).toNat = cap - step := by
      omega
    have hall : ∀ w ∈ windows cap step hstep (strSplit userText), ∀ word ∈ w, IsWord word :=
      fun w hw word hword => hwords word ((of_mem_windows hle hw).2.2 word hword)
    have hcontents := words_numbered 0 hall
    refine ⟨numbered 0 (windows cap step hstep (strSplit userText)),
      ⟨(strSplit userText).length, fun turns hturns => ?_⟩, ?_, ?_, ?_, ?_⟩
    · have hpositive := List.length_pos_iff.mpr hempty
      have hnonempty : strip userText ≠ "" := by
        intro hblank
        refine hempty ?_
        rw [← strSplit_strip, hblank]
        decide
      unfold chunkDocument
      dsimp only
      rw [if_neg hnonempty, strSplit_strip, if_neg hempty, hcap, hstepNat,
        chunkLoop_eq hwords hstep hle hpositive (by omega)]
      rfl
    · have hlength : (numbered 0 (windows cap step hstep (strSplit userText))).length =
          (windows cap step hstep (strSplit userText)).length := by
        simpa using congrArg List.length hcontents
      rw [index_numbered, hlength, List.range_eq_range']
    · intro chunk hchunk
      obtain ⟨w, hw, hcontent, htokens⟩ := mem_numbered hchunk
      rw [hcontent, strSplit_joinWords (hall w hw), htokens]
      have hwidth := (of_mem_windows hle hw).1
      exact ⟨rfl, by omega⟩
    · rw [hcontents, hoverlapNat]
      exact isChain_windows hle _
    · rw [hcontents, hoverlapNat]
      exact joinWindows_windows hle _

/-- Seven words in chunks of three that overlap in one. -/
example : chunkDocument ⟨4000, 200⟩ " a b  c d e f g" (some 3) (some 1) 10 =
    some [⟨0, "a b c", 3⟩, ⟨1, "c d e", 3⟩, ⟨2, "e f g", 3⟩] := by decide +kernel

end Trion.InputProcessor
