import Mathlib.Data.List.Sort
import Mathlib.Data.Rat.Defs
import Trion.Library.Patterns
import Trion.Python.Text

/-!
# Boundaries in a text

Where a text may be cut: at paragraphs, before headings and after sentences.  A text is taken for
code, a list, a heading or plain text by what its patterns find in it.
-/

namespace Trion.TextUtils

open Trion.Python Patterns

/-- The pattern tables of the Unicode standard that `re` uses, and the token counting, which is
done by `tiktoken` where it is installed and by the length of a text else.  `tokensOfLength n` is
`int(n / CHARS_PER_TOKEN)`, `charsOfTokens n` is `int(n * CHARS_PER_TOKEN)`. -/
structure ChunkerRuntime where
  /-- `\d`. -/
  isDecimal : Char → Bool
  /-- `len(encoding.encode(text))`; that `encode` raises on a special token is left out. -/
  encode : Option (String → ℕ)
  tokensOfLength : ℕ → ℤ
  charsOfTokens : ℤ → ℤ

/-! ### Patterns -/

/-- `heading_md`. -/
def headingMd : List Item :=
  [lineStart, between 1 6 (· = '#'), atLeast 1 isSpace, atLeast 1 (· ≠ '\n'), lineEnd]

/-- `heading_underline`. -/
def headingUnderline : List Item :=
  [lineStart, atLeast 1 (· ≠ '\n'), one (· = '\n'), atLeast 3 fun c => c = '=' || c = '-', lineEnd]

/-- `paragraph`. -/
def paragraph : List Item := [one (· = '\n'), atLeast 1 (· = '\n')]

/-- `sentence_end`. -/
def sentenceEnd : List Item :=
  [one fun c => c ∈ ['.', '!', '?'], atLeast 1 isSpace,
    ahead fun c => ('A' ≤ c && c ≤ 'Z') || c ∈ ['Ä', 'Ö', 'Ü']]

/-- `code_block`, which is the empty pattern. -/
def codeBlock : List Item := []

/-- `list_item`. -/
def listItem : List Item :=
  [lineStart, atLeast 0 isSpace, one fun c => c ∈ ['-', '*', '•'], atLeast 1 isSpace]

/-- `numbered_list`. -/
def numberedList (rt : ChunkerRuntime) : List Item :=
  [lineStart, atLeast 0 isSpace, atLeast 1 rt.isDecimal, one fun c => c ∈ ['.', ')'],
    atLeast 1 isSpace]

/-! ### `BoundaryDetector` -/

inductive BoundaryKind where
  | paragraph
  | heading
  | sentence
deriving DecidableEq, Repr

/-- A place where a text may be cut. -/
structure Boundary where
  position : ℕ
  kind : BoundaryKind
  priority : ℕ
deriving DecidableEq, Repr

/-- `find_boundaries`. -/
def findBoundaries (text : List Char) : List Boundary :=
  let boundaries :=
    (findIter paragraph text).map (fun m => ⟨m.start, .paragraph, 10⟩) ++
    (findIter headingMd text).map (fun m => ⟨m.start, .heading, 9⟩) ++
    (findIter headingUnderline text).map (fun m => ⟨m.start, .heading, 9⟩) ++
    (findIter sentenceEnd text).map fun m => ⟨m.stop, .sentence, 5⟩
  boundaries.insertionSort fun a b => a.position ≤ b.position

inductive ChunkType where
  | text
  | code
  | heading
  | list
  | mixed
deriving DecidableEq, Repr

/-- `detect_chunk_type`. -/
def detectChunkType (rt : ChunkerRuntime) (text : List Char) : ChunkType :=
  let codeRatio : ℚ := (((findIter codeBlock text).map Match.length).sum : ℕ) / (max text.length 1 : ℕ)
  if 1 / 2 < codeRatio then .code
  else if 3 < (findIter listItem text).length + (findIter (numberedList rt) text).length then .list
  else if (findIter headingMd text).isEmpty = false then .heading
  else if 1 / 10 < codeRatio then .mixed
  else .text

/-- The first boundary is the one with the least position. -/
lemma head_findBoundaries {text : List Char} {b : Boundary} {bs : List Boundary}
    (h : findBoundaries text = b :: bs) : ∀ b' ∈ findBoundaries text, b.position ≤ b'.position := by
  have hsorted : (findBoundaries text).Pairwise fun a b => a.position ≤ b.position := by
    have : Std.Total fun a b : Boundary => a.position ≤ b.position :=
      ⟨fun a b => Nat.le_total a.position b.position⟩
    have : IsTrans Boundary fun a b => a.position ≤ b.position := ⟨fun a b c => Nat.le_trans⟩
    exact List.pairwise_insertionSort _ _
  rw [h] at hsorted ⊢
  intro b' hb'
  rcases List.mem_cons.mp hb' with rfl | hb'
  · exact Nat.le_refl _
  · exact (List.pairwise_cons.mp hsorted).1 b' hb'

/-- A boundary lies in the text. -/
lemma position_le_of_mem_findBoundaries {text : List Char} {b : Boundary}
    (h : b ∈ findBoundaries text) : b.position ≤ text.length := by
  have hstart : ∀ {items : List Item} {m : Match}, m ∈ findIter items text →
      m.start ≤ text.length := fun hm =>
    Nat.le_trans (Nat.le_add_right _ _) (stop_le_of_mem_findIter hm)
  unfold findBoundaries at h
  simp only [List.mem_insertionSort, List.mem_append, List.mem_map] at h
  rcases h with ((⟨m, hm, rfl⟩ | ⟨m, hm, rfl⟩) | ⟨m, hm, rfl⟩) | ⟨m, hm, rfl⟩
  · exact hstart hm
  · exact hstart hm
  · exact hstart hm
  · exact stop_le_of_mem_findIter hm

end Trion.TextUtils
