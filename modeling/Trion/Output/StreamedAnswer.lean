import Mathlib.Data.List.Infix
import Mathlib.Data.List.TakeWhile
import Trion.Output.StreamCourse

/-!
# The same answer, streamed or not

The answer of a stream against the answer to the same text as a whole, behind the same guards.
Stripping removes nothing of a marker, so both ways find the same markers.  For the rest the
stream only strips a hollow prefix, and only of the first chunk, and it shows the guard what has
been put together so far, which the text may take back later.
-/

namespace Trion.Output

open Trion.Python Markers

/-- The whole text holds the marker. -/
def IsMarked (text : List Char) : Prop := toolMarkupMarker <:+: text

/-- What a stream puts together, if nothing stops it. -/
def joinedText (chunks : List (List Char)) : List Char := (textsOf false chunks).flatten

section Answers

variable (t : TextTables) (request : OutputRequest) (chunks : List (List Char))

/-- The content that is returned with a sink. -/
def streamedContent : List Char :=
  ((streamOutput t request {} chunks).2.result t request).content

/-- The content that is returned without a sink, behind the guards of `generate_output`. -/
def wholeContent (text : List Char) : List Char :=
  applyToolMarkupGuard (applyExecutionConsistencyGuard t request (completeOutput text).content)

/-- The guard rejects a text that the stream puts together on the way. -/
def RejectsOnTheWay : Prop := ∃ text ∈ safeTexts [] (textsOf false chunks), Rejects t request text

/-- Both ways give the same answer: the guard rejects on both ways or on none; if on none, the
text holds the marker, or it does not end in a part of it and the stream strips what is stripped
of the whole text.  Or else the answer is the sentence that the guard puts in its place. -/
def AgreesOn : Prop :=
  ((RejectsOnTheWay t request chunks ↔ Rejects t request (postcheckFull chunks.flatten).2) ∧
    (¬RejectsOnTheWay t request chunks → IsMarked chunks.flatten ∨
      heldBack marker (joinedText chunks) = [] ∧
        joinedText chunks = (postcheckFull chunks.flatten).2)) ∨
  RejectsOnTheWay t request chunks ∧ (postcheckFull chunks.flatten).2 = executionRejection ∨
  Rejects t request (postcheckFull chunks.flatten).2 ∧ joinedText chunks = executionRejection

end Answers

/-! ### Stripping and the marker -/

section Stripping

variable {text start middle ending : List Char} {chunks : List (List Char)}

lemma split_at {x : Char} {us vs xs ys : List Char} (h : us ++ vs = xs ++ x :: ys) (hx : x ∉ us) :
    ∃ zs, vs = zs ++ x :: ys := by
  rcases List.append_eq_append_iff.mp h with ⟨zs, _, hvs⟩ | ⟨zs, hus, hzs⟩
  · exact ⟨zs, hvs⟩
  · cases zs with
    | nil => exact ⟨[], hzs.symm⟩
    | cons z zs =>
      rw [List.cons_append, List.cons.injEq] at hzs
      exact absurd (by rw [hus, hzs.1]; simp) hx

lemma marker_eq_cons : ∃ rest, toolMarkupMarker = '[' :: rest := ⟨_, rfl⟩

lemma marker_eq_concat : ∃ rest, toolMarkupMarker.reverse = ']' :: rest := ⟨_, rfl⟩

lemma isMarked_append_left (h : '[' ∉ start) : IsMarked (start ++ ending) ↔ IsMarked ending := by
  refine ⟨?_, fun hmarked => hmarked.trans (List.suffix_append start ending).isInfix⟩
  rintro ⟨before, after, heq⟩
  obtain ⟨rest, hrest⟩ := marker_eq_cons
  have hsplit : start ++ ending = before ++ '[' :: (rest ++ after) := by
    rw [← heq, hrest, List.append_assoc, List.cons_append]
  obtain ⟨zs, hzs⟩ := split_at hsplit h
  refine ⟨zs, after, ?_⟩
  rw [hzs, hrest, List.append_assoc, List.cons_append]

lemma isMarked_append_right (h : ']' ∉ ending) : IsMarked (start ++ ending) ↔ IsMarked start := by
  refine ⟨?_, fun hmarked => hmarked.trans (List.prefix_append start ending).isInfix⟩
  rintro ⟨before, after, heq⟩
  obtain ⟨rest, hrest⟩ := marker_eq_concat
  have hsplit : ending.reverse ++ start.reverse =
      after.reverse ++ ']' :: (rest ++ before.reverse) := by
    rw [← List.reverse_append, ← heq, List.reverse_append, List.reverse_append, hrest,
      List.cons_append]
  obtain ⟨zs, hzs⟩ := split_at hsplit (by rwa [List.mem_reverse])
  refine ⟨before, zs.reverse, List.reverse_injective ?_⟩
  rw [hzs, List.reverse_append, List.reverse_append, List.reverse_reverse, hrest,
    List.cons_append]

lemma rejection_eq_concat : ∃ rest, toolMarkupRejection = rest ++ ['.'] := by
  have hlast : "Bitte wiederhole die Anfrage.".toList =
      "Bitte wiederhole die Anfrage".toList ++ ['.'] := by decide +kernel
  exact ⟨_, (congrArg _ hlast).trans (List.append_assoc _ _ _).symm⟩

lemma bracket_not_mem (h : ∀ c ∈ start, isSpace c = true) : '[' ∉ start := fun hmem =>
  absurd (h _ hmem) (by decide)

lemma closing_not_mem (h : ∀ c ∈ start, isSpace c = true) : ']' ∉ start := fun hmem =>
  absurd (h _ hmem) (by decide)

lemma lstrip_split (text : List Char) :
    ∃ start, (∀ c ∈ start, isSpace c = true) ∧ text = start ++ lstrip text :=
  ⟨text.takeWhile isSpace, fun _ hc => List.mem_takeWhile_imp hc,
    (List.takeWhile_append_dropWhile).symm⟩

lemma hollowPrefixes_plain : ∀ hollow ∈ hollowPrefixes, '[' ∉ hollow := by decide

/-- White space and a hollow prefix hold no bracket. -/
lemma stripHollowPrefix_split (text : List Char) :
    ∃ start, '[' ∉ start ∧ text = start ++ (stripHollowPrefix text).2 := by
  unfold stripHollowPrefix
  dsimp only
  cases hhollow : hollowPrefixes.find? (·.isPrefixOf (lstrip text)) with
  | none => exact ⟨[], List.not_mem_nil, rfl⟩
  | some hollow =>
    obtain ⟨spaces, hspaces, htext⟩ := lstrip_split text
    obtain ⟨later, hlater, hrest⟩ := lstrip_split ((lstrip text).drop hollow.length)
    have hfound := List.find?_some hhollow
    have hbegins : hollow <+: lstrip text := List.isPrefixOf_iff_prefix.mp hfound
    have hplain := hollowPrefixes_plain hollow (List.mem_of_find?_eq_some hhollow)
    refine ⟨spaces ++ (hollow ++ later), ?_, ?_⟩
    · simp only [List.mem_append, not_or]
      exact ⟨bracket_not_mem hspaces, hplain, bracket_not_mem hlater⟩
    · have hall : lstrip text = hollow ++ (later ++ lstrip ((lstrip text).drop hollow.length)) := by
        rw [← hrest]
        exact List.prefix_append_drop hbegins
      rw [List.append_assoc, List.append_assoc, ← hall]
      exact htext

/-- Stripping takes white space from both ends. -/
lemma stripText_split (text : List Char) :
    ∃ start ending, (∀ c ∈ start, isSpace c = true) ∧ (∀ c ∈ ending, isSpace c = true) ∧
      text = start ++ stripText text ++ ending := by
  obtain ⟨start, hstart, htext⟩ := lstrip_split text
  obtain ⟨ending, hending, hrest⟩ := lstrip_split (lstrip text).reverse
  refine ⟨start, ending.reverse, hstart, fun c hc => hending c (List.mem_reverse.mp hc), ?_⟩
  have hsplit : lstrip text = stripText text ++ ending.reverse := by
    rw [← (lstrip text).reverse_reverse, hrest, List.reverse_append]
    rfl
  rw [List.append_assoc, ← hsplit]
  exact htext

lemma flatten_textsOf_true (chunks : List (List Char)) :
    (textsOf true chunks).flatten = chunks.flatten := by
  induction chunks with
  | nil => rfl
  | cons chunk chunks ih =>
    rw [textsOf]
    split
    · rename_i hnil
      rw [ih, hnil]
      rfl
    · rw [if_pos rfl, List.flatten_cons, List.flatten_cons, ih]

/-- The stream takes white space and a hollow prefix from the start of the text. -/
lemma joinedText_split (chunks : List (List Char)) :
    ∃ start, '[' ∉ start ∧ chunks.flatten = start ++ joinedText chunks := by
  induction chunks with
  | nil => exact ⟨[], List.not_mem_nil, rfl⟩
  | cons chunk chunks ih =>
    unfold joinedText
    rw [textsOf]
    split
    · rename_i hnil
      rw [hnil]
      exact ih
    · rw [if_neg Bool.false_ne_true]
      obtain ⟨start, hstart, hchunk⟩ := stripHollowPrefix_split chunk
      refine ⟨start, hstart, ?_⟩
      rw [List.flatten_cons]
      nth_rewrite 1 [hchunk]
      split
      · rename_i hnil
        rw [hnil, List.append_nil, flatten_textsOf_true]
      · rw [List.flatten_cons, flatten_textsOf_true, List.append_assoc]

/-- Stripping and the hollow prefix take no bracket. -/
lemma postcheckFull_split (text : List Char) :
    ∃ start ending, '[' ∉ start ∧ (∀ c ∈ ending, isSpace c = true) ∧
      text = start ++ (postcheckFull text).2 ++ ending := by
  obtain ⟨spaces, ending, hspaces, hending, htext⟩ := stripText_split text
  obtain ⟨start, hstart, hrest⟩ := stripHollowPrefix_split (stripText text)
  refine ⟨spaces ++ start, ending, ?_, hending, ?_⟩
  · simp only [List.mem_append, not_or]
    exact ⟨bracket_not_mem hspaces, hstart⟩
  · rw [List.append_assoc spaces, postcheckFull, ← hrest]
    exact htext

/-- The stream finds the markers of the text. -/
lemma isMarked_joinedText : IsMarked (joinedText chunks) ↔ IsMarked chunks.flatten := by
  obtain ⟨start, hstart, hsplit⟩ := joinedText_split chunks
  rw [hsplit, isMarked_append_left hstart]

/-- The answer to the whole text holds the markers of the text. -/
lemma isMarked_postcheckFull : IsMarked (postcheckFull text).2 ↔ IsMarked text := by
  obtain ⟨start, ending, hstart, hending, hsplit⟩ := postcheckFull_split text
  nth_rewrite 2 [hsplit]
  rw [isMarked_append_right (closing_not_mem hending), isMarked_append_left hstart]

lemma find_marker_ne_none : find marker text ≠ none ↔ IsMarked text :=
  find_exactly_ne_none (by decide)

/-- What is held back is made of characters of the marker. -/
lemma mem_of_mem_heldBack {c : Char} (h : c ∈ heldBack marker text) : c ∈ toolMarkupMarker := by
  have hpart : isPart marker (heldBack marker text) = true := isPart_heldBack marker_ne_nil
  exact (List.isPrefixOf_iff_prefix.mp (isPart_exactly.mp hpart).2).subset h

lemma marker_plain {c : Char} (h : c ∈ toolMarkupMarker) : c ≠ '.' ∧ isSpace c = false := by
  have hall : (toolMarkupMarker.all fun c => c != '.' && !isSpace c) = true := by decide
  simpa using List.all_eq_true.mp hall c h

/-- A text of which something is held back has not the sentence of the markup guard as its
answer. -/
lemma postcheckFull_ne_rejection (h : heldBack marker (joinedText chunks) ≠ []) :
    (postcheckFull chunks.flatten).2 ≠ toolMarkupRejection := by
  intro hrejection
  obtain ⟨front, _, hfront⟩ := joinedText_split chunks
  obtain ⟨start, ending, _, hending, hsplit⟩ := postcheckFull_split chunks.flatten
  obtain ⟨before, hbefore⟩ : heldBack marker (joinedText chunks) <:+ joinedText chunks :=
    heldBack_suffix
  obtain ⟨init, c, hheld⟩ := (heldBack marker (joinedText chunks)).eq_nil_or_concat.resolve_left h
  have hlast : chunks.flatten.getLast? = some c := by
    rw [hfront, ← hbefore, hheld]
    simp
  have hc : c ∈ toolMarkupMarker := mem_of_mem_heldBack (by rw [hheld]; simp)
  have hplain := marker_plain hc
  rw [hsplit, hrejection] at hlast
  rcases ending.eq_nil_or_concat with hnil | ⟨init', d, hd⟩
  · obtain ⟨rest, hrest⟩ := rejection_eq_concat
    rw [hnil, hrest, List.append_nil, ← List.append_assoc, List.getLast?_concat,
      Option.some.injEq] at hlast
    exact hplain.1 hlast.symm
  · rw [hd, List.concat_eq_append, ← List.append_assoc, List.getLast?_concat,
      Option.some.injEq] at hlast
    have hspace := hending d (by rw [hd]; simp)
    rw [hlast, hplain.2] at hspace
    exact Bool.false_ne_true hspace

end Stripping

/-! ### The two answers -/

section Answers

variable {t : TextTables} {request : OutputRequest} {chunks : List (List Char)} {text : List Char}

lemma guard_cases (text : List Char) :
    applyExecutionConsistencyGuard t request text = text ∨
      applyExecutionConsistencyGuard t request text = executionRejection := by
  unfold applyExecutionConsistencyGuard
  split_ifs
  exacts [.inl rfl, .inl rfl, .inl rfl, .inl rfl, .inr rfl]

/-- A text that the guard rejects is replaced by its sentence. -/
lemma guard_of_rejects (h : Rejects t request text) :
    applyExecutionConsistencyGuard t request text = executionRejection :=
  (guard_cases text).resolve_left h

lemma applyToolMarkupGuard_of_isMarked (h : IsMarked text) :
    applyToolMarkupGuard text = toolMarkupRejection := by
  rw [applyToolMarkupGuard, findText_eq_find (by decide)]
  exact if_pos (Option.isSome_iff_ne_none.mpr (find_marker_ne_none.mpr h))

lemma applyToolMarkupGuard_of_not_isMarked (h : ¬IsMarked text) :
    applyToolMarkupGuard text = text := by
  rw [applyToolMarkupGuard, findText_eq_find (by decide)]
  exact if_neg fun hsome => h (find_marker_ne_none.mp (Option.isSome_iff_ne_none.mp hsome))

/-- A text without an opening bracket blocks no stream. -/
lemma not_isBlocked_of_not_mem (h : '[' ∉ text) : ¬IsBlocked text := by
  obtain ⟨rest, hrest⟩ := marker_eq_cons
  rintro (hfind | hheld)
  · have hpart : IsMarked text := find_marker_ne_none.mp hfind
    exact h (hpart.subset (by rw [hrest]; exact List.mem_cons_self))
  · obtain ⟨c, cs, hcs⟩ := List.exists_cons_of_ne_nil hheld
    have hpart : isPart marker (heldBack marker text) = true := isPart_heldBack marker_ne_nil
    have hstart : c :: cs <+: '[' :: rest := by
      rw [← hcs, ← hrest]
      exact List.isPrefixOf_iff_prefix.mp (isPart_exactly.mp hpart).2
    rw [List.cons_prefix_cons] at hstart
    have hmem : '[' ∈ heldBack marker text := by
      rw [hcs, hstart.1]
      exact List.mem_cons_self
    exact h (heldBack_suffix.subset hmem)

lemma bracket_not_mem_executionRejection : '[' ∉ executionRejection := by decide +kernel

lemma not_isBlocked_executionRejection : ¬IsBlocked executionRejection :=
  not_isBlocked_of_not_mem bracket_not_mem_executionRejection

lemma not_isMarked_executionRejection : ¬IsMarked executionRejection := fun h =>
  not_isBlocked_executionRejection (.inl (find_marker_ne_none.mpr h))

lemma executionRejection_ne : executionRejection ≠ toolMarkupRejection := by
  have hexecution : executionRejection.head? = some 'I' := by decide +kernel
  have hmarkup : toolMarkupRejection.head? = some 'D' := by decide +kernel
  intro heq
  rw [heq, hmarkup] at hexecution
  exact absurd hexecution (by decide)

/-- The content without a sink. -/
lemma wholeContent_cases (t : TextTables) (request : OutputRequest) (text : List Char) :
    Rejects t request (postcheckFull text).2 ∧
        wholeContent t request text = executionRejection ∨
      ¬Rejects t request (postcheckFull text).2 ∧ IsMarked text ∧
        wholeContent t request text = toolMarkupRejection ∨
      ¬Rejects t request (postcheckFull text).2 ∧ ¬IsMarked text ∧
        wholeContent t request text = (postcheckFull text).2 := by
  unfold wholeContent completeOutput
  by_cases hrejects : Rejects t request (postcheckFull text).2
  · refine .inl ⟨hrejects, ?_⟩
    rw [guard_of_rejects hrejects,
      applyToolMarkupGuard_of_not_isMarked not_isMarked_executionRejection]
  · refine .inr ?_
    rw [not_not.mp hrejects]
    by_cases hmarked : IsMarked text
    · exact .inl ⟨hrejects, hmarked,
        applyToolMarkupGuard_of_isMarked (isMarked_postcheckFull.mpr hmarked)⟩
    · exact .inr ⟨hrejects, hmarked,
        applyToolMarkupGuard_of_not_isMarked (mt isMarked_postcheckFull.mp hmarked)⟩

/-- What is sent of the texts stops at the first that the guard rejects. -/
lemma sendTexts_rejected (t : TextTables) (request : OutputRequest) (emitted : ℕ) (texts : List (List Char)) :
    (∃ text ∈ texts, Rejects t request text) ∧
        (∃ text, Rejects t request text ∧
          (sendTexts t request emitted texts).2.2 = some text) ∨
      (¬∃ text ∈ texts, Rejects t request text) ∧
        (sendTexts t request emitted texts).2.2 = none := by
  induction texts generalizing emitted with
  | nil => exact .inr ⟨by simp, rfl⟩
  | cons text texts ih =>
    rw [sendTexts]
    by_cases hrejects : Rejects t request text
    · rw [if_pos hrejects]
      exact .inl ⟨⟨text, List.mem_cons_self, hrejects⟩, text, hrejects, rfl⟩
    · rw [if_neg hrejects]
      simpa [hrejects] using ih (max emitted (emitEnd t request text))

/-- The content with a sink. -/
lemma streamedContent_cases (t : TextTables) (request : OutputRequest)
    (chunks : List (List Char)) :
    RejectsOnTheWay t request chunks ∧
        streamedContent t request chunks = executionRejection ∨
      ¬RejectsOnTheWay t request chunks ∧ IsBlocked (joinedText chunks) ∧
        streamedContent t request chunks = toolMarkupRejection ∨
      ¬RejectsOnTheWay t request chunks ∧ ¬IsBlocked (joinedText chunks) ∧
        streamedContent t request chunks = joinedText chunks := by
  obtain ⟨applied, hcourse⟩ := streamOutput_eq t request chunks
  unfold streamedContent
  rw [hcourse]
  rcases sendTexts_rejected t request 0 (safeTexts [] (textsOf false chunks))
    with ⟨hrejects, text, htext, hsending⟩ | ⟨haccepted, hsending⟩
  · refine .inl ⟨hrejects, ?_⟩
    rw [course_rejected hsending]
    exact guard_of_rejects htext
  · refine .inr ?_
    by_cases hblocked : IsBlocked (joinedText chunks)
    · refine .inl ⟨haccepted, hblocked, ?_⟩
      rw [course_blocked hsending hblocked]
      rfl
    · refine .inr ⟨haccepted, hblocked, ?_⟩
      rw [course_answered hsending hblocked]
      rfl

lemma isBlocked_joinedText :
    IsBlocked (joinedText chunks) ↔
      IsMarked chunks.flatten ∨ heldBack marker (joinedText chunks) ≠ [] := by
  rw [IsBlocked, find_marker_ne_none, isMarked_joinedText]

/-- The answer of a stream is the answer to the whole text under just this condition. -/
theorem streamedContent_eq_iff (t : TextTables) (request : OutputRequest)
    (chunks : List (List Char)) :
    streamedContent t request chunks = wholeContent t request chunks.flatten ↔
      AgreesOn t request chunks := by
  have hsentences := executionRejection_ne
  unfold AgreesOn
  rcases streamedContent_cases t request chunks with
    ⟨hway, hstreamed⟩ | ⟨hway, hblocked, hstreamed⟩ | ⟨hway, hopen, hstreamed⟩ <;>
  rcases wholeContent_cases t request chunks.flatten with
    ⟨hrejects, hwhole⟩ | ⟨hrejects, hmarked, hwhole⟩ | ⟨hrejects, hmarked, hwhole⟩ <;>
  rw [hstreamed, hwhole]
  · simp [hway, hrejects]
  · have hother : (postcheckFull chunks.flatten).2 ≠ executionRejection := by
      intro heq
      rw [← isMarked_postcheckFull, heq] at hmarked
      exact not_isMarked_executionRejection hmarked
    simp [hway, hrejects, hsentences, hother]
  · rw [eq_comm]
    simp [hway, hrejects]
  · have hother : joinedText chunks ≠ executionRejection := by
      intro heq
      rw [heq] at hblocked
      exact not_isBlocked_executionRejection hblocked
    simp [hway, hrejects, hsentences.symm, hother]
  · simp [hway, hrejects, hmarked]
  · have hheld := (isBlocked_joinedText.mp hblocked).resolve_left hmarked
    have hother := postcheckFull_ne_rejection hheld
    simp [hway, hrejects, hmarked, hheld, hother.symm]
  · simp [hway, hrejects]
  · exact absurd (isBlocked_joinedText.mpr (.inl hmarked)) hopen
  · have hheld : heldBack marker (joinedText chunks) = [] := by
      by_contra hheld
      exact hopen (isBlocked_joinedText.mpr (.inr hheld))
    simp [hway, hrejects, hmarked, hheld]

/-- A hollow prefix that comes in two chunks stays in the answer of a stream. -/
theorem streamedContent_ne_wholeContent :
    ¬∀ (t : TextTables) (request : OutputRequest) (chunks : List (List Char)),
      streamedContent t request chunks = wholeContent t request chunks.flatten := by
  intro h
  have hsame := h .basic ⟨.noTaskLoop⟩ ["Sure".toList, "! Hi".toList]
  revert hsame
  decide +kernel

end Answers

end Trion.Output
