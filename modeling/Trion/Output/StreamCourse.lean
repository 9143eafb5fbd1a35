import Trion.Output.Stream

/-!
# The course of a stream

What the loop does depends on the texts that it puts together: after each chunk the answer so
far without what is held back, and at the marker what stands before it.  The stream is rejected
at the first of them that the guard rejects, is blocked where the whole text holds the marker or
ends in a part of it, and otherwise answers with the whole text.
-/

namespace Trion.Output

open Trion.Python Markers

/-! ### The texts of a stream -/

/-- The tool marker. -/
abbrev marker : List (Char → Bool) := exactly toolMarkupMarker

/-- The chunks that are not empty, the first without its hollow prefix; the flag says that the
first has been seen. -/
def textsOf : Bool → List (List Char) → List (List Char)
  | _, [] => []
  | seen, chunk :: chunks =>
    if chunk = [] then textsOf seen chunks
    else if seen then chunk :: textsOf true chunks
    else if (stripHollowPrefix chunk).2 = [] then textsOf true chunks
    else (stripHollowPrefix chunk).2 :: textsOf true chunks

/-- The texts that are put together after what has come so far: what is released after each
text, up to the marker. -/
def safeTexts (sofar : List Char) : List (List Char) → List (List Char)
  | [] => []
  | text :: texts =>
    match find marker (sofar ++ text) with
    | some place => [(sofar ++ text).take place]
    | none => released marker (sofar ++ text) :: safeTexts (sofar ++ text) texts

/-- The text holds the marker or ends in a part of it. -/
def IsBlocked (text : List Char) : Prop :=
  find marker text ≠ none ∨ heldBack marker text ≠ []

instance : DecidablePred IsBlocked := fun text =>
  inferInstanceAs (Decidable (find marker text ≠ none ∨ heldBack marker text ≠ []))

section Course

variable (t : TextTables) (request : OutputRequest)

/-- The guard rejects the text. -/
def Rejects (text : List Char) : Prop := applyExecutionConsistencyGuard t request text ≠ text

instance : DecidablePred (Rejects t request) := fun text =>
  inferInstanceAs (Decidable (applyExecutionConsistencyGuard t request text ≠ text))

/-- The piece that is sent of a text, after what has been sent. -/
def pieceOf (emitted : ℕ) (text : List Char) : List SentPiece :=
  if emitted < emitEnd t request text then
    [⟨emitted, (text.take (emitEnd t request text)).drop emitted⟩]
  else []

/-- What is sent of the texts, how far, and the text that is rejected. -/
def sendTexts : ℕ → List (List Char) → List SentPiece × ℕ × Option (List Char)
  | emitted, [] => ([], emitted, none)
  | emitted, text :: texts =>
    if Rejects t request text then ([], emitted, some text)
    else
      let rest := sendTexts (max emitted (emitEnd t request text)) texts
      (pieceOf t request emitted text ++ rest.1, rest.2)

/-- The piece that is sent at the end. -/
def lastPiece (emitted : ℕ) (text : List Char) : List SentPiece :=
  if emitted < text.length then [⟨emitted, text.drop emitted⟩] else []

/-- What a stream sends and how it ends, after what has come and been sent so far. -/
def course (emitted : ℕ) (sofar : List Char) (texts : List (List Char)) (applied : Bool) :
    List SentPiece × Outcome :=
  let sending := sendTexts t request emitted (safeTexts sofar texts)
  let whole := sofar ++ texts.flatten
  match sending.2.2 with
  | some text => (sending.1, .rejected text)
  | none =>
    if IsBlocked whole then (sending.1, .blocked)
    else (sending.1 ++ lastPiece sending.2.1 whole, .answered whole applied)

/-- The state with the text as its content, sent as far as it may be. -/
def advance (s : StreamState) (text : List Char) : StreamState :=
  { s with
    content := text
    emittedLength := max s.emittedLength (emitEnd t request text)
    sent := s.sent ++ pieceOf t request s.emittedLength text }

/-- Between two chunks: what has come holds no marker, its released part has been put together
and accepted, and it has been sent as far as it may be. -/
structure Between (s : StreamState) (sofar : List Char) : Prop where
  unmarked : find marker sofar = none
  content : s.content = released marker sofar
  pending : s.pending = heldBack marker sofar
  accepted : ¬Rejects t request s.content
  sent : emitEnd t request s.content ≤ s.emittedLength

end Course

/-! ### One text -/

section Text

variable {t : TextTables} {request : OutputRequest} {s : StreamState}
  {sofar text candidate : List Char} {chunk : List Char} {chunks : List (List Char)}

lemma marker_ne_nil : marker ≠ [] := by decide

/-- The text that is kept back is the longest end that is a part of the marker. -/
lemma pendingSize_eq : pendingSize candidate = (heldBack marker candidate).length := by
  have hmarker : marker.length = toolMarkupMarker.length := length_exactly
  unfold pendingSize
  rw [← hmarker]
  refine greatest_eq_heldBack marker_ne_nil heldBack_suffix.length_le fun n hpos hn hle => ?_
  have hlen : (candidate.drop (candidate.length - n)).length = n := by
    rw [List.length_drop]
    omega
  rw [hmarker] at hn
  refine ⟨fun h => ⟨_, List.drop_suffix _ _, hlen, isPart_exactly.mpr ⟨by omega, h⟩⟩, ?_⟩
  rintro ⟨ending, ⟨start, rfl⟩, rfl, h⟩
  rw [List.length_append, Nat.add_sub_cancel, List.drop_left]
  exact (isPart_exactly.mp h).2

/-- Accepted text is added and sent as far as it may be. -/
lemma addSafe_eq (haccepted : ¬Rejects t request s.content)
    (hsent : emitEnd t request s.content ≤ s.emittedLength) :
    addSafe t request s text =
      if Rejects t request (s.content ++ text) then (s, some (.rejected (s.content ++ text)))
      else (advance t request s (s.content ++ text), none) := by
  unfold addSafe
  by_cases hnil : text = []
  · subst hnil
    have hpiece : pieceOf t request s.emittedLength s.content = [] :=
      if_neg (Nat.not_lt.mpr hsent)
    rw [if_pos rfl, List.append_nil, if_neg haccepted, advance, hpiece, List.append_nil,
      Nat.max_eq_left hsent]
  · rw [if_neg hnil]
    dsimp only
    by_cases hrejects : Rejects t request (s.content ++ text)
    · rw [if_pos hrejects]
      exact if_pos hrejects
    · rw [if_neg hrejects]
      refine (if_neg hrejects).trans ?_
      unfold emit advance pieceOf
      dsimp only
      split
      · rename_i hlt
        rw [Nat.max_eq_right (Nat.le_of_lt hlt)]
      · rename_i hge
        rw [Nat.max_eq_left (Nat.not_lt.mp hge), List.append_nil]

/-- A text without a marker: all but what is held back is put together. -/
lemma onText_of_find_none (h : Between t request s sofar)
    (hnone : find marker (sofar ++ text) = none) :
    onText t request s text =
      if Rejects t request (released marker (sofar ++ text)) then
        ({ s with pending := heldBack marker (sofar ++ text) },
          some (.rejected (released marker (sofar ++ text))))
      else
        (advance t request { s with pending := heldBack marker (sofar ++ text) }
          (released marker (sofar ++ text)), none) := by
  have hfind : findText toolMarkupMarker (heldBack marker sofar ++ text) = none := by
    rw [findText_eq_find (by decide)]
    rw [find_append h.unmarked] at hnone
    exact Option.map_eq_none_iff.mp hnone
  have hcontent : s.content ++ released marker (heldBack marker sofar ++ text) =
      released marker (sofar ++ text) := by
    rw [h.content, ← released_append]
  unfold onText
  dsimp only
  rw [h.pending, hfind]
  dsimp only
  rw [pendingSize_eq, drop_eq_heldBack, ← released, heldBack_append,
    addSafe_eq (s := { s with pending := heldBack marker (sofar ++ text) }) h.accepted h.sent]
  dsimp only
  rw [hcontent]

/-- A text that completes a marker: what stands before it is put together. -/
lemma onText_of_find_some {place : ℕ} (h : Between t request s sofar)
    (hsome : find marker (sofar ++ text) = some place) :
    onText t request s text =
      if Rejects t request ((sofar ++ text).take place) then
        (s, some (.rejected ((sofar ++ text).take place)))
      else
        ({ advance t request s ((sofar ++ text).take place) with pending := [] },
          some .blocked) := by
  rw [find_append h.unmarked] at hsome
  obtain ⟨inside, hinside, rfl⟩ := Option.map_eq_some_iff.mp hsome
  have hcontent : s.content ++ (heldBack marker sofar ++ text).take inside =
      (sofar ++ text).take (inside + (released marker sofar).length) := by
    have hall : sofar ++ text = released marker sofar ++ (heldBack marker sofar ++ text) := by
      rw [← List.append_assoc, released_append_heldBack]
    rw [h.content, Nat.add_comm, hall, List.take_length_add_append]
  unfold onText
  dsimp only
  rw [h.pending, findText_eq_find (by decide), hinside]
  dsimp only
  rw [addSafe_eq h.accepted h.sent, hcontent]
  by_cases hrejects : Rejects t request
      ((sofar ++ text).take (inside + (released marker sofar).length))
  · rw [if_pos hrejects, if_pos hrejects]
  · rw [if_neg hrejects, if_neg hrejects]

/-- After an accepted text the next chunk can come. -/
lemma between_advance (hnone : find marker (sofar ++ text) = none)
    (haccepted : ¬Rejects t request (released marker (sofar ++ text))) :
    Between t request (advance t request { s with pending := heldBack marker (sofar ++ text) }
      (released marker (sofar ++ text))) (sofar ++ text) where
  unmarked := hnone
  content := rfl
  pending := rfl
  accepted := haccepted
  sent := Nat.le_max_right _ _

lemma not_rejects_nil : ¬Rejects t request [] := by
  simp [Rejects, applyExecutionConsistencyGuard, stripText]

lemma emitEnd_nil : emitEnd t request [] = 0 := by
  unfold emitEnd executionClaimPendingStart
  split <;> simp [casefold, searchSubject]

lemma between_start : Between t request {} [] where
  unmarked := rfl
  content := rfl
  pending := rfl
  accepted := not_rejects_nil
  sent := Nat.le_of_eq emitEnd_nil

/-! ### The whole stream -/

section Course

variable {emitted : ℕ} {applied : Bool} {texts : List (List Char)}

/-- A rejected text ends the stream. -/
lemma course_rejected
    (h : (sendTexts t request emitted (safeTexts sofar texts)).2.2 = some text) :
    course t request emitted sofar texts applied =
      ((sendTexts t request emitted (safeTexts sofar texts)).1, .rejected text) := by
  rw [course, h]

/-- A marker, or a part of it at the end, blocks the stream. -/
lemma course_blocked (h : (sendTexts t request emitted (safeTexts sofar texts)).2.2 = none)
    (hblocked : IsBlocked (sofar ++ texts.flatten)) :
    course t request emitted sofar texts applied =
      ((sendTexts t request emitted (safeTexts sofar texts)).1, .blocked) := by
  rw [course, h]
  exact if_pos hblocked

/-- Otherwise the stream answers with the whole text. -/
lemma course_answered (h : (sendTexts t request emitted (safeTexts sofar texts)).2.2 = none)
    (hopen : ¬IsBlocked (sofar ++ texts.flatten)) :
    course t request emitted sofar texts applied =
      ((sendTexts t request emitted (safeTexts sofar texts)).1 ++
          lastPiece (sendTexts t request emitted (safeTexts sofar texts)).2.1
            (sofar ++ texts.flatten),
        .answered (sofar ++ texts.flatten) applied) := by
  rw [course, h]
  exact if_neg hopen

lemma course_of_rejects (hnone : find marker (sofar ++ text) = none)
    (hrejects : Rejects t request (released marker (sofar ++ text))) :
    course t request emitted sofar (text :: texts) applied =
      ([], .rejected (released marker (sofar ++ text))) := by
  simp [course, safeTexts, hnone, sendTexts, hrejects]

lemma course_of_accepted (hnone : find marker (sofar ++ text) = none)
    (haccepted : ¬Rejects t request (released marker (sofar ++ text))) :
    course t request emitted sofar (text :: texts) applied =
      let rest := course t request
        (max emitted (emitEnd t request (released marker (sofar ++ text)))) (sofar ++ text) texts
        applied
      (pieceOf t request emitted (released marker (sofar ++ text)) ++ rest.1, rest.2) := by
  simp only [course, safeTexts, hnone, sendTexts, if_neg haccepted, List.flatten_cons,
    List.append_assoc]
  split
  · rfl
  · split <;> simp

lemma isBlocked_of_find_some {place : ℕ} (hsome : find marker (sofar ++ text) = some place) :
    IsBlocked (sofar ++ (text :: texts).flatten) := by
  refine .inl ?_
  rw [List.flatten_cons, ← List.append_assoc, find_append_of_some hsome]
  exact Option.some_ne_none place

lemma course_of_find_some {place : ℕ} (hsome : find marker (sofar ++ text) = some place) :
    course t request emitted sofar (text :: texts) applied =
      if Rejects t request ((sofar ++ text).take place) then
        ([], .rejected ((sofar ++ text).take place))
      else (pieceOf t request emitted ((sofar ++ text).take place), .blocked) := by
  simp only [course, safeTexts, hsome, sendTexts, List.append_nil,
    if_pos (isBlocked_of_find_some hsome)]
  by_cases hrejects : Rejects t request ((sofar ++ text).take place)
  · simp only [if_pos hrejects]
  · simp only [if_neg hrejects]

end Course

end Text

section Run

variable {t : TextTables} {request : OutputRequest} {s : StreamState} {sofar : List Char}

/-- The end of the loop, between two chunks. -/
lemma finish_eq (h : Between t request s sofar) :
    finish s = (s.sent ++ (course t request s.emittedLength sofar [] s.postcheckApplied).1,
      (course t request s.emittedLength sofar [] s.postcheckApplied).2) := by
  have hwhole : sofar ++ ([] : List (List Char)).flatten = sofar := List.append_nil sofar
  simp only [course, safeTexts, sendTexts, hwhole]
  unfold finish
  by_cases hheld : heldBack marker sofar = []
  · have hopen : ¬IsBlocked sofar := fun hblocked => hblocked.elim (· h.unmarked) (· hheld)
    have hcontent : s.content = sofar := by
      have hall : released marker sofar ++ heldBack marker sofar = sofar :=
        released_append_heldBack
      rw [hheld, List.append_nil, ← h.content] at hall
      exact hall
    rw [if_neg (by rw [h.pending]; exact not_not_intro hheld), if_neg hopen, hcontent]
    unfold lastPiece
    split <;> simp
  · have hblocked : IsBlocked sofar := .inr hheld
    rw [if_pos (by rw [h.pending]; exact hheld), if_pos hblocked]
    simp

/-- A chunk with a text, when the chunks after it take their course. -/
lemma streamOutput_cons {s' : StreamState} {text chunk : List Char}
    {chunks texts : List (List Char)} (h : Between t request s' sofar)
    (hchunk : onChunk t request s chunk = onText t request s' text)
    (ih : ∀ s'' : StreamState, Between t request s'' (sofar ++ text) →
      s''.firstChunkSeen = s'.firstChunkSeen → s''.postcheckApplied = s'.postcheckApplied →
      streamOutput t request s'' chunks =
        (s''.sent ++ (course t request s''.emittedLength (sofar ++ text) texts
            s''.postcheckApplied).1,
          (course t request s''.emittedLength (sofar ++ text) texts s''.postcheckApplied).2)) :
    streamOutput t request s (chunk :: chunks) =
      (s'.sent ++ (course t request s'.emittedLength sofar (text :: texts)
          s'.postcheckApplied).1,
        (course t request s'.emittedLength sofar (text :: texts) s'.postcheckApplied).2) := by
  rw [streamOutput, hchunk]
  cases hfind : find marker (sofar ++ text) with
  | some place =>
    rw [onText_of_find_some h hfind, course_of_find_some hfind]
    by_cases hrejects : Rejects t request ((sofar ++ text).take place)
    · rw [if_pos hrejects, if_pos hrejects, List.append_nil]
    · rw [if_neg hrejects, if_neg hrejects]
      rfl
  | none =>
    rw [onText_of_find_none h hfind]
    by_cases hrejects : Rejects t request (released marker (sofar ++ text))
    · rw [if_pos hrejects, course_of_rejects hfind hrejects, List.append_nil]
    · rw [if_neg hrejects, course_of_accepted hfind hrejects]
      dsimp only
      rw [ih _ (between_advance hfind hrejects) rfl rfl, ← List.append_assoc]
      rfl

/-- After the first chunk a stream takes its course. -/
lemma streamOutput_seen (chunks : List (List Char)) (h : Between t request s sofar)
    (hseen : s.firstChunkSeen = true) :
    streamOutput t request s chunks =
      (s.sent ++ (course t request s.emittedLength sofar (textsOf true chunks)
          s.postcheckApplied).1,
        (course t request s.emittedLength sofar (textsOf true chunks) s.postcheckApplied).2) := by
  induction chunks generalizing s sofar with
  | nil => exact finish_eq h
  | cons chunk chunks ih =>
    by_cases hnil : chunk = []
    · rw [streamOutput, onChunk, if_pos hnil, textsOf, if_pos hnil]
      exact ih h hseen
    · rw [textsOf, if_neg hnil, if_pos rfl]
      refine streamOutput_cons h ?_ fun s'' h'' hseen'' _ => ih h'' (hseen''.trans hseen)
      rw [onChunk, if_neg hnil, if_pos hseen]

/-- A stream takes its course. -/
theorem streamOutput_eq (t : TextTables) (request : OutputRequest) (chunks : List (List Char)) :
    ∃ applied, streamOutput t request {} chunks =
      course t request 0 [] (textsOf false chunks) applied := by
  induction chunks with
  | nil =>
    refine ⟨false, ?_⟩
    exact finish_eq (show Between t request {} [] from between_start)
  | cons chunk chunks ih =>
    by_cases hnil : chunk = []
    · rw [streamOutput, onChunk, if_pos hnil, textsOf, if_pos hnil]
      exact ih
    · have hstart : Between t request
          { firstChunkSeen := true, postcheckApplied := (stripHollowPrefix chunk).1 } [] :=
        ⟨rfl, rfl, rfl, not_rejects_nil, Nat.le_of_eq emitEnd_nil⟩
      refine ⟨(stripHollowPrefix chunk).1, ?_⟩
      rw [textsOf, if_neg hnil, if_neg Bool.false_ne_true]
      by_cases hempty : (stripHollowPrefix chunk).2 = []
      · rw [streamOutput, onChunk, if_neg hnil, if_neg Bool.false_ne_true]
        dsimp only
        rw [if_pos hempty, if_pos hempty]
        exact streamOutput_seen chunks hstart rfl
      · rw [if_neg hempty]
        refine streamOutput_cons hstart ?_ fun s'' h'' hseen'' _ =>
          streamOutput_seen chunks h'' hseen''
        rw [onChunk, if_neg hnil, if_neg Bool.false_ne_true]
        dsimp only
        rw [if_neg hempty]

end Run

end Trion.Output
