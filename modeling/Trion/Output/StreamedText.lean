import Trion.Output.StreamedAnswer

/-!
# What a stream has sent

A stream sends the answer up to the subject of a claim in the making.  It looks for a whole
subject in the case folded text, and for the start of one in its last eight characters.  So the
subject can stand behind the end of the text, where folding makes the text longer, and what comes
next is cut off; and a subject with much white space in it can be missed, and is sent before the
guard rejects the claim.  Where neither happens, nothing is sent that is taken back.
-/

namespace Trion.Output

open Trion.Python Markers

/-- The text of the pieces. -/
def sentText (pieces : List SentPiece) : List Char := (pieces.map SentPiece.text).flatten

section Sending

variable (t : TextTables) (request : OutputRequest) (chunks : List (List Char))

/-- Nothing that has been sent is taken back: it never holds the marker, never reaches into a
claim of a text that the guard rejects, and is the answer where there is one. -/
structure NothingWithdrawn : Prop where
  unmarked (sent : ℕ) : ¬IsMarked (sentText ((streamOutput t request {} chunks).1.take sent))
  beforeClaims (rejected : List Char) :
    (streamOutput t request {} chunks).2 = .rejected rejected →
      ∀ place, IsClaimStart t rejected place →
        ∀ piece ∈ (streamOutput t request {} chunks).1, piece.text ≠ [] →
          piece.start + piece.text.length ≤ place
  whole (content : List Char) (applied : Bool) :
    (streamOutput t request {} chunks).2 = .answered content applied →
      sentText (streamOutput t request {} chunks).1 = content

/-- The texts that are put together before the guard rejects one. -/
def acceptedTexts : List (List Char) :=
  (safeTexts [] (textsOf false chunks)).takeWhile fun text => ¬Rejects t request text

/-- The first text that the guard rejects. -/
def rejectedText : Option (List Char) :=
  (safeTexts [] (textsOf false chunks)).find? fun text => Rejects t request text

/-- A whole subject begins at the place of the case folded text. -/
def BeginsSubject (text : List Char) (place : ℕ) : Prop :=
  ∃ before rest, casefold t text = before ++ rest ∧ before.length = place ∧
    subjectAt t before.getLast? rest = true

/-- At the place of the case folded text, one of its last eight, begins the start of a subject. -/
def EndsInSubject (text : List Char) (place : ℕ) : Prop :=
  ∃ before rest, casefold t text = before ++ rest ∧ before.length = place ∧ rest.length ≤ 8 ∧
    before.getLast?.any t.isAlnum = false ∧
    ((collapseSpaces false rest.zipIdx).map Prod.fst ≠ [] ∧
      ∃ subject ∈ positiveExecutionSubjects,
        (collapseSpaces false rest.zipIdx).map Prod.fst <+: subject)

/-- A subject begins at the place, or, if there is no whole one in the text, the start of one. -/
def SubjectSeen (text : List Char) (place : ℕ) : Prop :=
  BeginsSubject t text place ∨ (∀ other, ¬BeginsSubject t text other) ∧ EndsInSubject t text place

/-- A text with a subject in it has one that begins, case folded, before its end; except the
longest text. -/
def SubjectsInText (texts : List (List Char)) : Prop :=
  ∀ text ∈ texts, (∃ place, SubjectSeen t text place) →
    (∃ place ≤ text.length, SubjectSeen t text place) ∨
      ∀ other ∈ texts, other.length ≤ text.length

/-- Of each claim that the guard will reject, every text that reaches into it shows the subject, not
behind the start of the claim: as a whole, or its start in the last eight characters. -/
def SubjectsSeen : Prop :=
  ∀ rejected, rejectedText t request chunks = some rejected →
    ∀ start, IsClaimStart t rejected start →
      ∀ text ∈ acceptedTexts t request chunks, start < text.length →
        ∃ place ≤ start, SubjectSeen t text place

/-- The place that the search gives lies in the text, except after the longest. -/
def PlacesInText (texts : List (List Char)) : Prop :=
  ∀ text ∈ texts, emitEnd t request text ≤ text.length ∨
    ∀ other ∈ texts, other.length ≤ text.length

/-- The search sees each claim that the guard will reject, in every text that reaches into it. -/
def SeesClaims : Prop :=
  ∀ rejected, rejectedText t request chunks = some rejected →
    ∀ place, IsClaimStart t rejected place →
      ∀ text ∈ acceptedTexts t request chunks,
        text.length ≤ place ∨ emitEnd t request text ≤ place

end Sending

/-! ### The search for a subject -/

section Search

variable {t : TextTables} {request : OutputRequest} {text folded : List Char} {place : ℕ}
  {before : Option Char}

/-- The character before the rest of a text behind one. -/
def lastOr (before : Option Char) (cs : List Char) : Option Char := cs.getLast?.or before

lemma lastOr_cons {c : Char} {cs : List Char} : lastOr before (c :: cs) = lastOr (some c) cs := by
  cases cs <;> simp [lastOr, List.getLast?_cons]

/-- The search finds the first subject. -/
lemma searchSubject_spec (before : Option Char) (folded : List Char) :
    (∀ start, searchSubject t before folded = some start →
      ∃ us vs, folded = us ++ vs ∧ us.length = start ∧ subjectAt t (lastOr before us) vs = true) ∧
    ∀ us vs, folded = us ++ vs → subjectAt t (lastOr before us) vs = true →
      ∃ start ≤ us.length, searchSubject t before folded = some start := by
  induction folded generalizing before with
  | nil =>
    refine ⟨nofun, fun us vs heq hat => ?_⟩
    obtain ⟨rfl, rfl⟩ := List.append_eq_nil_iff.mp heq.symm
    exact absurd hat (by simp [subjectAt])
  | cons c cs ih =>
    rw [searchSubject]
    by_cases hhere : subjectAt t before (c :: cs) = true
    · rw [if_pos hhere]
      refine ⟨fun start hstart => ?_, fun us vs _ _ => ⟨0, Nat.zero_le _, rfl⟩⟩
      obtain rfl := Option.some.inj hstart
      exact ⟨[], c :: cs, rfl, rfl, hhere⟩
    · rw [if_neg hhere]
      obtain ⟨hfound, hfirst⟩ := ih (some c)
      constructor
      · intro start hstart
        obtain ⟨later, hlater, rfl⟩ := Option.map_eq_some_iff.mp hstart
        obtain ⟨us, vs, rfl, rfl, hat⟩ := hfound later hlater
        exact ⟨c :: us, vs, rfl, rfl, by rwa [lastOr_cons]⟩
      · intro us vs heq hat
        cases us with
        | nil =>
          obtain rfl : vs = c :: cs := heq.symm
          exact absurd hat hhere
        | cons u us =>
          obtain ⟨rfl, rfl⟩ := List.cons.inj heq
          rw [lastOr_cons] at hat
          obtain ⟨start, hle, hstart⟩ := hfirst us vs rfl hat
          exact ⟨start + 1, Nat.succ_le_succ hle, by rw [hstart]; rfl⟩

lemma searchSubject_eq_some (h : searchSubject t none (casefold t text) = some place) :
    BeginsSubject t text place := by
  obtain ⟨us, vs, heq, hlen, hat⟩ := (searchSubject_spec none _).1 place h
  exact ⟨us, vs, heq, hlen, by simpa [lastOr] using hat⟩

lemma exists_searchSubject (h : BeginsSubject t text place) :
    ∃ start ≤ place, searchSubject t none (casefold t text) = some start := by
  obtain ⟨us, vs, heq, rfl, hat⟩ := h
  exact (searchSubject_spec none _).2 us vs heq (by simpa [lastOr] using hat)

/-- The places at which the end of a text is looked at. -/
lemma startsSubject_iff : (place ∈ List.range' (folded.length + 1 - 9)
      (folded.length - (folded.length + 1 - 9)) ∧ startsSubject t folded place = true) ↔
    ∃ us vs, folded = us ++ vs ∧ us.length = place ∧ vs.length ≤ 8 ∧
      us.getLast?.any t.isAlnum = false ∧
      ((collapseSpaces false vs.zipIdx).map Prod.fst ≠ [] ∧
        ∃ subject ∈ positiveExecutionSubjects,
          (collapseSpaces false vs.zipIdx).map Prod.fst <+: subject) := by
  have hlast : ∀ place ≤ folded.length, (folded.take place).getLast?.any t.isAlnum =
      (decide (0 < place) && (folded[place - 1]?).any t.isAlnum) := by
    intro place hle
    cases place with
    | zero => rfl
    | succ place =>
      rw [List.getLast?_take, if_neg (Nat.succ_ne_zero place), Nat.add_sub_cancel,
        List.getElem?_eq_getElem hle]
      simp
  constructor
  · rintro ⟨hrange, hstarts⟩
    rw [List.mem_range'_1] at hrange
    simp only [startsSubject, Bool.and_eq_true, Bool.not_eq_true'] at hstarts
    obtain ⟨hbefore, hstarts⟩ := hstarts
    refine ⟨folded.take place, folded.drop place, (List.take_append_drop _ _).symm, ?_, ?_, ?_, ?_⟩
    · rw [List.length_take]
      omega
    · rw [List.length_drop]
      omega
    · rw [hlast place (by omega)]
      exact hbefore
    · simpa using hstarts
  · rintro ⟨us, vs, rfl, rfl, hlen, hbefore, hne, hstarts⟩
    have hvs : vs ≠ [] := by
      rintro rfl
      exact hne rfl
    have hpos := List.length_pos_iff.mpr hvs
    refine ⟨List.mem_range'_1.mpr ?_, ?_⟩
    · rw [List.length_append]
      omega
    · have hle : us.length ≤ (us ++ vs).length := by simp
      have hbefore' := hlast us.length hle
      rw [List.take_left, hbefore] at hbefore'
      simp only [startsSubject, List.drop_left, ← hbefore']
      simpa using And.intro (fun hnil => hne (by rw [hnil]; rfl)) hstarts

/-- The search gives the first place at which a subject is seen. -/
lemma executionClaimPendingStart_spec (hrequest : hasPositiveExecutionEvidence request = false) :
    (∀ start, executionClaimPendingStart t request text = some start → SubjectSeen t text start) ∧
      ∀ place, SubjectSeen t text place →
        ∃ start ≤ place, executionClaimPendingStart t request text = some start := by
  unfold executionClaimPendingStart
  rw [hrequest, if_neg Bool.false_ne_true]
  dsimp only
  cases hsearch : searchSubject t none (casefold t text) with
  | some start =>
    refine ⟨fun other heq => ?_, fun place hseen => ⟨start, ?_, rfl⟩⟩
    · obtain rfl := Option.some.inj heq
      exact .inl (searchSubject_eq_some hsearch)
    · rcases hseen with hbegins | ⟨hnone, -⟩
      · obtain ⟨first, hle, hfirst⟩ := exists_searchSubject hbegins
        rw [hsearch] at hfirst
        exact Option.some.inj hfirst ▸ hle
      · exact absurd (searchSubject_eq_some hsearch) (hnone start)
  | none =>
    have hnone : ∀ other, ¬BeginsSubject t text other := by
      intro other hbegins
      obtain ⟨start, -, hstart⟩ := exists_searchSubject hbegins
      rw [hsearch] at hstart
      cases hstart
    constructor
    · intro start hstart
      exact .inr ⟨hnone, startsSubject_iff.mp
        ⟨List.mem_of_find?_eq_some hstart, List.find?_some hstart⟩⟩
    · rintro place (hbegins | ⟨-, hends⟩)
      · exact absurd hbegins (hnone place)
      · obtain ⟨hmem, hstarts⟩ := startsSubject_iff.mpr hends
        obtain ⟨start, hstart⟩ := Option.isSome_iff_exists.mp
          (List.find?_isSome.mpr ⟨place, hmem, hstarts⟩)
        refine ⟨start, ?_, hstart⟩
        by_contra hlater
        have hfirst := (List.find?_range'_eq_some.mp hstart).2.2 place (List.mem_range'_1.mp hmem).1
          (Nat.not_le.mp hlater)
        rw [hstarts] at hfirst
        cases hfirst

lemma SubjectSeen.le_length (h : SubjectSeen t text place) :
    place ≤ (casefold t text).length := by
  rcases h with ⟨us, vs, heq, rfl, -⟩ | ⟨-, us, vs, heq, rfl, -⟩
  · rw [heq, List.length_append]
    exact Nat.le_add_right _ _
  · rw [heq, List.length_append]
    exact Nat.le_add_right _ _

/-- Where folding makes no character longer, every subject begins in its text. -/
lemma subjectsInText_of_fold {texts : List (List Char)}
    (h : ∀ text ∈ texts, ∀ c ∈ text, (t.fold c).length ≤ 1) : SubjectsInText t texts := by
  rintro text htext ⟨place, hseen⟩
  refine .inl ⟨place, hseen.le_length.trans ?_, hseen⟩
  have hfold : ∀ cs : List Char, (∀ c ∈ cs, (t.fold c).length ≤ 1) →
      (casefold t cs).length ≤ cs.length := by
    intro cs hcs
    induction cs with
    | nil => exact Nat.le_refl _
    | cons c cs ih =>
      rw [List.forall_mem_cons] at hcs
      have hrest := ih hcs.2
      have hfirst := hcs.1
      rw [casefold] at hrest ⊢
      rw [List.flatMap_cons, List.length_append, List.length_cons]
      omega
  exact hfold text (h text htext)

/-- The places lie in their texts where the subjects do. -/
lemma placesInText_iff (hrequest : hasPositiveExecutionEvidence request = false)
    {texts : List (List Char)} : PlacesInText t request texts ↔ SubjectsInText t texts := by
  refine forall₂_congr fun text _ => ?_
  obtain ⟨hgiven, hfirst⟩ :=
    @executionClaimPendingStart_spec t request text hrequest
  unfold emitEnd
  cases hstart : executionClaimPendingStart t request text with
  | none =>
    refine iff_of_true (.inl le_rfl) ?_
    rintro ⟨place, hseen⟩
    obtain ⟨start, -, hsome⟩ := hfirst place hseen
    rw [hstart] at hsome
    cases hsome
  | some start =>
    rw [Option.getD_some]
    constructor
    · exact fun h _ => h.imp_left fun hle => ⟨start, hle, hgiven start hstart⟩
    · intro h
      refine (h ⟨start, hgiven start hstart⟩).imp_left ?_
      rintro ⟨place, hle, hseen⟩
      obtain ⟨other, hother, hsome⟩ := hfirst place hseen
      rw [hstart] at hsome
      exact (Option.some.inj hsome ▸ hother).trans hle

/-- The search sees the claims where their subjects are seen. -/
lemma seesClaims_iff (hrequest : hasPositiveExecutionEvidence request = false)
    {chunks : List (List Char)} : SeesClaims t request chunks ↔ SubjectsSeen t request chunks := by
  refine forall₂_congr fun rejected _ => forall₂_congr fun claim _ => forall₂_congr fun text _ => ?_
  obtain ⟨hgiven, hfirst⟩ :=
    @executionClaimPendingStart_spec t request text hrequest
  unfold emitEnd
  constructor
  · intro h hreaches
    cases hstart : executionClaimPendingStart t request text with
    | none =>
      rw [hstart] at h
      exact absurd hreaches (not_lt.mpr (h.elim id id))
    | some start =>
      rw [hstart] at h
      exact ⟨start, h.resolve_left (not_le.mpr hreaches), hgiven start hstart⟩
  · intro h
    rcases Nat.lt_or_ge claim text.length with hreaches | hbefore
    · obtain ⟨place, hle, hseen⟩ := h hreaches
      obtain ⟨start, hstart, hsome⟩ := hfirst place hseen
      rw [hsome]
      exact .inr (hstart.trans hle)
    · exact .inl hbefore

end Search

/-! ### The texts on the way -/

section Texts

variable {sofar text whole : List Char} {texts : List (List Char)}

lemma released_prefix : released marker sofar <+: sofar := List.take_prefix _ _

lemma find_take_eq_none {place : ℕ} (h : find marker text = some place) :
    find marker (text.take place) = none := by
  cases hfind : find marker (text.take place) with
  | none => rfl
  | some other =>
    have hagain : find marker (text.take place ++ text.drop place) = some other :=
      find_append_of_some hfind
    rw [List.take_append_drop, h] at hagain
    have hlen := length_le_of_find hfind
    have hpos : 0 < marker.length := by decide
    rw [List.length_take, ← Option.some.inj hagain] at hlen
    omega

lemma find_prefix_eq_none (h : find marker whole = none) (hpre : text <+: whole) :
    find marker text = none := by
  obtain ⟨rest, rfl⟩ := hpre
  cases hfind : find marker text with
  | none => rfl
  | some place => exact absurd (find_append_of_some hfind) (by rw [h]; exact nofun)

/-- Each text on the way goes on where the last one ended, is a start of the whole and holds no
marker. -/
lemma safeTexts_spec (hsofar : find marker sofar = none) (hmem : text ∈ safeTexts sofar texts) :
    released marker sofar <+: text ∧ text <+: sofar ++ texts.flatten ∧
      find marker text = none := by
  induction texts generalizing sofar with
  | nil => exact absurd hmem List.not_mem_nil
  | cons next texts ih =>
    rw [safeTexts] at hmem
    rw [List.flatten_cons, ← List.append_assoc]
    cases hfind : find marker (sofar ++ next) with
    | some place =>
      rw [hfind, List.mem_singleton] at hmem
      have hplace := hfind
      rw [find_append hsofar] at hplace
      obtain ⟨inside, -, hinside⟩ := Option.map_eq_some_iff.mp hplace
      subst hmem
      refine ⟨List.prefix_take_iff.mpr ⟨?_, by omega⟩, ?_, find_take_eq_none hfind⟩
      · exact released_prefix.trans (List.prefix_append _ _)
      · exact (List.take_prefix _ _).trans (List.prefix_append _ _)
    | none =>
      rw [hfind, List.mem_cons] at hmem
      have hgo : released marker sofar <+: released marker (sofar ++ next) := by
        rw [released_append]
        exact List.prefix_append _ _
      rcases hmem with rfl | hmem
      · exact ⟨hgo, released_prefix.trans (List.prefix_append _ _),
          find_prefix_eq_none hfind released_prefix⟩
      · obtain ⟨hstart, hrest⟩ := ih hfind hmem
        exact ⟨hgo.trans hstart, hrest⟩

/-- The texts on the way go on from one to the next. -/
lemma safeTexts_pairwise (hsofar : find marker sofar = none) :
    (safeTexts sofar texts).Pairwise (· <+: ·) := by
  induction texts generalizing sofar with
  | nil => exact List.Pairwise.nil
  | cons next texts ih =>
    rw [safeTexts]
    cases hfind : find marker (sofar ++ next) with
    | some place => exact List.pairwise_singleton _ _
    | none =>
      exact List.pairwise_cons.mpr ⟨fun other hother => (safeTexts_spec hfind hother).1, ih hfind⟩

/-- The whole text is put together, if nothing of it is held back. -/
lemma mem_safeTexts_whole (hopen : ¬IsBlocked (sofar ++ texts.flatten)) (hne : texts ≠ []) :
    sofar ++ texts.flatten ∈ safeTexts sofar texts := by
  induction texts generalizing sofar with
  | nil => exact absurd rfl hne
  | cons next texts ih =>
    rw [List.flatten_cons, ← List.append_assoc] at hopen ⊢
    have hwhole : find marker (sofar ++ next ++ texts.flatten) = none := by
      by_contra hmarked
      exact hopen (.inl hmarked)
    rw [safeTexts, find_prefix_eq_none hwhole (List.prefix_append _ _)]
    by_cases hnil : texts = []
    · subst hnil
      rw [List.flatten_nil, List.append_nil] at hopen ⊢
      have hheld : heldBack marker (sofar ++ next) = [] := by
        by_contra hheld
        exact hopen (.inr hheld)
      have hall : released marker (sofar ++ next) ++ heldBack marker (sofar ++ next) =
          sofar ++ next := released_append_heldBack
      rw [hheld, List.append_nil] at hall
      rw [hall]
      exact List.mem_cons_self
    · exact List.mem_cons_of_mem _ (ih hopen hnil)

end Texts

/-! ### What is sent of the texts -/

section Sent

variable {t : TextTables} {request : OutputRequest} {text whole : List Char}
  {texts : List (List Char)} {emitted place : ℕ}

@[simp] lemma sentText_nil : sentText [] = [] := rfl

@[simp] lemma sentText_append {pieces later : List SentPiece} :
    sentText (pieces ++ later) = sentText pieces ++ sentText later := by
  simp [sentText]

lemma sentText_take_prefix {pieces : List SentPiece} {n : ℕ} :
    sentText (pieces.take n) <+: sentText pieces := by
  refine ⟨sentText (pieces.drop n), ?_⟩
  rw [← sentText_append, List.take_append_drop]

lemma sendTexts_of_accepted (h : ¬Rejects t request text) :
    sendTexts t request emitted (text :: texts) =
      (pieceOf t request emitted text ++
          (sendTexts t request (max emitted (emitEnd t request text)) texts).1,
        (sendTexts t request (max emitted (emitEnd t request text)) texts).2) :=
  if_neg h

/-- What is sent is sent of the accepted texts. -/
lemma sendTexts_eq (t : TextTables) (request : OutputRequest) (emitted : ℕ) (texts : List (List Char)) :
    (sendTexts t request emitted texts).1 =
        (sendTexts t request emitted (texts.takeWhile fun text => ¬Rejects t request text)).1 ∧
      (sendTexts t request emitted texts).2.1 =
        (sendTexts t request emitted (texts.takeWhile fun text => ¬Rejects t request text)).2.1 ∧
      (sendTexts t request emitted texts).2.2 =
        texts.find? fun text => Rejects t request text := by
  induction texts generalizing emitted with
  | nil => exact ⟨rfl, rfl, rfl⟩
  | cons text texts ih =>
    by_cases h : Rejects t request text
    · simp [sendTexts, h]
    · obtain ⟨hpieces, hlength, hrejected⟩ := ih (max emitted (emitEnd t request text))
      rw [List.takeWhile_cons_of_pos (by simpa using h), List.find?_cons_of_neg (by simpa using h),
        sendTexts_of_accepted h, sendTexts_of_accepted h]
      exact ⟨congrArg (pieceOf t request emitted text ++ ·) hpieces, hlength, hrejected⟩

/-- A piece goes on with the text where the sent part of it ends. -/
lemma take_append_pieceOf :
    text.take emitted ++ sentText (pieceOf t request emitted text) =
      text.take (max emitted (emitEnd t request text)) := by
  unfold pieceOf
  split
  · rename_i hlt
    have hshort : text.take emitted = (text.take (emitEnd t request text)).take emitted := by
      rw [List.take_take, Nat.min_eq_left (Nat.le_of_lt hlt)]
    rw [Nat.max_eq_right (Nat.le_of_lt hlt), hshort]
    simp [sentText]
  · rename_i hge
    rw [Nat.max_eq_left (Nat.not_lt.mp hge), sentText_nil, List.append_nil]

lemma take_of_begins (hpre : text <+: whole) (h : place ≤ text.length) :
    whole.take place = text.take place := by
  obtain ⟨rest, rfl⟩ := hpre
  exact List.take_append_of_le_length h

/-- If no place lies behind a text that is shorter than the whole, what is sent is a start of
the whole. -/
lemma take_append_sendTexts (emitted : ℕ) (hacc : ∀ text ∈ texts, ¬Rejects t request text)
    (hchain : texts.Pairwise (· <+: ·)) (hwhole : ∀ text ∈ texts, text <+: whole)
    (hplaces : ∀ text ∈ texts, emitEnd t request text ≤ text.length ∨
      whole.length ≤ text.length)
    (hsent : ∀ text ∈ texts, emitted ≤ text.length ∨ whole.length ≤ emitted) :
    whole.take emitted ++ sentText (sendTexts t request emitted texts).1 =
      whole.take (sendTexts t request emitted texts).2.1 := by
  induction texts generalizing emitted with
  | nil => simp [sendTexts]
  | cons text texts ih =>
    simp only [List.forall_mem_cons, List.pairwise_cons] at hacc hchain hwhole hplaces hsent
    rw [sendTexts_of_accepted hacc.1, sentText_append, ← List.append_assoc]
    have hpiece : whole.take emitted ++ sentText (pieceOf t request emitted text) =
        whole.take (max emitted (emitEnd t request text)) := by
      rcases hsent.1 with hle | hall
      · rcases hplaces.1 with hplace | hlong
        · rw [take_of_begins hwhole.1 hle, take_append_pieceOf,
            take_of_begins hwhole.1 (Nat.max_le.mpr ⟨hle, hplace⟩)]
        · rw [← hwhole.1.eq_of_length_le hlong, take_append_pieceOf]
      · have hshort := hwhole.1.length_le
        have hnothing : text.take emitted ++ sentText (pieceOf t request emitted text) =
            text.take (max emitted (emitEnd t request text)) := take_append_pieceOf
        rw [List.take_of_length_le (by omega), List.take_of_length_le (by omega)] at hnothing
        rw [List.append_right_eq_self.mp hnothing, List.append_nil,
          List.take_of_length_le hall, List.take_of_length_le (by omega)]
    rw [hpiece]
    refine ih _ hacc.2 hchain.2 hwhole.2 hplaces.2 fun later hlater => ?_
    have hle := (hchain.1 later hlater).length_le
    omega

lemma length_pieceOf :
    (sentText (pieceOf t request emitted text)).length =
      min (emitEnd t request text) text.length - emitted := by
  unfold pieceOf
  split
  · simp [sentText]
  · rename_i hge
    rw [sentText_nil, List.length_nil]
    omega

/-- No more is sent of the texts than stands behind what has been sent. -/
lemma length_sendTexts_le (emitted : ℕ) (hacc : ∀ text ∈ texts, ¬Rejects t request text)
    (hwhole : ∀ text ∈ texts, text.length ≤ whole.length) :
    (sentText (sendTexts t request emitted texts).1).length +
        (whole.length - (sendTexts t request emitted texts).2.1) ≤ whole.length - emitted := by
  induction texts generalizing emitted with
  | nil => simp [sendTexts]
  | cons text texts ih =>
    simp only [List.forall_mem_cons] at hacc hwhole
    rw [sendTexts_of_accepted hacc.1, sentText_append, List.length_append, length_pieceOf]
    dsimp only
    have hrest := ih (max emitted (emitEnd t request text)) hacc.2 hwhole.2
    have hle := hwhole.1
    omega

/-- Behind a place that lies behind its text, something of a longer text gets lost. -/
lemma length_sendTexts_lt (emitted : ℕ) (hacc : ∀ text ∈ texts, ¬Rejects t request text)
    (hchain : texts.Pairwise (· <+: ·)) (hwhole : ∀ text ∈ texts, text.length ≤ whole.length)
    (hsent : ∀ text ∈ texts, emitted ≤ text.length)
    (hlost : ∃ text ∈ texts, text.length < emitEnd t request text ∧ text.length < whole.length) :
    emitted + (sentText (sendTexts t request emitted texts).1).length +
        (whole.length - (sendTexts t request emitted texts).2.1) < whole.length := by
  induction texts generalizing emitted with
  | nil => exact absurd hlost (by simp)
  | cons text texts ih =>
    simp only [List.forall_mem_cons, List.pairwise_cons] at hacc hchain hwhole hsent
    rw [sendTexts_of_accepted hacc.1, sentText_append, List.length_append, length_pieceOf]
    dsimp only
    have hle := hsent.1
    have hrest := length_sendTexts_le (max emitted (emitEnd t request text))
      hacc.2 hwhole.2
    rcases Nat.lt_or_ge text.length (emitEnd t request text) with hbehind | hplace
    · -- the place of this text lies behind it, so this text has to be shorter than the whole
      have hshort : text.length < whole.length := by
        obtain ⟨lost, hmem, -, hshort⟩ := hlost
        rcases List.mem_cons.mp hmem with rfl | hmem
        · exact hshort
        · exact Nat.lt_of_le_of_lt (hchain.1 lost hmem).length_le hshort
      omega
    · have htail : ∃ text ∈ texts,
          text.length < emitEnd t request text ∧ text.length < whole.length := by
        obtain ⟨lost, hmem, hbehind, hshort⟩ := hlost
        rcases List.mem_cons.mp hmem with rfl | hmem
        · omega
        · exact ⟨lost, hmem, hbehind, hshort⟩
      have hgo := ih (max emitted (emitEnd t request text)) hacc.2 hchain.2 hwhole.2
        (fun later hlater => by
          have hnext := (hchain.1 later hlater).length_le
          omega) htail
      omega

lemma eq_of_mem_pieceOf {piece : SentPiece} (h : piece ∈ pieceOf t request emitted text) :
    piece = ⟨emitted, (text.take (emitEnd t request text)).drop emitted⟩ := by
  unfold pieceOf at h
  split at h
  · exact List.mem_singleton.mp h
  · exact absurd h List.not_mem_nil

/-- A text that is sent beyond a place has a piece that reaches beyond it. -/
lemma exists_piece (emitted : ℕ) (hacc : ∀ text ∈ texts, ¬Rejects t request text)
    (hplaces : PlacesInText t request texts) (hsent : emitted ≤ place)
    (hbeyond : ∃ text ∈ texts, place < text.length ∧ place < emitEnd t request text) :
    ∃ piece ∈ (sendTexts t request emitted texts).1, piece.text ≠ [] ∧
      place < piece.start + piece.text.length := by
  induction texts generalizing emitted with
  | nil => exact absurd hbeyond (by simp)
  | cons text texts ih =>
    simp only [List.forall_mem_cons] at hacc
    rw [sendTexts_of_accepted hacc.1]
    have hlen : ((text.take (emitEnd t request text)).drop emitted).length =
        min (emitEnd t request text) text.length - emitted := by
      rw [List.length_drop, List.length_take]
    by_cases hhere : place < text.length ∧ place < emitEnd t request text
    · refine ⟨⟨emitted, (text.take (emitEnd t request text)).drop emitted⟩,
        List.mem_append_left _ ?_, ?_, ?_⟩
      · rw [pieceOf, if_pos (by omega)]
        exact List.mem_singleton_self _
      · dsimp only
        exact List.ne_nil_of_length_pos (by omega)
      · dsimp only
        omega
    · obtain ⟨later, hmem, hlater⟩ := hbeyond
      rcases List.mem_cons.mp hmem with rfl | hmem
      · exact absurd hlater hhere
      · have hle : emitEnd t request text ≤ place := by
          rcases hplaces text List.mem_cons_self with hplace | hlongest
          · omega
          · have hshort := hlongest later (List.mem_cons_of_mem _ hmem)
            omega
        obtain ⟨piece, hpiece, hreach⟩ := ih (max emitted (emitEnd t request text))
          hacc.2
          (fun other hother => (hplaces other (List.mem_cons_of_mem _ hother)).imp_right
            fun hlongest third hthird => hlongest third (List.mem_cons_of_mem _ hthird))
          (Nat.max_le.mpr ⟨hsent, hle⟩) ⟨later, hmem, hlater⟩
        exact ⟨piece, List.mem_append_right _ hpiece, hreach⟩

/-- A text that is not sent beyond a place has no piece that reaches beyond it. -/
lemma piece_le (hacc : ∀ text ∈ texts, ¬Rejects t request text)
    (hbelow : ∀ text ∈ texts, text.length ≤ place ∨ emitEnd t request text ≤ place)
    {piece : SentPiece} (hpiece : piece ∈ (sendTexts t request emitted texts).1)
    (hne : piece.text ≠ []) : piece.start + piece.text.length ≤ place := by
  induction texts generalizing emitted with
  | nil => exact absurd hpiece List.not_mem_nil
  | cons text texts ih =>
    simp only [List.forall_mem_cons] at hacc hbelow
    rw [sendTexts_of_accepted hacc.1] at hpiece
    rcases List.mem_append.mp hpiece with hhere | hlater
    · have hpos := List.length_pos_iff.mpr hne
      rw [eq_of_mem_pieceOf hhere] at hpos ⊢
      dsimp only at hpos ⊢
      rw [List.length_drop, List.length_take] at hpos ⊢
      have hle := hbelow.1
      omega
    · exact ih hacc.2 hbelow.2 hlater

end Sent

/-! ### The whole stream -/

section Stream

variable {t : TextTables} {request : OutputRequest} {chunks : List (List Char)}

lemma not_rejects_of_mem {text : List Char} (h : text ∈ acceptedTexts t request chunks) :
    ¬Rejects t request text := by
  simpa using List.mem_takeWhile_imp h

lemma acceptedTexts_sublist :
    List.Sublist (acceptedTexts t request chunks) (safeTexts [] (textsOf false chunks)) :=
  (List.takeWhile_prefix _).sublist

/-- The accepted texts are starts of what is put together, without a marker. -/
lemma acceptedTexts_spec {text : List Char} (h : text ∈ acceptedTexts t request chunks) :
    text <+: joinedText chunks ∧ find marker text = none :=
  (safeTexts_spec rfl (acceptedTexts_sublist.subset h)).2

lemma acceptedTexts_pairwise : (acceptedTexts t request chunks).Pairwise (· <+: ·) :=
  (safeTexts_pairwise rfl).sublist acceptedTexts_sublist

/-- The three ways a stream can take. -/
lemma streamOutput_cases (t : TextTables) (request : OutputRequest) (chunks : List (List Char)) :
    (∃ rejected, rejectedText t request chunks = some rejected ∧
      streamOutput t request {} chunks =
        ((sendTexts t request 0 (acceptedTexts t request chunks)).1, .rejected rejected)) ∨
    rejectedText t request chunks = none ∧ IsBlocked (joinedText chunks) ∧
      streamOutput t request {} chunks =
        ((sendTexts t request 0 (acceptedTexts t request chunks)).1, .blocked) ∨
    rejectedText t request chunks = none ∧ ¬IsBlocked (joinedText chunks) ∧
      ∃ applied, streamOutput t request {} chunks =
        ((sendTexts t request 0 (acceptedTexts t request chunks)).1 ++
          lastPiece (sendTexts t request 0 (acceptedTexts t request chunks)).2.1
            (joinedText chunks), .answered (joinedText chunks) applied) := by
  obtain ⟨applied, hcourse⟩ := streamOutput_eq t request chunks
  obtain ⟨hpieces, hlength, hrejected⟩ :=
    sendTexts_eq t request 0 (safeTexts [] (textsOf false chunks))
  rw [hcourse]
  unfold acceptedTexts rejectedText
  rw [← hpieces, ← hlength, ← hrejected]
  cases hsending : (sendTexts t request 0 (safeTexts [] (textsOf false chunks))).2.2 with
  | some rejected => exact .inl ⟨rejected, rfl, course_rejected hsending⟩
  | none =>
    by_cases hblocked : IsBlocked (joinedText chunks)
    · exact .inr (.inl ⟨rfl, hblocked, course_blocked hsending hblocked⟩)
    · exact .inr (.inr ⟨rfl, hblocked, applied, course_answered hsending hblocked⟩)

/-- The accepted texts go up to the longest of them. -/
lemma exists_longest (t : TextTables) (request : OutputRequest) (chunks : List (List Char)) :
    ∃ longest, find marker longest = none ∧
      ∀ text ∈ acceptedTexts t request chunks, text <+: longest ∧
        ((∀ other ∈ acceptedTexts t request chunks, other.length ≤ text.length) →
          longest.length ≤ text.length) := by
  have hchain : (acceptedTexts t request chunks).Pairwise (· <+: ·) := acceptedTexts_pairwise
  have hunmarked : ∀ text ∈ acceptedTexts t request chunks,
      text <+: joinedText chunks ∧ find marker text = none := fun _ => acceptedTexts_spec
  generalize acceptedTexts t request chunks = texts at hchain hunmarked
  rcases texts.eq_nil_or_concat with rfl | ⟨init, longest, rfl⟩
  · exact ⟨[], rfl, nofun⟩
  · rw [List.concat_eq_append] at hchain hunmarked ⊢
    refine ⟨longest, (hunmarked longest (by simp)).2, fun text htext => ⟨?_, fun h => h _ (by simp)⟩⟩
    rcases List.mem_append.mp htext with hinit | hlast
    · exact (List.pairwise_append.mp hchain).2.2 text hinit longest (List.mem_singleton_self _)
    · rw [List.mem_singleton.mp hlast]

/-- What has been sent of the texts is the start of one without a marker. -/
lemma not_isMarked_sendTexts (h : PlacesInText t request (acceptedTexts t request chunks)) :
    ¬IsMarked (sentText (sendTexts t request 0 (acceptedTexts t request chunks)).1) := by
  obtain ⟨longest, hunmarked, hlongest⟩ := exists_longest t request chunks
  have hsent := take_append_sendTexts 0
    (fun text htext => not_rejects_of_mem htext) acceptedTexts_pairwise
    (fun text htext => (hlongest text htext).1)
    (fun text htext => (h text htext).imp_right (hlongest text htext).2)
    (fun text _ => .inl (Nat.zero_le text.length))
  rw [List.take_zero, List.nil_append] at hsent
  rw [hsent, ← find_marker_ne_none, not_not]
  exact find_prefix_eq_none hunmarked (List.take_prefix _ _)

/-- In an answer the longest text is the whole. -/
lemma joinedText_length_le (hopen : ¬IsBlocked (joinedText chunks))
    (hnone : rejectedText t request chunks = none) {text : List Char}
    (htext : text ∈ acceptedTexts t request chunks)
    (hlongest : ∀ other ∈ acceptedTexts t request chunks, other.length ≤ text.length) :
    (joinedText chunks).length ≤ text.length := by
  have hall : acceptedTexts t request chunks = safeTexts [] (textsOf false chunks) := by
    refine List.takeWhile_eq_self_iff.mpr fun other hother => ?_
    simpa using List.find?_eq_none.mp hnone other hother
  rw [hall] at htext hlongest
  refine hlongest _ (mem_safeTexts_whole hopen ?_)
  intro hnil
  rw [hnil] at htext
  exact absurd htext List.not_mem_nil

/-- In an answer all of the text is sent. -/
lemma sentText_answered (h : PlacesInText t request (acceptedTexts t request chunks))
    (hopen : ¬IsBlocked (joinedText chunks)) (hnone : rejectedText t request chunks = none) :
    sentText ((sendTexts t request 0 (acceptedTexts t request chunks)).1 ++
      lastPiece (sendTexts t request 0 (acceptedTexts t request chunks)).2.1
        (joinedText chunks)) = joinedText chunks := by
  have hsent := take_append_sendTexts 0
    (fun text htext => not_rejects_of_mem htext) acceptedTexts_pairwise
    (fun text htext => (acceptedTexts_spec htext).1)
    (fun text htext => (h text htext).imp_right (joinedText_length_le hopen hnone htext))
    (fun text _ => .inl (Nat.zero_le text.length))
  rw [List.take_zero, List.nil_append] at hsent
  rw [sentText_append, hsent]
  unfold lastPiece
  split
  · simp [sentText]
  · rename_i hge
    rw [sentText_nil, List.append_nil, List.take_of_length_le (Nat.not_lt.mp hge)]

/-- Nothing is taken back where the places lie in their texts and the search sees the claims. -/
lemma nothingWithdrawn_of_places
    (hplaces : PlacesInText t request (acceptedTexts t request chunks))
    (hsees : SeesClaims t request chunks) : NothingWithdrawn t request chunks := by
  have hsent := not_isMarked_sendTexts hplaces
  have hstart {pieces : List SentPiece} (n : ℕ) (h : ¬IsMarked (sentText pieces)) :
      ¬IsMarked (sentText (pieces.take n)) := fun hmarked =>
    h (hmarked.trans sentText_take_prefix.isInfix)
  rcases streamOutput_cases t request chunks with
    ⟨rejected, hrejected, hstream⟩ | ⟨-, -, hstream⟩ | ⟨hnone, hopen, applied, hstream⟩
  · refine ⟨fun n => ?_, fun other hother place hplace piece hpiece hne => ?_, fun _ _ h => ?_⟩
    · rw [hstream]
      exact hstart n hsent
    · rw [hstream] at hother hpiece
      cases hother
      exact piece_le (fun text htext => not_rejects_of_mem htext)
        (hsees rejected hrejected place hplace) hpiece hne
    · rw [hstream] at h
      cases h
  · refine ⟨fun n => ?_, fun _ h => ?_, fun _ _ h => ?_⟩
    · rw [hstream]
      exact hstart n hsent
    · rw [hstream] at h
      cases h
    · rw [hstream] at h
      cases h
  · have hall := sentText_answered hplaces hopen hnone
    refine ⟨fun n => ?_, fun _ h => ?_, fun content applied' h => ?_⟩
    · rw [hstream]
      refine hstart n fun hmarked => hopen (.inl ?_)
      rw [hall] at hmarked
      exact find_marker_ne_none.mpr hmarked
    · rw [hstream] at h
      cases h
    · rw [hstream] at h ⊢
      cases h
      exact hall

/-- In an answer every place that lies behind its text loses something of the answer. -/
lemma NothingWithdrawn.placesInText (h : NothingWithdrawn t request chunks)
    (hnone : rejectedText t request chunks = none) (hopen : ¬IsBlocked (joinedText chunks)) :
    PlacesInText t request (acceptedTexts t request chunks) := by
  intro text htext
  by_contra hplace
  rw [not_or, Nat.not_le] at hplace
  obtain ⟨hbehind, hlonger⟩ := hplace
  have hshort : text.length < (joinedText chunks).length := by
    refine Nat.not_le.mp fun hle => hlonger fun other hother => ?_
    exact Nat.le_trans (acceptedTexts_spec hother).1.length_le hle
  have hlost := length_sendTexts_lt 0
    (fun text htext => not_rejects_of_mem htext) acceptedTexts_pairwise
    (fun text htext => (acceptedTexts_spec htext).1.length_le)
    (fun text _ => Nat.zero_le text.length) ⟨text, htext, hbehind, hshort⟩
  rcases streamOutput_cases t request chunks with
    ⟨rejected, hrejected, -⟩ | ⟨-, hblocked, -⟩ | ⟨-, -, applied, hstream⟩
  · rw [hnone] at hrejected
    cases hrejected
  · exact hopen hblocked
  · have hwhole := congrArg List.length (h.whole _ applied (congrArg Prod.snd hstream))
    rw [hstream, sentText_append, List.length_append] at hwhole
    have hlast : (sentText (lastPiece (sendTexts t request 0
        (acceptedTexts t request chunks)).2.1 (joinedText chunks))).length =
        (joinedText chunks).length -
          (sendTexts t request 0 (acceptedTexts t request chunks)).2.1 := by
      unfold lastPiece
      split
      · simp [sentText]
      · rename_i hge
        rw [sentText_nil, List.length_nil]
        omega
    omega

/-- A claim that the search does not see is sent before the guard rejects it. -/
lemma NothingWithdrawn.seesClaims (h : NothingWithdrawn t request chunks)
    (hplaces : PlacesInText t request (acceptedTexts t request chunks)) :
    SeesClaims t request chunks := by
  intro rejected hrejected place hplace text htext
  by_contra hbeyond
  rw [not_or, Nat.not_le, Nat.not_le] at hbeyond
  obtain ⟨piece, hpiece, hne, hreach⟩ := exists_piece 0
    (fun text htext => not_rejects_of_mem htext) hplaces (Nat.zero_le place)
    ⟨text, htext, hbeyond⟩
  rcases streamOutput_cases t request chunks with
    ⟨other, hother, hstream⟩ | ⟨hnone, -⟩ | ⟨hnone, -⟩
  · rw [hrejected] at hother
    cases hother
    have hle := h.beforeClaims rejected (congrArg Prod.snd hstream) place hplace piece
      (by rw [hstream]; exact hpiece) hne
    omega
  · rw [hnone] at hrejected
    cases hrejected
  · rw [hnone] at hrejected
    cases hrejected

/-- Nothing that is sent is taken back, if every subject begins in its text, case folded as well, and
each claim that is rejected is seen by its subject in every text that reaches into it.  The first is
so where folding makes no character longer.  In an answer it is needed as well, and where it holds
the second is needed. -/
theorem nothingWithdrawn_conditions (t : TextTables) (request : OutputRequest)
    (hrequest : hasPositiveExecutionEvidence request = false) (chunks : List (List Char)) :
    (SubjectsInText t (acceptedTexts t request chunks) ∧ SubjectsSeen t request chunks →
      NothingWithdrawn t request chunks) ∧
    ((∀ text ∈ acceptedTexts t request chunks, ∀ c ∈ text, (t.fold c).length ≤ 1) →
      SubjectsInText t (acceptedTexts t request chunks)) ∧
    (NothingWithdrawn t request chunks →
      (rejectedText t request chunks = none → ¬IsBlocked (joinedText chunks) →
        SubjectsInText t (acceptedTexts t request chunks)) ∧
      (SubjectsInText t (acceptedTexts t request chunks) → SubjectsSeen t request chunks)) := by
  rw [← placesInText_iff hrequest, ← seesClaims_iff hrequest]
  exact ⟨fun h => nothingWithdrawn_of_places h.1 h.2,
    fun h => (placesInText_iff hrequest).mpr (subjectsInText_of_fold h),
    fun h => ⟨h.placesInText, h.seesClaims⟩⟩

/-- A subject in one chunk is held back until the claim turns out to be none. -/
theorem nothingWithdrawn_conditions_hallo :
    NothingWithdrawn .basic ⟨.noTaskLoop⟩ ["Hallo".toList, " ich".toList] := by
  obtain ⟨henough, hplaces, -⟩ := nothingWithdrawn_conditions .basic ⟨.noTaskLoop⟩ rfl
    ["Hallo".toList, " ich".toList]
  have hsees : SeesClaims .basic ⟨.noTaskLoop⟩ ["Hallo".toList, " ich".toList] := by
    have hnone : rejectedText .basic ⟨.noTaskLoop⟩ ["Hallo".toList, " ich".toList] = none := by
      decide +kernel
    intro rejected hrejected
    rw [hnone] at hrejected
    cases hrejected
  have hfolds : (acceptedTexts .basic ⟨.noTaskLoop⟩ ["Hallo".toList, " ich".toList]).all
      (fun text => text.all fun c => (TextTables.basic.fold c).length ≤ 1) = true := by
    decide +kernel
  refine henough ⟨hplaces fun text htext c hc => ?_, (seesClaims_iff rfl).mp hsees⟩
  exact of_decide_eq_true (List.all_eq_true.mp (List.all_eq_true.mp hfolds text htext) c hc)

/-- A subject with more white space than the search looks back is sent before its claim is
rejected. -/
theorem not_nothingWithdrawn :
    ¬∀ (t : TextTables) (request : OutputRequest) (chunks : List (List Char)),
      hasPositiveExecutionEvidence request = false → NothingWithdrawn t request chunks := by
  intro hall
  have h := hall .basic ⟨.noTaskLoop⟩ ["ich      ".toList, "habe getestet".toList] rfl
  have hstream : streamOutput .basic ⟨.noTaskLoop⟩ {}
      ["ich      ".toList, "habe getestet".toList] =
        ([⟨0, "ich      ".toList⟩], .rejected "ich      habe getestet".toList) := by
    decide +kernel
  have hplace : IsClaimStart .basic "ich      habe getestet".toList 0 :=
    ⟨[], 'i', (normalizePlaced .basic "ich      habe getestet".toList).tail, by decide +kernel,
      by decide +kernel⟩
  have hle := h.beforeClaims _ (congrArg Prod.snd hstream) 0 hplace ⟨0, "ich      ".toList⟩
    (by rw [hstream]; exact List.mem_singleton_self _) (by decide)
  exact absurd hle (by decide)

end Stream

end Trion.Output
