import Mathlib.Data.List.Forall2
import Trion.Library.JsonScalars
import Trion.Library.OrderedDict

/-!
# JSON documents

Documents are read with a bound on how deep arrays and objects may be nested, and the rows of
every object pass through a hook that may refuse them.  They are written with some white space
between the parts, and what has been read is read again from what is written for it.
-/

namespace JsonText

/-- A document; the rows of an object stand in their own order. -/
inductive Document (F : Type) where
  | scalar (value : Scalar F)
  | str (value : Text)
  | arr (items : List (Document F))
  | obj (rows : List (Text × Document F))

/-- What makes a text no document, where the hook for objects raises errors of its own. -/
inductive ReadError (ε : Type) where
  | malformed
  | intDigits
  /-- Arrays and objects are nested too deep. -/
  | recursion
  | hook (error : ε)
deriving DecidableEq

/-- The error of a scalar. -/
def ScalarError.toReadError {ε : Type} : ScalarError → ReadError ε
  | .malformed => .malformed
  | .intDigits => .intDigits

/-- What becomes of the rows of an object.  Rows that have passed pass as they are. -/
structure ObjectHook (F ε : Type) where
  apply : List (Text × Document F) → Except ε (List (Text × Document F))
  settles : ∀ rows rows', apply rows = .ok rows' → rows' ⊆ rows ∧ apply rows' = .ok rows'

/-- A later row of a key replaces the value of an earlier one. -/
def dictHook (F : Type) : ObjectHook F Empty where
  apply rows := .ok (OrderedDict.insertAll Prod.fst Prod.snd [] rows)
  settles rows rows' h := by
    obtain rfl := Except.ok.inj h
    have hnodup : (OrderedDict.keys
        (OrderedDict.insertAll Prod.fst Prod.snd [] rows)).Nodup :=
      OrderedDict.nodup_keys_insertAll List.nodup_nil
    refine ⟨fun row hrow => ?_, congrArg Except.ok (OrderedDict.insertAll_append hnodup)⟩
    have hget := OrderedDict.get?_of_mem hnodup (show (row.1, row.2) ∈ _ from hrow)
    rcases OrderedDict.get?_insertAll hget with ⟨other, hother, hkey, hvalue⟩ | ⟨-, hnone⟩
    · have heq : other = row := Prod.ext hkey hvalue
      exact heq ▸ OrderedDict.mem_of_mem_lastOfKey hother
    · simp at hnone

/-- How documents are read. -/
structure Reader (F ε : Type) where
  floats : FloatReader F
  maxDigits : ℕ
  hook : ObjectHook F ε

variable {F ε α : Type}

/-! ### Reading -/

/-- The white space between the parts of a document. -/
def isWhite (c : ℕ) : Bool := c == 32 || c == 9 || c == 10 || c == 13

def skipWhite (cs : Text) : Text := cs.dropWhile isWhite

/-- A string literal after its opening quote. -/
def readString (cs : Text) : Except (ReadError ε) (Text × Text) :=
  match scanString (cs.length + 1) cs with
  | some read => .ok read
  | none => .error .malformed

/-- Elements with commas between them, up to the closing bracket.  Each takes a character at
least, so the length of the text is no bound. -/
def readSequence (close : ℕ) (element : Text → Except (ReadError ε) (α × Text)) :
    ℕ → Text → Except (ReadError ε) (List α × Text)
  | 0, _ => .error .malformed
  | bound + 1, cs => do
    let (a, rest) ← element cs
    match skipWhite rest with
    | [] => .error .malformed
    | c :: rest =>
      if c = close then return ([a], rest)
      else if c = 44 then do
        let (as, rest) ← readSequence close element bound (skipWhite rest)
        return (a :: as, rest)
      else .error .malformed

/-- What stands between brackets, after the opening one. -/
def readBracketed (close : ℕ) (element : Text → Except (ReadError ε) (α × Text)) (cs : Text) :
    Except (ReadError ε) (List α × Text) :=
  match skipWhite cs with
  | [] => .error .malformed
  | c :: rest =>
    if c = close then .ok ([], rest)
    else readSequence close element (c :: rest).length (c :: rest)

/-- A row of an object. -/
def readRow (inner : Text → Except (ReadError ε) (Document F × Text)) :
    Text → Except (ReadError ε) ((Text × Document F) × Text)
  | [] => .error .malformed
  | c :: cs =>
    if c = 34 then do
      let (key, rest) ← readString cs
      match skipWhite rest with
      | [] => .error .malformed
      | c :: rest =>
        if c = 58 then do
          let (value, rest) ← inner (skipWhite rest)
          return ((key, value), rest)
        else .error .malformed
    else .error .malformed

/-- Reads what contains documents, which `inner` reads, if any may stand there. -/
def readNested (inner : Option (Text → Except (ReadError ε) (Document F × Text)))
    (read : (Text → Except (ReadError ε) (Document F × Text)) →
      Except (ReadError ε) (Document F × Text)) : Except (ReadError ε) (Document F × Text) :=
  match inner with
  | none => .error .recursion
  | some inner => read inner

/-- A document at the beginning of a text, where `inner` reads the documents inside it. -/
def readStep (reader : Reader F ε)
    (inner : Option (Text → Except (ReadError ε) (Document F × Text))) :
    Text → Except (ReadError ε) (Document F × Text)
  | [] => .error .malformed
  | c :: cs =>
    if c = 34 then do
      let (s, rest) ← readString cs
      return (.str s, rest)
    else if c = 91 then
      readNested inner fun inner => do
        let (items, rest) ← readBracketed 93 inner cs
        return (.arr items, rest)
    else if c = 123 then
      readNested inner fun inner => do
        let (rows, rest) ← readBracketed 125 (readRow inner) cs
        match reader.hook.apply rows with
        | .ok rows => return (.obj rows, rest)
        | .error error => .error (.hook error)
    else
      match readScalar reader.floats reader.maxDigits (c :: cs) with
      | .ok (value, rest) => .ok (.scalar value, rest)
      | .error error => .error error.toReadError

/-- A document at the beginning of a text, with what follows it. -/
def readDocument (reader : Reader F ε) : ℕ → Text → Except (ReadError ε) (Document F × Text)
  | 0 => readStep reader none
  | depth + 1 => readStep reader (some (readDocument reader depth))

lemma exists_readStep (reader : Reader F ε) (depth : ℕ) :
    ∃ inner, readDocument reader depth = readStep reader inner := by
  cases depth with
  | zero => exact ⟨none, rfl⟩
  | succ depth => exact ⟨some (readDocument reader depth), rfl⟩

/-- `json.loads`; a text may not begin with a byte order mark. -/
def loads (reader : Reader F ε) (depth : ℕ) (cs : Text) :
    Except (ReadError ε) (Document F) :=
  if cs.head? = some 0xfeff then .error .malformed
  else do
    let (document, rest) ← readDocument reader depth (skipWhite cs)
    if skipWhite rest = [] then return document else .error .malformed

/-! ### Writing -/

/-- The white space that is written: `newline` before the first element and before the closing
bracket, `comma` after a comma, `colon` after a colon. -/
structure Layout where
  newline : ℕ → Text
  comma : ℕ → Text
  colon : Text
  newline_white : ∀ level, ∀ c ∈ newline level, isWhite c = true
  comma_white : ∀ level, ∀ c ∈ comma level, isWhite c = true
  colon_white : ∀ c ∈ colon, isWhite c = true

/-- The layout of `json.dumps` without `indent`. -/
def Layout.plain : Layout where
  newline _ := []
  comma _ := [32]
  colon := [32]
  newline_white := by simp
  comma_white := by simp [isWhite]
  colon_white := by decide

lemma isWhite_of_mem_indentation {width level c : ℕ}
    (h : c ∈ 10 :: List.replicate (width * level) 32) : isWhite c = true := by
  rcases List.mem_cons.mp h with rfl | h
  · rfl
  · rw [List.eq_of_mem_replicate h]
    rfl

/-- The layout of `json.dumps` with `indent`. -/
def Layout.indented (width : ℕ) : Layout where
  newline level := 10 :: List.replicate (width * level) 32
  comma level := 10 :: List.replicate (width * level) 32
  colon := [32]
  newline_white _ _ := isWhite_of_mem_indentation
  comma_white _ _ := isWhite_of_mem_indentation
  colon_white := by decide

/-- How documents are written. -/
structure Writer (F : Type) where
  floats : FloatFormat F
  rule : EscapeRule
  layout : Layout

/-- The texts of elements between brackets, after the opening one. -/
def Layout.sequence (layout : Layout) (level close : ℕ) : List Text → Text
  | [] => [close]
  | text :: texts =>
    layout.newline (level + 1) ++ (text ++ (texts.flatMap (fun text =>
      44 :: (layout.comma (level + 1) ++ text)) ++ (layout.newline level ++ [close])))

mutual

/-- `json.dumps`, inside brackets at a level. -/
def Document.text (writer : Writer F) (level : ℕ) : Document F → Text
  | .scalar value => value.text writer.floats
  | .str s => writer.rule.literal s
  | .arr items => 91 :: writer.layout.sequence level 93 (itemTexts writer (level + 1) items)
  | .obj rows => 123 :: writer.layout.sequence level 125 (rowTexts writer (level + 1) rows)

/-- The texts of the items of an array. -/
def Document.itemTexts (writer : Writer F) (level : ℕ) : List (Document F) → List Text
  | [] => []
  | item :: items => item.text writer level :: itemTexts writer level items

/-- The texts of the rows of an object. -/
def Document.rowTexts (writer : Writer F) (level : ℕ) : List (Text × Document F) → List Text
  | [] => []
  | (key, value) :: rows =>
    (writer.rule.literal key ++ 58 :: (writer.layout.colon ++ value.text writer level)) ::
      rowTexts writer level rows

end

lemma mem_itemTexts {writer : Writer F} {level : ℕ} {items : List (Document F)} {text : Text}
    (h : text ∈ Document.itemTexts writer level items) :
    ∃ item ∈ items, text = item.text writer level := by
  induction items with
  | nil => exact absurd h List.not_mem_nil
  | cons item items ih =>
    rcases List.mem_cons.mp h with rfl | h
    · exact ⟨item, List.mem_cons_self, rfl⟩
    · obtain ⟨later, hlater, heq⟩ := ih h
      exact ⟨later, List.mem_cons_of_mem item hlater, heq⟩

lemma mem_rowTexts {writer : Writer F} {level : ℕ} {rows : List (Text × Document F)} {text : Text}
    (h : text ∈ Document.rowTexts writer level rows) :
    ∃ row ∈ rows, text = writer.rule.literal row.1 ++
      58 :: (writer.layout.colon ++ row.2.text writer level) := by
  induction rows with
  | nil => exact absurd h List.not_mem_nil
  | cons row rows ih =>
    rcases List.mem_cons.mp h with rfl | h
    · exact ⟨row, List.mem_cons_self, rfl⟩
    · obtain ⟨later, hlater, heq⟩ := ih h
      exact ⟨later, List.mem_cons_of_mem row hlater, heq⟩

/-- The characters between brackets. -/
lemma mem_sequence {layout : Layout} {level close c : ℕ} {texts : List Text}
    (h : c ∈ layout.sequence level close texts) :
    isWhite c = true ∨ c = 44 ∨ c = close ∨ ∃ text ∈ texts, c ∈ text := by
  cases texts with
  | nil => exact .inr (.inr (.inl (List.mem_singleton.mp h)))
  | cons text texts =>
    rcases List.mem_append.mp h with h | h
    · exact .inl (layout.newline_white _ c h)
    rcases List.mem_append.mp h with h | h
    · exact .inr (.inr (.inr ⟨text, List.mem_cons_self, h⟩))
    rcases List.mem_append.mp h with h | h
    · obtain ⟨later, hlater, h⟩ := List.mem_flatMap.mp h
      rcases List.mem_cons.mp h with rfl | h
      · exact .inr (.inl rfl)
      rcases List.mem_append.mp h with h | h
      · exact .inl (layout.comma_white _ c h)
      · exact .inr (.inr (.inr ⟨later, List.mem_cons_of_mem text hlater, h⟩))
    rcases List.mem_append.mp h with h | h
    · exact .inl (layout.newline_white _ c h)
    · exact .inr (.inr (.inl (List.mem_singleton.mp h)))

/-- Each of the texts is part of what stands between the brackets. -/
lemma length_le_sequence (layout : Layout) (level close : ℕ) {texts : List Text} {text : Text}
    (h : text ∈ texts) : text.length ≤ (layout.sequence level close texts).length := by
  cases texts with
  | nil => exact absurd h List.not_mem_nil
  | cons first texts =>
    rw [Layout.sequence, List.length_append, List.length_append, List.length_append]
    rcases List.mem_cons.mp h with rfl | h
    · omega
    · have hle : (44 :: (layout.comma (level + 1) ++ text)).length ≤ (texts.flatMap fun text =>
          44 :: (layout.comma (level + 1) ++ text)).length := by
        have hmem : 44 :: (layout.comma (level + 1) ++ text) ∈
            texts.map fun text => 44 :: (layout.comma (level + 1) ++ text) :=
          List.mem_map_of_mem (f := fun text => 44 :: (layout.comma (level + 1) ++ text)) h
        rw [List.flatMap_def]
        exact (List.sublist_flatten_of_mem hmem).length_le
      rw [List.length_cons, List.length_append] at hle
      omega

/-! ### Parts that are read back -/

lemma skipWhite_append {gap rest : Text} (hgap : ∀ c ∈ gap, isWhite c = true)
    (hrest : ∀ c ∈ rest.head?, isWhite c = false) : skipWhite (gap ++ rest) = rest := by
  unfold skipWhite
  rw [List.dropWhile_append_of_pos hgap]
  cases rest with
  | nil => rfl
  | cons c cs => rw [List.dropWhile_cons_of_neg (by simp [hrest c rfl])]

lemma skipWhite_cons {c : ℕ} {cs : Text} (h : isWhite c = false) : skipWhite (c :: cs) = c :: cs :=
  @skipWhite_append [] (c :: cs) (by simp) (by simpa using h)

/-- White space and then a character that ends numbers. -/
lemma endsNumber_append {gap rest : Text} (hgap : ∀ c ∈ gap, isWhite c = true)
    (hrest : EndsNumber rest) : EndsNumber (gap ++ rest) := by
  cases gap with
  | nil => exact hrest
  | cons c cs =>
    have hwhite := hgap c List.mem_cons_self
    unfold isWhite at hwhite
    simp only [Bool.or_eq_true, beq_iff_eq] at hwhite
    refine endsNumber_cons ?_
    rcases hwhite with ((rfl | rfl) | rfl) | rfl <;> decide

/-- The closing brackets. -/
def IsClosing (c : ℕ) : Prop := c = 93 ∨ c = 125

instance : DecidablePred IsClosing := fun _ => inferInstanceAs (Decidable (_ ∨ _))

lemma IsClosing.endsNumber {c : ℕ} (h : IsClosing c) (cs : Text) : EndsNumber (c :: cs) := by
  rcases h with rfl | rfl <;> exact endsNumber_cons (by decide)

lemma IsClosing.not_white {c : ℕ} (h : IsClosing c) : isWhite c = false := by
  rcases h with rfl | rfl <;> rfl

/-- The text of an element: it is read back, whatever ends it, and it begins with a character of
its own. -/
structure ElementText (close : ℕ) (element : Text → Except (ReadError ε) (α × Text)) (a : α)
    (text : Text) : Prop where
  reads : ∀ rest, EndsNumber rest → element (text ++ rest) = .ok (a, rest)
  begins : ∃ c cs, text = c :: cs ∧ isWhite c = false ∧ c ≠ close

variable {close : ℕ} {element : Text → Except (ReadError ε) (α × Text)}

/-- Elements with commas between them are read back. -/
lemma readSequence_texts (layout : Layout) (level : ℕ) (hclose : IsClosing close) {a : α}
    {as : List α} {text : Text} {texts : List Text} (hfirst : ElementText close element a text)
    (hrest : List.Forall₂ (ElementText close element) as texts) {bound : ℕ}
    (hbound : as.length < bound) (rest : Text) :
    readSequence close element bound (text ++ (texts.flatMap (fun text =>
      44 :: (layout.comma (level + 1) ++ text)) ++ (layout.newline level ++ close :: rest))) =
        .ok (a :: as, rest) := by
  induction hrest generalizing a text bound with
  | nil =>
    obtain ⟨bound, rfl⟩ : ∃ b, bound = b + 1 := ⟨bound - 1, by grind⟩
    have hends : EndsNumber (layout.newline level ++ close :: rest) :=
      endsNumber_append (layout.newline_white level) (hclose.endsNumber rest)
    have hskip : skipWhite (layout.newline level ++ close :: rest) = close :: rest :=
      skipWhite_append (layout.newline_white level) (by simpa using hclose.not_white)
    rw [List.flatMap_nil, List.nil_append, readSequence, hfirst.reads _ hends]
    simp only [bind, Except.bind, hskip, if_pos]
    rfl
  | cons hnext hlater ih =>
    rename_i a' text' as' texts'
    obtain ⟨bound, rfl⟩ : ∃ b, bound = b + 1 := ⟨bound - 1, by grind⟩
    obtain ⟨c, cs, hc, hwhite, -⟩ := hnext.begins
    have hcomma : ∀ later : Text, skipWhite (layout.comma (level + 1) ++ (text' ++ later)) =
        text' ++ later := fun later =>
      skipWhite_append (layout.comma_white _) (by simpa [hc] using hwhite)
    have hrest := ih hnext (show as'.length < bound by grind)
    have hne : 44 ≠ close := by rcases hclose with rfl | rfl <;> decide
    rw [List.flatMap_cons, List.cons_append, List.cons_append, readSequence,
      hfirst.reads _ (endsNumber_cons (by decide))]
    simp only [bind, Except.bind, skipWhite_cons (show isWhite 44 = false from rfl), if_neg hne,
      if_pos, List.append_assoc, hcomma, hrest]
    rfl

/-- What stands between brackets is read back. -/
lemma readBracketed_sequence (layout : Layout) (level : ℕ) (hclose : IsClosing close)
    {as : List α} {texts : List Text} (h : List.Forall₂ (ElementText close element) as texts)
    (rest : Text) :
    readBracketed close element (layout.sequence level close texts ++ rest) = .ok (as, rest) := by
  cases h with
  | nil =>
    rw [Layout.sequence, List.singleton_append, readBracketed,
      skipWhite_cons hclose.not_white]
    exact if_pos rfl
  | cons hfirst hlater =>
    rename_i a text as texts
    obtain ⟨c, cs, hc, hwhite, hne⟩ := hfirst.begins
    have hskip : ∀ later : Text, skipWhite (layout.newline (level + 1) ++ (text ++ later)) =
        text ++ later := fun later =>
      skipWhite_append (layout.newline_white _) (by simpa [hc] using hwhite)
    have hlength : as.length < (text ++ (texts.flatMap (fun text =>
        44 :: (layout.comma (level + 1) ++ text)) ++
          (layout.newline level ++ close :: rest))).length := by
      have hcommas : texts.length ≤ (texts.flatMap fun text =>
          44 :: (layout.comma (level + 1) ++ text)).length := by
        clear hlater
        induction texts with
        | nil => exact le_rfl
        | cons text' texts' ih => grind
      rw [hlater.length_eq]
      grind
    have hread := readSequence_texts layout level hclose hfirst hlater hlength rest
    rw [Layout.sequence, readBracketed]
    simp only [List.append_assoc, List.singleton_append, hskip]
    rw [hc, List.cons_append] at hread ⊢
    dsimp only
    rw [if_neg hne]
    exact hread

/-- A literal is read back. -/
lemma readString_literal (rule : EscapeRule) {s : Text} (hs : ∀ c ∈ s, rule.Covers c)
    (rest : Text) :
    (readString (s.flatMap rule.escape ++ 34 :: rest) : Except (ReadError ε) (Text × Text)) =
      .ok (s, rest) := by
  have hlength := rule.length_le_flatMap hs
  unfold readString
  rw [rule.scanString_literal hs (by grind)]

/-! ### Documents that are read back -/

variable {reader : Reader F ε} {writer : Writer F}

/-- A document of a bounded depth whose numbers are short, whose texts the writer covers, and
whose objects pass the hook as they are. -/
inductive Fits (reader : Reader F ε) (writer : Writer F) : ℕ → Document F → Prop
  | scalar (depth : ℕ) (value : Scalar F) : value.IsShort reader.maxDigits →
      Fits reader writer depth (.scalar value)
  | str (depth : ℕ) (s : Text) : (∀ c ∈ s, writer.rule.Covers c) →
      Fits reader writer depth (.str s)
  | arr (depth : ℕ) (items : List (Document F)) : (∀ item ∈ items, Fits reader writer depth item) →
      Fits reader writer (depth + 1) (.arr items)
  | obj (depth : ℕ) (rows : List (Text × Document F)) : reader.hook.apply rows = .ok rows →
      (∀ row ∈ rows, ∀ c ∈ row.1, writer.rule.Covers c) →
      (∀ row ∈ rows, Fits reader writer depth row.2) → Fits reader writer (depth + 1) (.obj rows)

lemma forall₂_itemTexts {R : Document F → Text → Prop} (level : ℕ) {items : List (Document F)}
    (h : ∀ item ∈ items, R item (item.text writer level)) :
    List.Forall₂ R items (Document.itemTexts writer level items) := by
  induction items with
  | nil => exact .nil
  | cons item items ih =>
    exact .cons (h item List.mem_cons_self) (ih fun i hi => h i (List.mem_cons_of_mem _ hi))

lemma forall₂_rowTexts {R : Text × Document F → Text → Prop} (level : ℕ)
    {rows : List (Text × Document F)}
    (h : ∀ row ∈ rows, R row (writer.rule.literal row.1 ++
      58 :: (writer.layout.colon ++ row.2.text writer level))) :
    List.Forall₂ R rows (Document.rowTexts writer level rows) := by
  induction rows with
  | nil => exact .nil
  | cons row rows ih =>
    exact .cons (h row List.mem_cons_self) (ih fun r hr => h r (List.mem_cons_of_mem _ hr))

/-- The text of a document begins with a character of its own. -/
lemma Fits.begins {depth : ℕ} {document : Document F} (h : Fits reader writer depth document)
    (level : ℕ) : ∃ c cs, document.text writer level = c :: cs ∧ isWhite c = false ∧
      ¬IsClosing c ∧ c < 128 := by
  cases h with
  | scalar depth value hshort =>
    obtain ⟨c, cs, hc, hstart⟩ := exists_scalarText_cons writer.floats hshort
    refine ⟨c, cs, hc, ?_⟩
    rcases hstart with hdigit | hmem
    · have hrange : 48 ≤ c ∧ c ≤ 57 := of_decide_eq_true hdigit
      refine ⟨?_, ?_, by omega⟩
      · unfold isWhite
        simp only [Bool.or_eq_false_iff, beq_eq_false_iff_ne]
        omega
      · rintro (rfl | rfl) <;> omega
    · have hall : ∀ c ∈ ['-', 'n', 't', 'f', 'N', 'I'].map Char.toNat,
          isWhite c = false ∧ (c ≠ 93 ∧ c ≠ 125) ∧ c < 128 := by decide
      obtain ⟨hwhite, ⟨harr, hobj⟩, hlow⟩ := hall c hmem
      exact ⟨hwhite, fun hclosing => hclosing.elim harr hobj, hlow⟩
  | str => exact ⟨34, _, rfl, rfl, by decide, by decide⟩
  | arr => exact ⟨91, _, rfl, rfl, by decide, by decide⟩
  | obj => exact ⟨123, _, rfl, rfl, by decide, by decide⟩

/-- What is written for a document is read as that document. -/
theorem readDocument_text {depth : ℕ} {document : Document F}
    (h : Fits reader writer depth document)
    (hfloats : writer.floats.toFloatReader = reader.floats) (level : ℕ) {rest : Text}
    (hrest : EndsNumber rest) :
    readDocument reader depth (document.text writer level ++ rest) = .ok (document, rest) := by
  induction h generalizing level rest with
  | scalar depth value hshort =>
    obtain ⟨inner, hstep⟩ := exists_readStep reader depth
    obtain ⟨c, cs, hc, hstart⟩ := exists_scalarText_cons writer.floats hshort
    have hread := readScalar_text writer.floats hshort hrest
    have hother : c ≠ 34 ∧ c ≠ 91 ∧ c ≠ 123 := by
      rcases hstart with hdigit | hmem
      · have hrange : 48 ≤ c ∧ c ≤ 57 := of_decide_eq_true hdigit
        omega
      · have hall : ∀ c ∈ ['-', 'n', 't', 'f', 'N', 'I'].map Char.toNat,
            c ≠ 34 ∧ c ≠ 91 ∧ c ≠ 123 := by decide
        exact hall c hmem
    rw [hfloats, hc, List.cons_append] at hread
    rw [hstep, Document.text, hc, List.cons_append, readStep, if_neg hother.1,
      if_neg hother.2.1, if_neg hother.2.2, hread]
  | str depth s hs =>
    obtain ⟨inner, hstep⟩ := exists_readStep reader depth
    rw [hstep, Document.text, EscapeRule.literal, List.cons_append, List.append_assoc,
      List.singleton_append, readStep, if_pos rfl, readString_literal writer.rule hs]
    rfl
  | arr depth items hitems ih =>
    have helement : ∀ item ∈ items, ElementText 93 (readDocument reader depth) item
        (item.text writer (level + 1)) := by
      intro item hitem
      obtain ⟨c, cs, hc, hwhite, hclosing, -⟩ := (hitems item hitem).begins (level + 1)
      exact ⟨fun rest hrest => ih item hitem (level + 1) hrest, c, cs, hc, hwhite,
        fun heq => hclosing (.inl heq)⟩
    have hread := readBracketed_sequence writer.layout level (.inl rfl)
      (forall₂_itemTexts (level + 1) helement) rest
    rw [Document.text, List.cons_append, readDocument, readStep, if_neg (by decide), if_pos rfl,
      readNested, hread]
    rfl
  | obj depth rows hhook hkeys hvalues ih =>
    have hrow : ∀ row ∈ rows, ElementText 125 (readRow (readDocument reader depth)) row
        (writer.rule.literal row.1 ++
          58 :: (writer.layout.colon ++ row.2.text writer (level + 1))) := by
      intro row hmem
      refine ⟨fun rest hrest => ?_, 34, _, rfl, rfl, by decide⟩
      obtain ⟨c, cs, hc, hwhite, -⟩ := (hvalues row hmem).begins (level + 1)
      have hcolon : skipWhite (writer.layout.colon ++ (row.2.text writer (level + 1) ++ rest)) =
          row.2.text writer (level + 1) ++ rest :=
        skipWhite_append writer.layout.colon_white (by simpa [hc] using hwhite)
      rw [EscapeRule.literal, List.append_assoc, List.cons_append, List.append_assoc,
        List.singleton_append, readRow, if_pos rfl,
        readString_literal writer.rule (hkeys row hmem)]
      simp only [List.cons_append, bind, Except.bind,
        skipWhite_cons (show isWhite 58 = false from rfl), if_pos, List.append_assoc, hcolon,
        ih row hmem (level + 1) hrest]
      rfl
    have hread := readBracketed_sequence writer.layout level (.inr rfl)
      (forall₂_rowTexts (level + 1) hrow) rest
    rw [Document.text, List.cons_append, readDocument, readStep, if_neg (by decide),
      if_neg (by decide), if_pos rfl, readNested, hread]
    simp only [bind, Except.bind, hhook]
    rfl

/-- What is written for a document is loaded as that document, whatever white space follows. -/
theorem loads_text {depth : ℕ} {document : Document F} (h : Fits reader writer depth document)
    (hfloats : writer.floats.toFloatReader = reader.floats) {gap : Text}
    (hgap : ∀ c ∈ gap, isWhite c = true) :
    loads reader depth (document.text writer 0 ++ gap) = .ok document := by
  obtain ⟨c, cs, hc, hwhite, -, hlow⟩ := h.begins 0
  have hends : EndsNumber gap := by
    simpa using @endsNumber_append gap [] hgap endsNumber_nil
  have hskip : skipWhite gap = [] := by simpa using @skipWhite_append gap [] hgap (by simp)
  have hread := readDocument_text h hfloats 0 hends
  have hmark : (document.text writer 0 ++ gap).head? ≠ some 0xfeff := by
    rw [hc, List.cons_append, List.head?_cons, ne_eq, Option.some_inj]
    omega
  have hstart : skipWhite (document.text writer 0 ++ gap) = document.text writer 0 ++ gap := by
    rw [hc, List.cons_append]
    exact skipWhite_cons hwhite
  rw [loads, if_neg hmark, hstart, hread]
  simp only [bind, Except.bind, hskip, if_pos]
  rfl

/-! ### What is read can be written -/

lemma ok_of_read {β : Type} {x : Except (ReadError ε) α} {f : α → Except (ReadError ε) β} {b : β}
    (h : (x >>= f) = .ok b) : ∃ a, x = .ok a ∧ f a = .ok b := by
  cases x with
  | error error => simp [bind, Except.bind] at h
  | ok a => exact ⟨a, rfl, h⟩

end JsonText
