import Trion.Library.JsonDocuments
import Trion.Library.OrderedDict
import Trion.Python.Value

/-!
# Python values as JSON texts

Objects are read as dictionaries, where a later row of a key replaces the value of an earlier one.
What is written for a dictionary of texts, numbers, truth values and lists of texts is read as that
dictionary.
-/

namespace Trion.Python

open JsonText

/-! ### Characters -/

/-- The string of code points. -/
def ofPoints (t : Text) : String := String.ofList (t.map Char.ofNat)

lemma ofPoints_points (s : String) : ofPoints (points s) = s := by
  have hlist : (points s).map Char.ofNat = s.toList := by
    rw [points, List.map_map]
    refine (List.map_congr_left fun c _ => ?_).trans (List.map_id _)
    exact Char.ofNat_toNat c
  rw [ofPoints, hlist, String.ofList_toList]

lemma isScalarValue_of_mem_points {s : String} {c : ℕ} (h : c ∈ points s) : IsScalarValue c := by
  obtain ⟨d, -, rfl⟩ := List.mem_map.mp h
  have hvalid := d.valid
  unfold IsScalarValue
  rcases hvalid with hlow | ⟨hhigh, hmax⟩
  · have : d.toNat < 0xd800 := hlow
    omega
  · have : 0xdfff < d.toNat := hhigh
    have : d.toNat < 0x110000 := hmax
    omega

lemma points_ofPoints {t : Text} (h : ∀ c ∈ t, c < 128) : points (ofPoints t) = t := by
  rw [points, ofPoints, String.toList_ofList, List.map_map]
  refine (List.map_congr_left fun c hc => ?_).trans (List.map_id t)
  have hvalid : c.isValidChar := .inl ((h c hc).trans (by decide))
  have hchar : Char.ofNat c = Char.ofNatAux c hvalid := dif_pos hvalid
  exact (congrArg Char.toNat hchar).trans rfl

/-! ### Values -/

/-- The texts of numbers with a fraction are left out: they are read as `nan`. -/
def nanFormat : FloatFormat Unit where
  read _ := ()
  nan := ()
  inf := ()
  negInf := ()
  write _ := ['N', 'a', 'N'].map Char.toNat
  reads _ _ _ _ := rfl

def plainReader (maxDigits : ℕ) : Reader Unit Empty where
  floats := nanFormat.toFloatReader
  maxDigits := maxDigits
  hook := dictHook Unit

def plainWriter : Writer Unit where
  floats := nanFormat
  rule := asciiRule
  layout := .plain

mutual

/-- The value that a document stands for. -/
def ofDocument : Document Unit → PyVal
  | .scalar .null => .none
  | .scalar (.bool b) => .bool b
  | .scalar (.int n) => .int n
  | .scalar (.float _) => .float .nan
  | .str s => .str (ofPoints s)
  | .arr items => .list (ofItems items)
  | .obj rows => .dict (ofRows rows)

def ofItems : List (Document Unit) → List PyVal
  | [] => []
  | item :: items => ofDocument item :: ofItems items

def ofRows : List (Text × Document Unit) → PyDict
  | [] => []
  | (key, value) :: rows => (ofPoints key, ofDocument value) :: ofRows rows

end

mutual

/-- The document of a value; other values than those of JSON are written as `null` here. -/
def toDocument : PyVal → Document Unit
  | .bool b => .scalar (.bool b)
  | .int n => .scalar (.int n)
  | .float _ => .scalar (.float ())
  | .str s => .str (points s)
  | .list items => .arr (toItems items)
  | .tuple items => .arr (toItems items)
  | .dict entries => .obj (toRows entries)
  | _ => .scalar .null

def toItems : List PyVal → List (Document Unit)
  | [] => []
  | item :: items => toDocument item :: toItems items

def toRows : PyDict → List (Text × Document Unit)
  | [] => []
  | (key, value) :: entries => (points key, toDocument value) :: toRows entries

end

/-- `json.dumps` of a dictionary. -/
def jsonDumps (d : PyDict) : String := ofPoints ((toDocument (.dict d)).text plainWriter 0)

/-- `json.loads`, without a limit for the digits of integers. -/
def jsonLoads (text : String) : Option PyVal :=
  ((JsonText.loads (plainReader text.length) 100 (points text)).toOption).map ofDocument

/-! ### What is written is read back -/

lemma hexDigit_lt (n : ℕ) (h : n < 16) : hexDigit n < 128 := by
  unfold hexDigit
  split <;> omega

lemma hex4_lt {n c : ℕ} (hn : n < 0x10000) (h : c ∈ hex4 n) : c < 128 := by
  simp only [hex4, List.mem_cons, List.not_mem_nil, or_false] at h
  rcases h with rfl | rfl | rfl | rfl <;> exact hexDigit_lt _ (by omega)

lemma asciiEscape_lt {c d : ℕ} (hc : IsScalarValue c) (h : d ∈ asciiEscape c) : d < 128 := by
  have hunit : highUnit c < 0x10000 ∧ lowUnit c < 0x10000 := by
    have hmax := hc.1
    unfold highUnit lowUnit
    omega
  unfold asciiEscape at h
  split at h
  next letter hletter =>
    have hall : ∀ p ∈ letters, p.2 < 128 := by decide
    have hlow := hall _ (mem_letters_of_letterOf? hletter)
    simp only [List.mem_cons, List.not_mem_nil, or_false] at h
    rcases h with rfl | rfl
    · decide
    · exact hlow
  next =>
    split at h
    next hplain =>
      obtain rfl := List.mem_singleton.mp h
      omega
    next =>
      split at h
      next hsmall =>
        rcases List.mem_cons.mp h with rfl | h
        · decide
        · rcases List.mem_cons.mp h with rfl | h
          · decide
          · exact hex4_lt hsmall h
      next =>
        rcases List.mem_cons.mp h with rfl | h
        · decide
        · rcases List.mem_cons.mp h with rfl | h
          · decide
          · rcases List.mem_append.mp h with h | h
            · exact hex4_lt hunit.1 h
            · rcases List.mem_cons.mp h with rfl | h
              · decide
              · rcases List.mem_cons.mp h with rfl | h
                · decide
                · exact hex4_lt hunit.2 h

lemma literal_lt {s : Text} (hs : ∀ c ∈ s, IsScalarValue c) {d : ℕ}
    (h : d ∈ asciiRule.literal s) : d < 128 := by
  rcases List.mem_cons.mp h with rfl | h
  · decide
  · rcases List.mem_append.mp h with h | h
    · obtain ⟨c, hc, hd⟩ := List.mem_flatMap.mp h
      exact asciiEscape_lt (hs c hc) hd
    · rw [List.mem_singleton.mp h]
      decide

lemma scalarText_lt (v : Scalar Unit) {c : ℕ} (h : c ∈ v.text nanFormat) : c < 128 := by
  have hnat : ∀ {n d : ℕ}, d ∈ natText n → d < 128 := by
    intro n d hd
    have hdigit : 48 ≤ d ∧ d ≤ 57 := of_decide_eq_true (isDigit_of_mem_natText hd)
    omega
  cases v with
  | null => exact (show ∀ c ∈ ['n', 'u', 'l', 'l'].map Char.toNat, c < 128 by decide) c h
  | bool b =>
    cases b
    · exact (show ∀ c ∈ ['f', 'a', 'l', 's', 'e'].map Char.toNat, c < 128 by decide) c h
    · exact (show ∀ c ∈ ['t', 'r', 'u', 'e'].map Char.toNat, c < 128 by decide) c h
  | int n =>
    change c ∈ intText n at h
    unfold intText at h
    split at h
    · rcases List.mem_cons.mp h with rfl | h
      · decide
      · exact hnat h
    · exact hnat h
  | float x => exact (show ∀ c ∈ ['N', 'a', 'N'].map Char.toNat, c < 128 by decide) c h

lemma isWhite_lt {c : ℕ} (h : isWhite c = true) : c < 128 := by
  unfold isWhite at h
  simp only [Bool.or_eq_true, beq_iff_eq] at h
  omega

/-- The text of a document is ASCII. -/
lemma documentText_lt {reader : Reader Unit Empty} {depth : ℕ} {document : Document Unit}
    (h : Fits reader plainWriter depth document) (level : ℕ) {c : ℕ}
    (hc : c ∈ document.text plainWriter level) : c < 128 := by
  induction h generalizing level c with
  | scalar depth value hshort => exact scalarText_lt value hc
  | str depth s hs => exact literal_lt hs hc
  | arr depth items hitems ih =>
    rcases List.mem_cons.mp hc with rfl | hc
    · decide
    · rcases mem_sequence hc with hwhite | rfl | rfl | ⟨text, htext, hmem⟩
      · exact isWhite_lt hwhite
      · decide
      · decide
      · obtain ⟨item, hitem, rfl⟩ := mem_itemTexts htext
        exact ih item hitem _ hmem
  | obj depth rows hhook hkeys hvalues ih =>
    rcases List.mem_cons.mp hc with rfl | hc
    · decide
    · rcases mem_sequence hc with hwhite | rfl | rfl | ⟨text, htext, hmem⟩
      · exact isWhite_lt hwhite
      · decide
      · decide
      · obtain ⟨row, hrow, rfl⟩ := mem_rowTexts htext
        rcases List.mem_append.mp hmem with hmem | hmem
        · exact literal_lt (hkeys row hrow) hmem
        · rcases List.mem_cons.mp hmem with rfl | hmem
          · decide
          · rcases List.mem_append.mp hmem with hmem | hmem
            · exact isWhite_lt (plainWriter.layout.colon_white _ hmem)
            · exact ih row hrow _ hmem

/-- The values that come back as they are: texts, numbers, truth values and lists of texts. -/
def IsFlat : PyVal → Prop
  | .bool _ | .int _ | .str _ => True
  | .list items => ∀ item ∈ items, ∃ s, item = .str s
  | _ => False

lemma toItems_flat {items : List PyVal} (h : ∀ item ∈ items, ∃ s, item = .str s) :
    ofItems (toItems items) = items ∧
      ∀ document ∈ toItems items, ∃ s, document = .str (points s) := by
  induction items with
  | nil => exact ⟨rfl, fun document hmem => absurd hmem List.not_mem_nil⟩
  | cons item items ih =>
    obtain ⟨s, rfl⟩ := h item List.mem_cons_self
    obtain ⟨heq, hall⟩ := ih fun i hi => h i (List.mem_cons_of_mem _ hi)
    refine ⟨?_, List.forall_mem_cons.mpr ⟨⟨s, rfl⟩, hall⟩⟩
    simp only [toItems, ofItems, toDocument, ofDocument, ofPoints_points, heq]

lemma ofDocument_toDocument {v : PyVal} (h : IsFlat v) : ofDocument (toDocument v) = v := by
  cases v with
  | bool b => rfl
  | int n => rfl
  | str s => simp only [toDocument, ofDocument, ofPoints_points]
  | list items => simp only [toDocument, ofDocument, (toItems_flat h).1]
  | none => exact absurd h id
  | float x => exact absurd h id
  | tuple items => exact absurd h id
  | dict entries => exact absurd h id
  | object ident => exact absurd h id

lemma ofRows_toRows {d : PyDict} (h : ∀ e ∈ d, IsFlat e.2) : ofRows (toRows d) = d := by
  induction d with
  | nil => rfl
  | cons e d ih =>
    simp only [toRows, ofRows, ofPoints_points, ofDocument_toDocument (h e List.mem_cons_self),
      ih fun e' he' => h e' (List.mem_cons_of_mem e he')]

lemma toRows_eq_map (d : PyDict) : toRows d = d.map fun e => (points e.1, toDocument e.2) := by
  induction d with
  | nil => rfl
  | cons e d ih => rw [toRows, ih, List.map_cons]

lemma points_injective {s s' : String} (h : points s = points s') : s = s' := by
  rw [← ofPoints_points s, h, ofPoints_points]

/-- A flat value is written within the limits, if its integer is short. -/
lemma fits_of_flat {maxDigits : ℕ} {v : PyVal} (h : IsFlat v) (depth : ℕ)
    (hint : ∀ n, v = .int n → (natText n.natAbs).length ≤ maxDigits) :
    Fits (plainReader maxDigits) plainWriter (depth + 1) (toDocument v) := by
  cases v with
  | bool b => exact .scalar _ _ trivial
  | int n => exact .scalar _ _ (hint n rfl)
  | str s => exact .str _ _ fun c hc => isScalarValue_of_mem_points hc
  | list items =>
    refine .arr depth _ fun document hmem => ?_
    obtain ⟨s, rfl⟩ := (toItems_flat h).2 document hmem
    exact .str _ _ fun c hc => isScalarValue_of_mem_points hc
  | none => exact absurd h id
  | float x => exact absurd h id
  | tuple items => exact absurd h id
  | dict entries => exact absurd h id
  | object ident => exact absurd h id

/-- A flat dictionary is written within the limits. -/
lemma fits_of_flatDict {d : PyDict} (hnodup : (OrderedDict.keys d).Nodup)
    (hflat : ∀ e ∈ d, IsFlat e.2) {maxDigits : ℕ}
    (hint : ∀ e ∈ d, ∀ n, e.2 = .int n → (natText n.natAbs).length ≤ maxDigits) (depth : ℕ) :
    Fits (plainReader maxDigits) plainWriter (depth + 2) (toDocument (.dict d)) := by
  rw [toDocument, toRows_eq_map]
  refine .obj (depth + 1) _ ?_ ?_ ?_
  · refine congrArg Except.ok (OrderedDict.insertAll_append ?_)
    rw [List.nil_append, OrderedDict.keys, List.map_map]
    have hkeys : d.map (Prod.fst ∘ fun e => (points e.1, toDocument e.2)) =
        (OrderedDict.keys d).map points := by
      rw [OrderedDict.keys, List.map_map]
      rfl
    rw [hkeys]
    exact hnodup.map fun s s' h => points_injective h
  · intro row hrow c hc
    obtain ⟨e, -, rfl⟩ := List.mem_map.mp hrow
    exact isScalarValue_of_mem_points hc
  · intro row hrow
    obtain ⟨e, he, rfl⟩ := List.mem_map.mp hrow
    exact fits_of_flat (hflat e he) depth (hint e he)

lemma length_natText_le_intText (n : ℤ) : (natText n.natAbs).length ≤ (intText n).length := by
  unfold intText
  split
  · exact Nat.le_succ _
  · exact Nat.le_refl _

/-- The digits of an integer are part of the text of its dictionary. -/
lemma length_natText_le {d : PyDict} {e : String × PyVal} (he : e ∈ d) {n : ℤ}
    (hn : e.2 = .int n) : (natText n.natAbs).length ≤
      ((toDocument (.dict d)).text plainWriter 0).length := by
  have hrow : plainWriter.rule.literal (points e.1) ++ 58 :: (plainWriter.layout.colon ++
      intText n) ∈ Document.rowTexts plainWriter 1 (toRows d) := by
    induction d with
    | nil => exact absurd he List.not_mem_nil
    | cons e' d ih =>
      rcases List.mem_cons.mp he with rfl | he
      · have hvalue : (toDocument e.2).text plainWriter 1 = intText n := by
          rw [hn]
          rfl
        rw [toRows, Document.rowTexts, hvalue]
        exact List.mem_cons_self
      · exact List.mem_cons_of_mem _ (ih he)
  have hle := length_le_sequence plainWriter.layout 0 125 hrow
  have hnumber := length_natText_le_intText n
  change _ ≤ (123 :: plainWriter.layout.sequence 0 125
    (Document.rowTexts plainWriter 1 (toRows d))).length
  rw [List.length_append, List.length_cons, List.length_append] at hle
  rw [List.length_cons]
  omega

/-- What is written for a flat dictionary is read as that dictionary. -/
theorem jsonLoads_jsonDumps {d : PyDict} (hnodup : (OrderedDict.keys d).Nodup)
    (hflat : ∀ e ∈ d, IsFlat e.2) : jsonLoads (jsonDumps d) = some (.dict d) := by
  have hfits := fits_of_flatDict hnodup hflat (fun e he n hn => length_natText_le he hn) 98
  have hpoints : points (jsonDumps d) = (toDocument (.dict d)).text plainWriter 0 :=
    points_ofPoints fun c hc => documentText_lt hfits 0 hc
  have hlength : (jsonDumps d).length = ((toDocument (.dict d)).text plainWriter 0).length := by
    rw [← hpoints, points, List.length_map, String.length_toList]
  have hgap : ∀ c ∈ ([] : Text), isWhite c = true := fun c hc => absurd hc List.not_mem_nil
  have hload := loads_text hfits rfl hgap
  rw [List.append_nil] at hload
  unfold jsonLoads
  rw [hlength, hpoints, hload]
  change some (ofDocument (.obj (toRows d))) = _
  rw [ofDocument, ofRows_toRows hflat]

lemma jsonDumps_ne_empty (d : PyDict) : jsonDumps d ≠ "" := by
  intro h
  have hlist := congrArg String.toList h
  rw [jsonDumps, ofPoints, String.toList_ofList, toDocument] at hlist
  cases hlist

end Trion.Python
