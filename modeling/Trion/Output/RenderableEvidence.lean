import Mathlib.Algebra.GroupWithZero.Nat
import Trion.Library.InOrder
import Trion.Python.IntText

/-!
# The text of verified evidence

`build_renderable_evidence` turns the content of each evidence item into a summary and bullets,
and `render_single_renderable_evidence` makes a text of a single one.  A scalar is shown by
`str(value or "").strip()`.
-/

namespace Trion.Output

open Python InOrder

/-! ### The source -/

/-- What the rendering uses of its surroundings: the built-ins with `str.capitalize`, and the
values of the two settings. -/
structure RenderRuntime extends PyRuntime where
  capitalize : String → String
  maxItemsSetting : PyVal
  maxBulletsSetting : PyVal

/-- `OutputEvidenceItem`, whose lists have become tuples. -/
structure OutputEvidenceItem where
  structuredContent : PyDict

/-- `OutputEvidenceHandoff`. -/
structure OutputEvidenceHandoff where
  items : List OutputEvidenceItem

/-- `RenderableEvidence`. -/
structure RenderableEvidence where
  summary : String
  bullets : List String
deriving DecidableEq

section Source

variable (rt : RenderRuntime)

/-- `int(setting)` between two bounds, with a default. -/
def clampedSetting (setting : PyVal) (least most default : ℤ) : ℤ :=
  max least (min most (match setting.toInt rt.toPyRuntime with
    | .ok val => val
    | .error _ => default))

/-- `get_output_renderable_evidence_max_items`. -/
def maxItems : ℕ := (clampedSetting rt rt.maxItemsSetting 1 12 4).toNat

/-- `get_output_renderable_evidence_max_bullets_per_item`. -/
def maxBulletsPerItem : ℕ := (clampedSetting rt rt.maxBulletsSetting 0 12 4).toNat

/-- `_label`. -/
def label (value : String) : String := rt.capitalize (strip (replaceChar '_' " " value))

/-- `_text`. -/
def text (value : PyVal) : String := strip (value.strOr rt.toPyRuntime "")

/-- The value is neither a mapping nor a sequence. -/
def isScalar : PyVal → Bool
  | .list _ | .tuple _ | .dict _ => false
  | _ => true

mutual

/-- `_value`. -/
def value : PyVal → String
  | .list items | .tuple items =>
    if items.all isScalar then
      ", ".intercalate (((items.take 6).map (text rt)).filter (· ≠ ""))
    else ", ".intercalate (values 4 items)
  | .dict entries => ", ".intercalate (fields entries)
  | v => text rt v

/-- The values of the first items of a list. -/
def values : ℕ → List PyVal → List String
  | 0, _ | _, [] => []
  | n + 1, item :: items => value item :: values n items

/-- The fields of a mapping. -/
def fields : PyDict → List String
  | [] => []
  | (key, item) :: entries => (label rt key ++ "=" ++ value item) :: fields entries

end

/-- `_build_item`. -/
def buildItem (content : PyDict) : RenderableEvidence :=
  match content with
  | [(_, only)] => ⟨"Verifiziertes Ergebnis: " ++ value rt only ++ ".", []⟩
  | _ => ⟨"Verifiziertes Ergebnis ist verfügbar.",
      (content.take (maxBulletsPerItem rt)).map fun entry =>
        label rt entry.1 ++ ": " ++ value rt entry.2⟩

/-- The loop of `build_renderable_evidence`. -/
def buildItems (items : List RenderableEvidence) :
    List OutputEvidenceItem → List RenderableEvidence
  | [] => items
  | item :: rest =>
    let items := items ++ [buildItem rt item.structuredContent]
    if maxItems rt ≤ items.length then items else buildItems items rest

/-- `build_renderable_evidence`. -/
def buildRenderableEvidence (handoff : OutputEvidenceHandoff) : List RenderableEvidence :=
  buildItems rt [] handoff.items

/-- `render_single_renderable_evidence`. -/
def renderSingleRenderableEvidence : List RenderableEvidence → String
  | [item] =>
    if item.bullets = [] then item.summary
    else item.summary ++ " Verifizierte Details: " ++ "; ".intercalate item.bullets ++ "."
  | _ => ""

end Source

/-! ### What is promised -/

mutual

/-- The scalars of a content, in order. -/
def scalars : PyVal → List PyVal
  | .list items | .tuple items => scalarsOfItems items
  | .dict entries => scalarsOfFields entries
  | v => [v]

def scalarsOfItems : List PyVal → List PyVal
  | [] => []
  | item :: items => scalars item ++ scalarsOfItems items

def scalarsOfFields : PyDict → List PyVal
  | [] => []
  | (_, item) :: entries => scalars item ++ scalarsOfFields entries

end

mutual

/-- No list in the content has more than four elements. -/
def shortLists : PyVal → Bool
  | .list items | .tuple items => items.length ≤ 4 && shortItems items
  | .dict entries => shortFields entries
  | _ => true

def shortItems : List PyVal → Bool
  | [] => true
  | item :: items => shortLists item && shortItems items

def shortFields : PyDict → Bool
  | [] => true
  | (_, item) :: entries => shortLists item && shortFields entries

end

section Promise

variable (rt : RenderRuntime)

/-- The text of a single item shows all scalars of its content, in order. -/
def ShowsScalars (content : PyDict) : Prop :=
  Holds ((scalars (.dict content)).map fun v => (v.toStr rt.toPyRuntime).toList)
    (renderSingleRenderableEvidence (buildRenderableEvidence rt ⟨[⟨content⟩]⟩)).toList

/-- The scalar is shown as it is: it counts as true, and has no white space around it. -/
def IsShown (v : PyVal) : Prop :=
  v.truthy = true ∧ strip (v.toStr rt.toPyRuntime) = v.toStr rt.toPyRuntime

mutual

/-- The text of a value in which every scalar stands with its own text. -/
def layout : PyVal → String
  | .list items | .tuple items => ", ".intercalate (layouts items)
  | .dict entries => ", ".intercalate (layoutFields entries)
  | v => v.toStr rt.toPyRuntime

def layouts : List PyVal → List String
  | [] => []
  | item :: items => layout item :: layouts items

def layoutFields : PyDict → List String
  | [] => []
  | (key, item) :: entries => (label rt key ++ "=" ++ layout item) :: layoutFields entries

end

/-- The rendered text with the layouts of the values. -/
def laidOut : PyDict → String
  | [] => "Verifiziertes Ergebnis ist verfügbar."
  | [(_, only)] => "Verifiziertes Ergebnis: " ++ layout rt only ++ "."
  | content => "Verifiziertes Ergebnis ist verfügbar." ++ " Verifizierte Details: " ++
      "; ".intercalate (content.map fun entry => label rt entry.1 ++ ": " ++ layout rt entry.2) ++
      "."

end Promise

/-! ### The layout holds the scalars -/

section Values

variable {rt : RenderRuntime}

lemma layout_of_isScalar {v : PyVal} (h : isScalar v = true) :
    layout rt v = v.toStr rt.toPyRuntime := by
  cases v <;> first | rfl | exact nomatch h

lemma scalars_of_isScalar {v : PyVal} (h : isScalar v = true) : scalars v = [v] := by
  cases v <;> first | rfl | exact nomatch h

/-- The texts of scalars. -/
def texts (rt : RenderRuntime) (vs : List PyVal) : List (List Char) :=
  vs.map fun v => (v.toStr rt.toPyRuntime).toList

lemma texts_append (vs vs' : List PyVal) : texts rt (vs ++ vs') = texts rt vs ++ texts rt vs' :=
  List.map_append

/-- Joined texts hold what the joined ones hold. -/
lemma holds_joined {groups : List (List (List Char))} {parts : List String} (sep : String)
    (h : List.Forall₂ Holds groups (parts.map String.toList)) :
    Holds groups.flatten (sep.intercalate parts).toList := by
  rw [String.toList_intercalate]
  exact Holds.intercalate h

mutual

lemma holds_layout : ∀ v : PyVal, Holds (texts rt (scalars v)) (layout rt v).toList
  | .list items | .tuple items => by
    obtain ⟨groups, hgroups, hall⟩ := holds_layouts items
    rw [layout, scalars, ← hgroups]
    exact holds_joined ", " hall
  | .dict entries => by
    obtain ⟨groups, hgroups, hall⟩ := holds_layoutFields entries
    rw [layout, scalars, ← hgroups]
    exact holds_joined ", " hall
  | .none | .bool _ | .int _ | .float _ | .str _ | .object _ => holds_self

lemma holds_layouts : ∀ items : List PyVal, ∃ groups : List (List (List Char)),
    groups.flatten = texts rt (scalarsOfItems items) ∧
      List.Forall₂ Holds groups ((layouts rt items).map String.toList)
  | [] => ⟨[], rfl, .nil⟩
  | item :: items => by
    obtain ⟨groups, hgroups, hall⟩ := holds_layouts items
    refine ⟨texts rt (scalars item) :: groups, ?_, .cons (holds_layout item) hall⟩
    rw [List.flatten_cons, hgroups, scalarsOfItems, texts_append]

lemma holds_layoutFields : ∀ entries : PyDict, ∃ groups : List (List (List Char)),
    groups.flatten = texts rt (scalarsOfFields entries) ∧
      List.Forall₂ Holds groups ((layoutFields rt entries).map String.toList)
  | [] => ⟨[], rfl, .nil⟩
  | (key, item) :: entries => by
    obtain ⟨groups, hgroups, hall⟩ := holds_layoutFields entries
    refine ⟨texts rt (scalars item) :: groups, ?_, .cons ?_ hall⟩
    · rw [List.flatten_cons, hgroups, scalarsOfFields, texts_append]
    · rw [String.toList_append]
      exact (holds_layout item).prepend _

end

/-! ### What is not shown is missing -/

/-- Either the text is the layout and its scalars are shown, or it is shorter than the layout and
one of them is not shown. -/
def Fits (rt : RenderRuntime) (found planned : String) (vs : List PyVal) : Prop :=
  (found = planned ∧ ∀ v ∈ vs, IsShown rt v) ∨
    (found.length < planned.length ∧ ∃ v ∈ vs, ¬IsShown rt v)

/-- The length of joined texts, with a separator after the last. -/
def joinedLength (parts : List String) : ℕ := (parts.map fun part => part.length + 2).sum

/-- The same for texts that are to be joined. -/
def FitsAll (rt : RenderRuntime) (found planned : List String) (vs : List PyVal) : Prop :=
  (found = planned ∧ ∀ v ∈ vs, IsShown rt v) ∨
    (joinedLength found < joinedLength planned ∧ ∃ v ∈ vs, ¬IsShown rt v)

lemma joinedLength_cons (part : String) (parts : List String) :
    joinedLength (part :: parts) = part.length + 2 + joinedLength parts := by
  rw [joinedLength, List.map_cons, List.sum_cons, joinedLength]

lemma length_joined {sep : String} (hsep : sep.length = 2) (parts : List String) :
    (sep.intercalate parts).length = joinedLength parts - 2 := by
  induction parts with
  | nil => rfl
  | cons part parts ih =>
    cases parts with
    | nil => simp [joinedLength]
    | cons part' parts =>
      rw [String.intercalate_cons_cons, String.length_append, String.length_append, ih, hsep,
        joinedLength_cons part, joinedLength_cons part']
      omega

lemma Fits.after {t t' : String} {vs : List PyVal} (h : Fits rt t t' vs) (before : String) :
    Fits rt (before ++ t) (before ++ t') vs := by
  rcases h with ⟨rfl, hshown⟩ | ⟨hlt, hnot⟩
  · exact .inl ⟨rfl, hshown⟩
  · refine .inr ⟨?_, hnot⟩
    rw [String.length_append, String.length_append]
    exact Nat.add_lt_add_left hlt _

variable {found planned : List String} {t t' : String} {vs vs' : List PyVal}

lemma FitsAll.length_le (h : FitsAll rt found planned vs) :
    joinedLength found ≤ joinedLength planned := by
  rcases h with ⟨rfl, -⟩ | ⟨hlt, -⟩
  · exact le_rfl
  · exact hlt.le

lemma FitsAll.nil : FitsAll rt [] [] [] := .inl ⟨rfl, nofun⟩

lemma FitsAll.cons (h : Fits rt t t' vs) (hall : FitsAll rt found planned vs') :
    FitsAll rt (t :: found) (t' :: planned) (vs ++ vs') := by
  rcases h with ⟨rfl, hshown⟩ | ⟨hlt, v, hv, hnot⟩
  · rcases hall with ⟨rfl, hshown'⟩ | ⟨hlt, v, hv, hnot⟩
    · exact .inl ⟨rfl, fun v hv => (List.mem_append.mp hv).elim (hshown v) (hshown' v)⟩
    · refine .inr ⟨?_, v, List.mem_append_right vs hv, hnot⟩
      rw [joinedLength_cons, joinedLength_cons]
      exact Nat.add_lt_add_left hlt _
  · refine .inr ⟨?_, v, List.mem_append_left vs' hv, hnot⟩
    rw [joinedLength_cons, joinedLength_cons]
    exact Nat.add_lt_add_of_lt_of_le (Nat.add_lt_add_right hlt 2) hall.length_le

/-- Joining keeps what fits: unless nothing is found, where something should be. -/
lemma Fits.joined {sep : String} (hsep : sep.length = 2) (h : FitsAll rt found planned vs)
    (hempty : found = [] → planned = [] ∨ 2 < joinedLength planned) :
    Fits rt (sep.intercalate found) (sep.intercalate planned) vs := by
  rcases h with ⟨rfl, hshown⟩ | ⟨hlt, hnot⟩
  · exact .inl ⟨rfl, hshown⟩
  · refine .inr ⟨?_, hnot⟩
    rw [length_joined hsep, length_joined hsep]
    cases found with
    | nil =>
      rcases hempty rfl with rfl | hlong
      · exact absurd hlt (lt_irrefl _)
      · exact Nat.sub_pos_of_lt hlong
    | cons part parts =>
      rw [joinedLength_cons] at hlt ⊢
      omega

lemma strip_sublist (s : String) : (strip s).toList.Sublist s.toList := by
  rw [strip, String.toList_ofList, ← List.reverse_sublist, List.reverse_reverse]
  exact (List.dropWhile_sublist _).trans (List.reverse_sublist.mpr (List.dropWhile_sublist _))

/-- `_text` gives the text of a scalar, or less. -/
lemma fits_text {v : PyVal} (hne : v.toStr rt.toPyRuntime ≠ "") :
    Fits rt (text rt v) (v.toStr rt.toPyRuntime) [v] := by
  rw [Fits, List.forall_mem_singleton]
  by_cases htruthy : v.truthy = true
  · rw [text, PyVal.strOr, PyVal.or, if_pos htruthy]
    by_cases hstrip : strip (v.toStr rt.toPyRuntime) = v.toStr rt.toPyRuntime
    · exact .inl ⟨hstrip, htruthy, hstrip⟩
    · have hsub := strip_sublist (v.toStr rt.toPyRuntime)
      refine .inr ⟨lt_of_le_of_ne hsub.length_le fun heq => ?_, v, List.mem_singleton_self v,
        fun h => hstrip h.2⟩
      exact hstrip (String.toList_injective (hsub.eq_of_length heq))
  · have htext : text rt v = "" := by
      rw [text, PyVal.strOr, PyVal.or, if_neg htruthy]
      rfl
    refine .inr ⟨?_, v, List.mem_singleton_self v, fun h => htruthy h.1⟩
    rw [htext]
    exact Nat.pos_of_ne_zero fun hzero => hne (String.length_eq_zero_iff.mp hzero)

/-- A list of scalars, of which the empty texts are left out. -/
lemma fits_flat {items : List PyVal} (hflat : items.all isScalar = true)
    (hne : ∀ v ∈ scalarsOfItems items, v.toStr rt.toPyRuntime ≠ "") :
    FitsAll rt ((items.map (text rt)).filter (· ≠ "")) (layouts rt items)
      (scalarsOfItems items) := by
  induction items with
  | nil => exact .nil
  | cons item items ih =>
    rw [List.all_cons, Bool.and_eq_true] at hflat
    rw [scalarsOfItems, scalars_of_isScalar hflat.1] at hne ⊢
    have hitem := hne item (List.mem_append_left _ (List.mem_singleton_self item))
    have hrest := ih hflat.2 fun v hv => hne v (List.mem_append_right _ hv)
    rw [layouts, layout_of_isScalar hflat.1, List.map_cons]
    have hfits := fits_text hitem
    by_cases hempty : text rt item = ""
    · rw [List.filter_cons_of_neg (by simpa using hempty)]
      rw [hempty] at hfits
      -- the text of the item is missing, and so is its separator
      rcases hfits with ⟨heq, -⟩ | ⟨hlt, v, hv, hnot⟩
      · exact absurd heq.symm hitem
      · refine .inr ⟨?_, v, List.mem_append_left _ hv, hnot⟩
        rw [joinedLength_cons]
        exact hrest.length_le.trans_lt (Nat.lt_add_of_pos_left (Nat.succ_pos _))
    · rw [List.filter_cons_of_pos (by simpa using hempty)]
      exact FitsAll.cons hfits hrest

/-- Texts that are not all empty are longer than a separator. -/
lemma two_lt_joinedLength {items : List PyVal} (hflat : items.all isScalar = true)
    (hne : ∀ v ∈ scalarsOfItems items, v.toStr rt.toPyRuntime ≠ "") :
    layouts rt items = [] ∨ 2 < joinedLength (layouts rt items) := by
  cases items with
  | nil => exact .inl rfl
  | cons item items =>
    rw [List.all_cons, Bool.and_eq_true] at hflat
    have hitem := hne item (by
      rw [scalarsOfItems, scalars_of_isScalar hflat.1]
      exact List.mem_append_left _ (List.mem_singleton_self item))
    rw [layouts, layout_of_isScalar hflat.1, joinedLength_cons]
    have hpos := Nat.pos_of_ne_zero fun hzero => hitem (String.length_eq_zero_iff.mp hzero)
    exact .inr (by omega)

mutual

/-- `_value` gives the layout of a value whose lists are short, or less. -/
lemma fits_value : ∀ v : PyVal, shortLists v = true →
    (∀ s ∈ scalars v, s.toStr rt.toPyRuntime ≠ "") →
      Fits rt (value rt v) (layout rt v) (scalars v)
  | .list items, hshort, hne | .tuple items, hshort, hne => by
    rw [shortLists, Bool.and_eq_true, decide_eq_true_iff] at hshort
    rw [value, layout, scalars]
    split_ifs with hflat
    · rw [List.take_of_length_le (hshort.1.trans (by decide))]
      exact Fits.joined rfl (fits_flat hflat hne) fun _ => two_lt_joinedLength hflat hne
    · refine Fits.joined rfl (fits_values items 4 hshort.1 hshort.2 hne) fun hnil => .inl ?_
      cases items with
      | nil => rfl
      | cons item items => exact nomatch hnil
  | .dict entries, hshort, hne => by
    refine Fits.joined rfl (fits_fields entries hshort hne) fun hnil => .inl ?_
    cases entries with
    | nil => rfl
    | cons entry entries => exact nomatch hnil
  | .none, _, hne | .bool _, _, hne | .int _, _, hne | .float _, _, hne | .str _, _, hne
  | .object _, _, hne => fits_text (hne _ (List.mem_singleton_self _))

lemma fits_values : ∀ (items : List PyVal) (most : ℕ), items.length ≤ most →
    shortItems items = true → (∀ s ∈ scalarsOfItems items, s.toStr rt.toPyRuntime ≠ "") →
      FitsAll rt (values rt most items) (layouts rt items) (scalarsOfItems items)
  | [], 0, _, _, _ | [], _ + 1, _, _, _ => .nil
  | item :: items, most + 1, hmost, hshort, hne => by
    rw [shortItems, Bool.and_eq_true] at hshort
    have hitem := fits_value item hshort.1 fun s hs => hne s (List.mem_append_left _ hs)
    exact FitsAll.cons hitem
      (fits_values items most (Nat.le_of_succ_le_succ hmost) hshort.2
        fun s hs => hne s (List.mem_append_right _ hs))

lemma fits_fields : ∀ entries : PyDict, shortFields entries = true →
    (∀ s ∈ scalarsOfFields entries, s.toStr rt.toPyRuntime ≠ "") →
      FitsAll rt (fields rt entries) (layoutFields rt entries) (scalarsOfFields entries)
  | [], _, _ => .nil
  | (key, item) :: entries, hshort, hne => by
    rw [shortFields, Bool.and_eq_true] at hshort
    have hitem := fits_value item hshort.1 fun s hs => hne s (List.mem_append_left _ hs)
    exact FitsAll.cons (hitem.after (label rt key ++ "="))
      (fits_fields entries hshort.2 fun s hs => hne s (List.mem_append_right _ hs))

end

/-! ### The rendered text -/

/-- The text of the only item. -/
def rendered (rt : RenderRuntime) (content : PyDict) : String :=
  renderSingleRenderableEvidence (buildRenderableEvidence rt ⟨[⟨content⟩]⟩)

lemma buildRenderableEvidence_single (content : PyDict) :
    buildRenderableEvidence rt ⟨[⟨content⟩]⟩ = [buildItem rt content] := by
  show (if maxItems rt ≤ 1 then [buildItem rt content] else [buildItem rt content]) = _
  exact ite_self _

lemma buildItem_nil : buildItem rt [] = ⟨"Verifiziertes Ergebnis ist verfügbar.", []⟩ := by
  show RenderableEvidence.mk _ ((List.take (maxBulletsPerItem rt) []).map _) = _
  rw [List.take_nil, List.map_nil]

lemma buildItem_details {content : PyDict} (hmany : 2 ≤ content.length) :
    buildItem rt content = ⟨"Verifiziertes Ergebnis ist verfügbar.",
      (content.take (maxBulletsPerItem rt)).map fun entry =>
        label rt entry.1 ++ ": " ++ value rt entry.2⟩ := by
  match content, hmany with
  | entry :: entry' :: rest, _ => rfl

lemma rendered_details {content : PyDict} (hlen : content.length ≤ maxBulletsPerItem rt)
    (hmany : 2 ≤ content.length) :
    rendered rt content = "Verifiziertes Ergebnis ist verfügbar." ++ " Verifizierte Details: " ++
      "; ".intercalate (content.map fun entry => label rt entry.1 ++ ": " ++ value rt entry.2) ++
      "." := by
  rw [rendered, buildRenderableEvidence_single, buildItem_details hmany,
    List.take_of_length_le hlen, renderSingleRenderableEvidence, if_neg]
  rw [List.map_eq_nil_iff]
  rintro rfl
  exact absurd hmany (by decide)

lemma laidOut_details {content : PyDict} (hmany : 2 ≤ content.length) :
    laidOut rt content = "Verifiziertes Ergebnis ist verfügbar." ++ " Verifizierte Details: " ++
      "; ".intercalate (content.map fun entry => label rt entry.1 ++ ": " ++ layout rt entry.2) ++
      "." := by
  match content, hmany with
  | entry :: entry' :: rest, _ => rfl

lemma fits_details {content : PyDict} (hshort : shortFields content = true)
    (hne : ∀ s ∈ scalarsOfFields content, s.toStr rt.toPyRuntime ≠ "") :
    FitsAll rt (content.map fun entry => label rt entry.1 ++ ": " ++ value rt entry.2)
      (content.map fun entry => label rt entry.1 ++ ": " ++ layout rt entry.2)
      (scalarsOfFields content) := by
  induction content with
  | nil => exact .nil
  | cons entry content ih =>
    rw [shortFields, Bool.and_eq_true] at hshort
    have hvalue := fits_value entry.2 hshort.1 fun s hs => hne s (List.mem_append_left _ hs)
    exact FitsAll.cons (hvalue.after (label rt entry.1 ++ ": "))
      (ih hshort.2 fun s hs => hne s (List.mem_append_right _ hs))

lemma Fits.before {t t' : String} {vs : List PyVal} (h : Fits rt t t' vs) (after : String) :
    Fits rt (t ++ after) (t' ++ after) vs := by
  rcases h with ⟨rfl, hshown⟩ | ⟨hlt, hnot⟩
  · exact .inl ⟨rfl, hshown⟩
  · refine .inr ⟨?_, hnot⟩
    rw [String.length_append, String.length_append]
    exact Nat.add_lt_add_right hlt _

lemma fits_rendered {content : PyDict} (hlen : content.length ≤ maxBulletsPerItem rt)
    (hshort : shortLists (.dict content) = true)
    (hne : ∀ s ∈ scalars (.dict content), s.toStr rt.toPyRuntime ≠ "") :
    Fits rt (rendered rt content) (laidOut rt content) (scalars (.dict content)) := by
  match content, hlen, hshort, hne with
  | [], _, _, _ =>
    rw [rendered, buildRenderableEvidence_single, buildItem_nil]
    exact .inl ⟨rfl, nofun⟩
  | [(key, only)], _, hshort, hne =>
    rw [shortLists, shortFields, Bool.and_eq_true] at hshort
    rw [scalars, scalarsOfFields, scalarsOfFields, List.append_nil] at hne ⊢
    rw [rendered, buildRenderableEvidence_single]
    exact ((fits_value only hshort.1 hne).after _).before _
  | entry :: entry' :: rest, hlen, hshort, hne =>
    have hmany : 2 ≤ (entry :: entry' :: rest).length := Nat.le_add_left 2 _
    rw [rendered_details hlen hmany, laidOut_details hmany]
    exact ((Fits.joined rfl (fits_details hshort hne) nofun).after _).before _

lemma holds_details (content : PyDict) : ∃ groups : List (List (List Char)),
    groups.flatten = texts rt (scalarsOfFields content) ∧ List.Forall₂ Holds groups
      ((content.map fun entry => label rt entry.1 ++ ": " ++ layout rt entry.2).map
        String.toList) := by
  induction content with
  | nil => exact ⟨[], rfl, .nil⟩
  | cons entry content ih =>
    obtain ⟨groups, hgroups, hall⟩ := ih
    refine ⟨texts rt (scalars entry.2) :: groups, ?_, .cons ?_ hall⟩
    · rw [List.flatten_cons, hgroups, scalarsOfFields, texts_append]
    · rw [String.toList_append]
      exact (holds_layout entry.2).prepend _

lemma holds_laidOut (content : PyDict) :
    Holds (texts rt (scalars (.dict content))) (laidOut rt content).toList := by
  match content with
  | [] => exact holds_nil
  | [(key, only)] =>
    show Holds _ ("Verifiziertes Ergebnis: " ++ layout rt only ++ ".").toList
    rw [scalars, scalarsOfFields, scalarsOfFields, List.append_nil, String.toList_append,
      String.toList_append]
    exact ((holds_layout only).prepend _).extend _
  | entry :: entry' :: rest =>
    obtain ⟨groups, hgroups, hall⟩ := @holds_details rt (entry :: entry' :: rest)
    rw [scalars, ← hgroups, laidOut_details (Nat.le_add_left 2 _), String.toList_append,
      String.toList_append]
    exact ((holds_joined "; " hall).prepend _).extend _

/-- The text of a content of few entries and short lists is its layout exactly when every scalar
counts as true and has no white space around it; and then it shows all scalars in order. -/
theorem rendered_eq_laidOut_iff {content : PyDict} (hlen : content.length ≤ maxBulletsPerItem rt)
    (hshort : shortLists (.dict content) = true)
    (hne : ∀ s ∈ scalars (.dict content), s.toStr rt.toPyRuntime ≠ "") :
    (rendered rt content = laidOut rt content ↔ ∀ v ∈ scalars (.dict content), IsShown rt v) ∧
      ((∀ v ∈ scalars (.dict content), IsShown rt v) → ShowsScalars rt content) := by
  have hfits := fits_rendered hlen hshort hne
  have hiff : rendered rt content = laidOut rt content ↔
      ∀ v ∈ scalars (.dict content), IsShown rt v := by
    rcases hfits with ⟨heq, hshown⟩ | ⟨hlt, v, hv, hnot⟩
    · exact iff_of_true heq hshown
    · exact iff_of_false (fun heq => absurd (heq ▸ hlt) (lt_irrefl _)) fun h => hnot (h v hv)
  refine ⟨hiff, fun hshown => ?_⟩
  have hholds := @holds_laidOut rt content
  rw [← hiff.mpr hshown] at hholds
  exact hholds

end Values

/-- A runtime whose tables cover ASCII, with the settings as they are by default. -/
def RenderRuntime.ascii : RenderRuntime where
  toPyRuntime := PyRuntime.ascii
  capitalize s := String.ofList (match s.toList with
    | [] => []
    | c :: cs => c.toUpper :: cs.map Char.toLower)
  maxItemsSetting := .int 4
  maxBulletsSetting := .int 4

/-- A truth value and a list of two. -/
def foundNames : PyDict := [("found", .bool true), ("names", .list [.str "a", .int 7])]

theorem rendered_eq_laidOut_found :
    rendered .ascii foundNames = laidOut .ascii foundNames ∧ ShowsScalars .ascii foundNames := by
  have hshown : ∀ v ∈ scalars (.dict foundNames), IsShown .ascii v := by
    unfold IsShown
    decide +kernel
  obtain ⟨hiff, hshows⟩ :=
    @rendered_eq_laidOut_iff .ascii foundNames (by decide) (by decide) (by decide)
  exact ⟨hiff.mpr hshown, hshows hshown⟩

/-- A count of zero is left out: the text is "Verifiziertes Ergebnis: .". -/
theorem not_showsScalars_zero : ¬ShowsScalars .ascii [("count", .int 0)] := by
  rintro ⟨before, after, h, -⟩
  have hzero : '0' ∈ (rendered .ascii [("count", .int 0)]).toList := by
    rw [rendered, h]
    exact List.mem_append_right _ (List.mem_append_left _ (by decide))
  exact absurd hzero (by decide +kernel)

end Trion.Output
