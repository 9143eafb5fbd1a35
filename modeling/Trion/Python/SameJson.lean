import Mathlib.Data.List.Nodup
import Mathlib.Data.List.Perm.Subperm
import Mathlib.Data.String.Basic
import Trion.Library.OrderedDict
import Trion.Python.CanonicalJson

/-!
# The same JSON

Values that `json.loads` can give, and when two of them are the same JSON.  Rows with distinct
keys are sorted in one way, so dictionaries are the same when they have the same values under
the same keys.  Python's `==` is coarser: it takes `True` for `1` and `2.0` for `2`.  Two values
are the same JSON exactly when they are equal and of the same types throughout.
-/

namespace Trion.Python

/-! ### Values read from JSON -/

mutual

/-- A value `json.loads` can give: no tuple and no foreign object, and no key of a dictionary
twice. -/
def PyVal.FromJson : PyVal → Prop
  | .list xs => FromJsonItems xs
  | .dict kvs => (OrderedDict.keys kvs).Nodup ∧ FromJsonRows kvs
  | .tuple _ | .object _ => False
  | .none | .bool _ | .int _ | .float _ | .str _ => True

/-- The items of a list. -/
def PyVal.FromJsonItems : List PyVal → Prop
  | [] => True
  | x :: xs => x.FromJson ∧ FromJsonItems xs

/-- The values of a dictionary. -/
def PyVal.FromJsonRows : List (String × PyVal) → Prop
  | [] => True
  | (_, v) :: rest => v.FromJson ∧ FromJsonRows rest

end

lemma fromJson_list {xs : List PyVal} : (PyVal.list xs).FromJson ↔ ∀ x ∈ xs, x.FromJson := by
  show PyVal.FromJsonItems xs ↔ _
  induction xs with
  | nil => simp [PyVal.FromJsonItems]
  | cons x xs ih => simp [PyVal.FromJsonItems, ih]

lemma fromJsonRows_iff {kvs : PyDict} :
    PyVal.FromJsonRows kvs ↔ ∀ e ∈ kvs, e.2.FromJson := by
  induction kvs with
  | nil => simp [PyVal.FromJsonRows]
  | cons e kvs ih => simp [PyVal.FromJsonRows, ih]

lemma fromJson_dict {kvs : PyDict} :
    (PyVal.dict kvs).FromJson ↔ (OrderedDict.keys kvs).Nodup ∧ ∀ e ∈ kvs, e.2.FromJson :=
  and_congr_right fun _ => fromJsonRows_iff

mutual

/-- Such a value comes back from JSON as it was. -/
theorem jsonCopy_of_fromJson : ∀ {v : PyVal}, v.FromJson → v.jsonCopy = some v
  | .none, _ | .bool _, _ | .int _, _ | .str _, _ | .float _, _ => rfl
  | .list xs, h => by rw [PyVal.jsonCopy, jsonCopyItems_of_fromJson h]; rfl
  | .dict kvs, h => by rw [PyVal.jsonCopy, jsonCopyEntries_of_fromJson h.2]; rfl
  | .tuple _, h | .object _, h => h.elim

theorem jsonCopyItems_of_fromJson :
    ∀ {xs : List PyVal}, PyVal.FromJsonItems xs → PyVal.jsonCopyItems xs = some xs
  | [], _ => rfl
  | x :: xs, h => by
    rw [PyVal.jsonCopyItems, jsonCopy_of_fromJson h.1, jsonCopyItems_of_fromJson h.2]
    rfl

theorem jsonCopyEntries_of_fromJson :
    ∀ {kvs : PyDict}, PyVal.FromJsonRows kvs → PyVal.jsonCopyEntries kvs = some kvs
  | [], _ => rfl
  | (k, v) :: rest, h => by
    rw [PyVal.jsonCopyEntries, jsonCopy_of_fromJson h.1, jsonCopyEntries_of_fromJson h.2]
    rfl

end

/-! ### The same JSON -/

variable {rt : PyRuntime}

/-- Two values are the same JSON: the same document, whatever the order of the keys. -/
def SameJson (v w : PyVal) : Prop := v.document = w.document

/-- Values of one canonical text are the same JSON. -/
theorem sameJson_of_canonicalJson (hfloat : FloatTexts rt) {v w : PyVal} (hv : v.FromJson)
    (hw : w.FromJson) (h : canonicalJson? rt v = canonicalJson? rt w) : SameJson v w := by
  unfold canonicalJson? at h
  rw [jsonCopy_of_fromJson hv, jsonCopy_of_fromJson hw] at h
  exact text_injective hfloat (Option.some.inj h)

lemma documentRows_eq (kvs : PyDict) :
    PyVal.documentRows kvs = kvs.map fun e => (e.1, e.2.document) := by
  induction kvs with
  | nil => rfl
  | cons e kvs ih => rw [PyVal.documentRows, List.map_cons, ih]

/-! ### Sorted rows -/

private lemma insertByKey_perm {α : Type} (e : String × α) (es : List (String × α)) :
    (insertByKey e es).Perm (e :: es) := by
  induction es with
  | nil => exact List.Perm.refl _
  | cons f fs ih =>
    unfold insertByKey
    split
    · exact (ih.cons f).trans (List.Perm.swap e f fs)
    · exact List.Perm.refl _

private lemma insertByKey_pairwise {α : Type} (e : String × α) {es : List (String × α)}
    (h : es.Pairwise (·.1 ≤ ·.1)) : (insertByKey e es).Pairwise (·.1 ≤ ·.1) := by
  induction es with
  | nil => exact List.pairwise_singleton ..
  | cons f fs ih =>
    obtain ⟨hf, hfs⟩ := List.pairwise_cons.mp h
    unfold insertByKey
    split
    · rename_i hle
      refine List.pairwise_cons.mpr ⟨fun g hg => ?_, ih hfs⟩
      rcases List.mem_cons.mp ((insertByKey_perm e fs).subset hg) with rfl | hg
      · exact hle
      · exact hf g hg
    · rename_i hle
      have hef : e.1 ≤ f.1 := le_of_not_ge hle
      refine List.pairwise_cons.mpr ⟨fun g hg => ?_, h⟩
      rcases List.mem_cons.mp hg with rfl | hg
      · exact hef
      · exact hef.trans (hf g hg)

private lemma foldl_insertByKey {α : Type} (es : List (String × α)) :
    ∀ acc : List (String × α), acc.Pairwise (·.1 ≤ ·.1) →
      (es.foldl (fun acc e => insertByKey e acc) acc).Perm (es ++ acc) ∧
        (es.foldl (fun acc e => insertByKey e acc) acc).Pairwise (·.1 ≤ ·.1) := by
  induction es with
  | nil => exact fun acc hacc => ⟨List.Perm.refl _, hacc⟩
  | cons e es ih =>
    intro acc hacc
    rw [List.foldl_cons]
    obtain ⟨hperm, hsorted⟩ := ih _ (insertByKey_pairwise e hacc)
    refine ⟨hperm.trans ?_, hsorted⟩
    exact ((insertByKey_perm e acc).append_left es).trans List.perm_middle

lemma sortByKey_perm {α : Type} (es : List (String × α)) : (sortByKey es).Perm es := by
  simpa [sortByKey] using (foldl_insertByKey es [] List.Pairwise.nil).1

lemma sortByKey_pairwise {α : Type} (es : List (String × α)) :
    (sortByKey es).Pairwise (·.1 ≤ ·.1) :=
  (foldl_insertByKey es [] List.Pairwise.nil).2

lemma sortByKey_eq_iff {α : Type} {es fs : List (String × α)}
    (hes : (OrderedDict.keys es).Nodup) :
    sortByKey es = sortByKey fs ↔ es.Perm fs := by
  constructor
  · intro h
    exact (sortByKey_perm es).symm.trans (h ▸ sortByKey_perm fs)
  · intro h
    refine List.Perm.eq_of_pairwise (fun a b ha hb hab hba => ?_) (sortByKey_pairwise es)
      (sortByKey_pairwise fs) ((sortByKey_perm es).trans (h.trans (sortByKey_perm fs).symm))
    have ha' : a ∈ es := (sortByKey_perm es).subset ha
    have hb' : b ∈ es := h.symm.subset ((sortByKey_perm fs).subset hb)
    exact List.inj_on_of_nodup_map hes ha' hb' (le_antisymm hab hba)

/-! ### Dictionaries -/

lemma PyDict.set_of_absent {d : PyDict} {key : String} {value : PyVal}
    (h : PyDict.has d key = false) : PyDict.set d key value = d ++ [(key, value)] := by
  rw [PyDict.set, if_neg (by simp [h])]

lemma PyDict.has_append (d e : PyDict) (key : String) :
    PyDict.has (d ++ e) key = (PyDict.has d key || PyDict.has e key) := by
  simp [PyDict.has]

@[simp] lemma keys_documentRows (d : PyDict) :
    OrderedDict.keys (PyVal.documentRows d) = OrderedDict.keys d := by
  rw [documentRows_eq, OrderedDict.keys, List.map_map]
  rfl

lemma get?_documentRows (d : PyDict) (key : String) :
    OrderedDict.get? (PyVal.documentRows d) key
      = (OrderedDict.get? d key).map PyVal.document := by
  rw [documentRows_eq]
  exact OrderedDict.get?_map_entry fun _ => PyVal.document

/-- Dictionaries are the same JSON when their values under every key are. -/
theorem sameJson_dict_iff {d e : PyDict} (hd : (OrderedDict.keys d).Nodup)
    (he : (OrderedDict.keys e).Nodup) :
    SameJson (.dict d) (.dict e) ↔ ∀ key,
      (OrderedDict.get? d key).map PyVal.document = (OrderedDict.get? e key).map PyVal.document := by
  have hrows : SameJson (.dict d) (.dict e) ↔
      sortByKey (PyVal.documentRows d) = sortByKey (PyVal.documentRows e) := by
    simp [SameJson, PyVal.document]
  rw [hrows, sortByKey_eq_iff (by rwa [keys_documentRows]),
    OrderedDict.perm_iff_get? (by rwa [keys_documentRows]) (by rwa [keys_documentRows])]
  simp only [get?_documentRows]

/-- A dictionary with as many entries as another has the same keys when its keys are all there. -/
lemma keys_perm_of_forall_mem {d e : PyDict} (hd : (OrderedDict.keys d).Nodup)
    (hlength : d.length = e.length) (h : ∀ row ∈ d, (OrderedDict.get? e row.1).isSome) :
    (OrderedDict.keys d).Perm (OrderedDict.keys e) := by
  have hsub : OrderedDict.keys d ⊆ OrderedDict.keys e := by
    intro k hk
    obtain ⟨row, hrow, rfl⟩ := List.mem_map.mp hk
    exact OrderedDict.mem_keys_iff.mpr (h row hrow)
  exact (hd.subperm hsub).perm_of_length_le (by simp [OrderedDict.keys, hlength])

/-- Dictionaries of one size are the same JSON when every entry of the first one has its like in
the second one. -/
lemma sameJson_dict_iff_forall_mem {d e : PyDict} (hd : (OrderedDict.keys d).Nodup)
    (he : (OrderedDict.keys e).Nodup) :
    SameJson (.dict d) (.dict e) ↔ d.length = e.length ∧
      ∀ row ∈ d, ∃ w, OrderedDict.get? e row.1 = some w ∧ SameJson row.2 w := by
  rw [sameJson_dict_iff hd he]
  constructor
  · intro hsame
    have hkeys : ∀ key, key ∈ OrderedDict.keys d ↔ key ∈ OrderedDict.keys e := by
      intro key
      rw [OrderedDict.mem_keys_iff, OrderedDict.mem_keys_iff, ← Option.isSome_map, hsame key,
        Option.isSome_map]
    have hperm := (List.perm_ext_iff_of_nodup hd he).mpr hkeys
    refine ⟨by simpa [OrderedDict.keys] using hperm.length_eq, fun row hrow => ?_⟩
    have hget := OrderedDict.get?_of_mem hd hrow
    have hrow := hsame row.1
    rw [hget, Option.map_some] at hrow
    obtain ⟨w, hw, hdoc⟩ := Option.map_eq_some_iff.mp hrow.symm
    exact ⟨w, hw, hdoc.symm⟩
  · rintro ⟨hlength, hrows⟩ key
    have hperm := keys_perm_of_forall_mem hd hlength fun row hrow => by
      obtain ⟨w, hw, -⟩ := hrows row hrow
      rw [hw]
      rfl
    cases hget : OrderedDict.get? d key with
    | some v =>
      obtain ⟨w, hw, hsame⟩ := hrows _ (OrderedDict.mem_of_get? hget)
      rw [hw, Option.map_some, Option.map_some, hsame]
    | none =>
      have hnot : key ∉ OrderedDict.keys e := by
        rw [← hperm.mem_iff, OrderedDict.mem_keys_iff, hget]
        simp
      rw [OrderedDict.mem_keys_iff, Option.not_isSome_iff_eq_none] at hnot
      rw [hnot]

/-! ### Equal values of the same types -/

mutual

/-- The values have the same types throughout. -/
def PyVal.sameTypes : PyVal → PyVal → Bool
  | .none, .none => true
  | .bool _, .bool _ => true
  | .int _, .int _ => true
  | .float _, .float _ => true
  | .str _, .str _ => true
  | .list xs, .list ys => sameTypesList xs ys
  | .tuple xs, .tuple ys => sameTypesList xs ys
  | .dict xs, .dict ys => sameTypesEntries xs ys
  | .object _, .object _ => true
  | _, _ => false

/-- The items of two sequences have the same types. -/
def PyVal.sameTypesList : List PyVal → List PyVal → Bool
  | x :: xs, y :: ys => x.sameTypes y && sameTypesList xs ys
  | _, _ => true

/-- The values under the keys of both dictionaries have the same types. -/
def PyVal.sameTypesEntries : List (String × PyVal) → List (String × PyVal) → Bool
  | [], _ => true
  | (k, v) :: xs, ys =>
    (match ys.lookup k with
      | some w => v.sameTypes w
      | Option.none => true) && sameTypesEntries xs ys

end

lemma pyEqEntries_iff {d e : PyDict} : PyVal.pyEqEntries d e = true ↔
    ∀ row ∈ d, ∃ w, OrderedDict.get? e row.1 = some w ∧ row.2.pyEq w = true := by
  induction d with
  | nil => simp [PyVal.pyEqEntries]
  | cons row d ih =>
    obtain ⟨k, v⟩ := row
    rw [List.forall_mem_cons, ← ih, PyVal.pyEqEntries, Bool.and_eq_true]
    refine and_congr_left fun _ => ?_
    cases hget : OrderedDict.get? e k with
    | none => simp [show e.lookup k = none from hget]
    | some w => simp [show e.lookup k = some w from hget]

lemma sameTypesEntries_iff {d e : PyDict} : PyVal.sameTypesEntries d e = true ↔
    ∀ row ∈ d, ∀ w, OrderedDict.get? e row.1 = some w → row.2.sameTypes w = true := by
  induction d with
  | nil => simp [PyVal.sameTypesEntries]
  | cons row d ih =>
    obtain ⟨k, v⟩ := row
    rw [List.forall_mem_cons, ← ih, PyVal.sameTypesEntries, Bool.and_eq_true]
    refine and_congr_left fun _ => ?_
    cases hget : OrderedDict.get? e k with
    | none => simp [show e.lookup k = none from hget]
    | some w => simp [show e.lookup k = some w from hget]

/-- Equal dictionaries have the same keys. -/
lemma keys_perm_of_pyEq {d e : PyDict} (hd : (OrderedDict.keys d).Nodup)
    (h : (PyVal.dict d).pyEq (.dict e) = true) :
    (OrderedDict.keys d).Perm (OrderedDict.keys e) := by
  rw [PyVal.pyEq, Bool.and_eq_true, beq_iff_eq, pyEqEntries_iff] at h
  refine keys_perm_of_forall_mem hd h.1 fun row hrow => ?_
  obtain ⟨w, hw, -⟩ := h.2 row hrow
  rw [hw]
  rfl

mutual

/-- Two values read from JSON are the same JSON exactly when they are equal and of the same types
throughout. -/
theorem sameJson_iff : ∀ {v w : PyVal}, v.FromJson → w.FromJson →
    (SameJson v w ↔ v.pyEq w = true ∧ v.sameTypes w = true)
  | .none, w, _, hw => by
    cases w with
    | object _ => exact hw.elim
    | _ => simp [SameJson, PyVal.document, PyVal.pyEq, PyVal.sameTypes]
  | .bool a, w, _, _ => by
    cases w with
    | bool b =>
      cases a <;> cases b <;>
        simp [SameJson, PyVal.document, PyVal.pyEq, PyVal.sameTypes, PyVal.number?]
    | _ => simp [SameJson, PyVal.document, PyVal.sameTypes]
  | .int m, w, _, _ => by
    cases w <;> simp [SameJson, PyVal.document, PyVal.pyEq, PyVal.sameTypes, PyVal.number?]
  | .float f, w, _, _ => by
    cases w <;> simp [SameJson, PyVal.document, PyVal.pyEq, PyVal.sameTypes]
  | .str s, w, _, _ => by
    cases w <;> simp [SameJson, PyVal.document, PyVal.pyEq, PyVal.sameTypes]
  | .list xs, w, hv, hw => by
    cases w with
    | list ys =>
      simpa [SameJson, PyVal.document, PyVal.pyEq, PyVal.sameTypes] using sameJsonItems_iff hv hw
    | tuple ys => exact hw.elim
    | _ => simp [SameJson, PyVal.document, PyVal.sameTypes]
  | .dict d, w, hv, hw => by
    cases w with
    | dict e =>
      rw [sameJson_dict_iff_forall_mem hv.1 hw.1, sameJsonEntries_iff hv.2 hw.2]
      simp [PyVal.pyEq, PyVal.sameTypes, and_assoc]
    | _ => simp [SameJson, PyVal.document, PyVal.sameTypes]
  | .tuple _, _, hv, _ | .object _, _, hv, _ => hv.elim

theorem sameJsonItems_iff : ∀ {xs ys : List PyVal}, PyVal.FromJsonItems xs →
    PyVal.FromJsonItems ys → (PyVal.documentItems xs = PyVal.documentItems ys ↔
      PyVal.pyEqList xs ys = true ∧ PyVal.sameTypesList xs ys = true)
  | [], ys, _, _ => by
    cases ys <;> simp [PyVal.documentItems, PyVal.pyEqList, PyVal.sameTypesList]
  | x :: xs, ys, hxs, hys => by
    cases ys with
    | nil => simp [PyVal.documentItems, PyVal.pyEqList]
    | cons y ys =>
      have hhead := sameJson_iff hxs.1 hys.1
      have htail := sameJsonItems_iff hxs.2 hys.2
      simp only [PyVal.documentItems, PyVal.pyEqList, PyVal.sameTypesList, List.cons.injEq,
        Bool.and_eq_true, htail]
      rw [← SameJson, hhead]
      tauto

theorem sameJsonEntries_iff : ∀ {d e : PyDict}, PyVal.FromJsonRows d → PyVal.FromJsonRows e →
    ((∀ row ∈ d, ∃ w, OrderedDict.get? e row.1 = some w ∧ SameJson row.2 w) ↔
      PyVal.pyEqEntries d e = true ∧ PyVal.sameTypesEntries d e = true)
  | [], _, _, _ => by simp [PyVal.pyEqEntries, PyVal.sameTypesEntries]
  | (k, v) :: d, e, hd, he => by
    have htail := sameJsonEntries_iff hd.2 he
    rw [List.forall_mem_cons, htail]
    cases hget : OrderedDict.get? e k with
    | none =>
      have hlookup : e.lookup k = none := hget
      simp [PyVal.pyEqEntries, hlookup]
    | some w =>
      have hlookup : e.lookup k = some w := hget
      have hhead := sameJson_iff hd.1 (fromJsonRows_iff.mp he _ (OrderedDict.mem_of_get? hget))
      simp only [PyVal.pyEqEntries, PyVal.sameTypesEntries, hlookup, Bool.and_eq_true,
        Option.some.injEq, exists_eq_left', hhead]
      tauto

end

/-- A value read from JSON is equal to itself. -/
lemma pyEq_self {v : PyVal} (h : v.FromJson) : v.pyEq v = true := ((sameJson_iff h h).mp rfl).1

lemma sameTypes_self {v : PyVal} (h : v.FromJson) : v.sameTypes v = true :=
  ((sameJson_iff h h).mp rfl).2

/-- A list of texts is equal to itself only. -/
lemma eq_of_pyEq_strings {names : List String} {w : PyVal}
    (h : (PyVal.list (names.map .str)).pyEq w = true) : w = .list (names.map .str) := by
  cases w with
  | list ys =>
    rw [PyVal.pyEq] at h
    congr 1
    induction names generalizing ys with
    | nil =>
      cases ys with
      | nil => rfl
      | cons y ys => simp [PyVal.pyEqList] at h
    | cons name names ih =>
      cases ys with
      | nil => simp [PyVal.pyEqList] at h
      | cons y ys =>
        rw [List.map_cons, PyVal.pyEqList, Bool.and_eq_true] at h
        rw [ih ys h.2, List.map_cons]
        congr 1
        cases y <;> simp [PyVal.pyEq, PyVal.number?] at h
        rw [h.1]
  | _ => simp [PyVal.pyEq, PyVal.number?] at h

end Trion.Python
