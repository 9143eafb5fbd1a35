import Trion.Library.OrderedDict
import Trion.Python.Value

/-!
# A round trip through JSON

What `json.loads(json.dumps(value))` gives back: tuples come back as lists, and a value of any
other class cannot be written.
-/

namespace Trion.Python

mutual

/-- `json.loads(json.dumps(value))`, `none` where `json.dumps` raises. -/
def PyVal.jsonCopy : PyVal → Option PyVal
  | .list xs => (jsonCopyItems xs).map .list
  | .tuple xs => (jsonCopyItems xs).map .list
  | .dict kvs => (jsonCopyEntries kvs).map .dict
  | .object _ => Option.none
  | v => some v

/-- The items of a JSON array. -/
def PyVal.jsonCopyItems : List PyVal → Option (List PyVal)
  | [] => some []
  | x :: xs => do return (← x.jsonCopy) :: (← jsonCopyItems xs)

/-- The rows of a JSON object. -/
def PyVal.jsonCopyEntries : List (String × PyVal) → Option (List (String × PyVal))
  | [] => some []
  | (k, v) :: rest => do return (k, ← v.jsonCopy) :: (← jsonCopyEntries rest)

end

mutual

/-- The values JSON has: a finite number, a text, a truth value, null, and arrays and objects
of such values. -/
def PyVal.isJson : PyVal → Bool
  | .none | .bool _ | .int _ | .str _ | .float (.finite _) => true
  | .list xs => isJsonItems xs
  | .dict kvs => isJsonEntries kvs
  | .float _ | .tuple _ | .object _ => false

/-- Every item is a JSON value. -/
def PyVal.isJsonItems : List PyVal → Bool
  | [] => true
  | x :: xs => x.isJson && isJsonItems xs

/-- Every value of a row is a JSON value. -/
def PyVal.isJsonEntries : List (String × PyVal) → Bool
  | [] => true
  | (_, v) :: rest => v.isJson && isJsonEntries rest

end

@[simp] lemma isJsonItems_iff {xs : List PyVal} :
    PyVal.isJsonItems xs = true ↔ ∀ x ∈ xs, x.isJson = true := by
  induction xs with
  | nil => simp [PyVal.isJsonItems]
  | cons x xs ih => simp [PyVal.isJsonItems, ih]

@[simp] lemma isJsonEntries_iff {kvs : PyDict} :
    PyVal.isJsonEntries kvs = true ↔ ∀ e ∈ kvs, e.2.isJson = true := by
  induction kvs with
  | nil => simp [PyVal.isJsonEntries]
  | cons e kvs ih => simp [PyVal.isJsonEntries, ih]

mutual

/-- A JSON value comes back as it was. -/
theorem jsonCopy_of_isJson : ∀ {v : PyVal}, v.isJson = true → v.jsonCopy = some v
  | .none, _ | .bool _, _ | .int _, _ | .str _, _ | .float _, _ => rfl
  | .list xs, h => by rw [PyVal.jsonCopy, jsonCopyItems_of_isJson h]; rfl
  | .dict kvs, h => by rw [PyVal.jsonCopy, jsonCopyEntries_of_isJson h]; rfl
  | .tuple _, h | .object _, h => by simp [PyVal.isJson] at h

theorem jsonCopyItems_of_isJson :
    ∀ {xs : List PyVal}, PyVal.isJsonItems xs = true → PyVal.jsonCopyItems xs = some xs
  | [], _ => rfl
  | x :: xs, h => by
    obtain ⟨hx, hxs⟩ := Bool.and_eq_true_iff.mp h
    rw [PyVal.jsonCopyItems, jsonCopy_of_isJson hx, jsonCopyItems_of_isJson hxs]
    rfl

theorem jsonCopyEntries_of_isJson :
    ∀ {kvs : PyDict}, PyVal.isJsonEntries kvs = true → PyVal.jsonCopyEntries kvs = some kvs
  | [], _ => rfl
  | (k, v) :: rest, h => by
    obtain ⟨hv, hrest⟩ := Bool.and_eq_true_iff.mp h
    rw [PyVal.jsonCopyEntries, jsonCopy_of_isJson hv, jsonCopyEntries_of_isJson hrest]
    rfl

end

mutual

/-- What came back once comes back the same every time. -/
theorem jsonCopy_idem : ∀ {v w : PyVal}, v.jsonCopy = some w → w.jsonCopy = some w
  | .none, _, h | .bool _, _, h | .int _, _, h | .str _, _, h | .float _, _, h => by
    obtain rfl := Option.some.inj h
    rfl
  | .list xs, _, h | .tuple xs, _, h => by
    obtain ⟨ys, hys, rfl⟩ := Option.map_eq_some_iff.mp h
    rw [PyVal.jsonCopy, jsonCopyItems_idem hys]
    rfl
  | .dict kvs, _, h => by
    obtain ⟨rows, hrows, rfl⟩ := Option.map_eq_some_iff.mp h
    rw [PyVal.jsonCopy, jsonCopyEntries_idem hrows]
    rfl
  | .object _, _, h => by simp [PyVal.jsonCopy] at h

theorem jsonCopyItems_idem : ∀ {xs ys : List PyVal},
    PyVal.jsonCopyItems xs = some ys → PyVal.jsonCopyItems ys = some ys
  | [], _, h => by
    obtain rfl := Option.some.inj h
    rfl
  | x :: xs, _, h => by
    obtain ⟨y, hy, h⟩ := Option.bind_eq_some_iff.mp h
    obtain ⟨ys, hys, h⟩ := Option.bind_eq_some_iff.mp h
    obtain rfl := Option.some.inj h
    rw [PyVal.jsonCopyItems, jsonCopy_idem hy, jsonCopyItems_idem hys]
    rfl

theorem jsonCopyEntries_idem : ∀ {kvs rows : PyDict},
    PyVal.jsonCopyEntries kvs = some rows → PyVal.jsonCopyEntries rows = some rows
  | [], _, h => by
    obtain rfl := Option.some.inj h
    rfl
  | (k, v) :: rest, _, h => by
    obtain ⟨w, hw, h⟩ := Option.bind_eq_some_iff.mp h
    obtain ⟨rows, hrows, h⟩ := Option.bind_eq_some_iff.mp h
    obtain rfl := Option.some.inj h
    rw [PyVal.jsonCopyEntries, jsonCopy_idem hw, jsonCopyEntries_idem hrows]
    rfl

end

/-! ### Copies of dictionaries -/

section Entries

variable {key : String}

/-- The copy of a dictionary has the copies of its values. -/
lemma get?_jsonCopyEntries {d copy : PyDict} (h : PyVal.jsonCopyEntries d = some copy) :
    OrderedDict.get? copy key = (OrderedDict.get? d key).bind PyVal.jsonCopy := by
  induction d generalizing copy with
  | nil =>
    obtain rfl := Option.some.inj h
    rfl
  | cons e d ih =>
    obtain ⟨k, v⟩ := e
    obtain ⟨w, hw, h⟩ := Option.bind_eq_some_iff.mp h
    obtain ⟨rest, hrest, h⟩ := Option.bind_eq_some_iff.mp h
    obtain rfl := Option.some.inj h
    rw [OrderedDict.get?_cons, OrderedDict.get?_cons]
    split
    · exact hw.symm
    · exact ih hrest

/-- A value of a dictionary that can be copied can be copied. -/
lemma exists_jsonCopy {d copy : PyDict} {v : PyVal} (h : PyVal.jsonCopyEntries d = some copy)
    (hv : OrderedDict.get? d key = some v) :
    ∃ w, v.jsonCopy = some w ∧ OrderedDict.get? copy key = some w := by
  induction d generalizing copy with
  | nil => cases hv
  | cons e d ih =>
    obtain ⟨k, v₀⟩ := e
    obtain ⟨w, hw, h⟩ := Option.bind_eq_some_iff.mp h
    obtain ⟨rest, hrest, h⟩ := Option.bind_eq_some_iff.mp h
    obtain rfl := Option.some.inj h
    rw [OrderedDict.get?_cons] at hv ⊢
    split at hv
    · obtain rfl := Option.some.inj hv
      exact ⟨w, hw, by simp_all⟩
    · obtain ⟨w', hw', hget⟩ := ih hrest hv
      exact ⟨w', hw', by simp_all⟩

lemma keys_jsonCopyEntries {d copy : PyDict} (h : PyVal.jsonCopyEntries d = some copy) :
    OrderedDict.keys copy = OrderedDict.keys d := by
  induction d generalizing copy with
  | nil =>
    obtain rfl := Option.some.inj h
    rfl
  | cons e d ih =>
    obtain ⟨w, -, h⟩ := Option.bind_eq_some_iff.mp h
    obtain ⟨rest, hrest, h⟩ := Option.bind_eq_some_iff.mp h
    obtain rfl := Option.some.inj h
    rw [OrderedDict.keys, OrderedDict.keys, List.map_cons, List.map_cons]
    exact congrArg _ (ih hrest)

lemma length_jsonCopyEntries {d copy : PyDict} (h : PyVal.jsonCopyEntries d = some copy) :
    copy.length = d.length := by
  simpa [OrderedDict.keys] using congrArg List.length (keys_jsonCopyEntries h)

/-- A list of values that come back comes back. -/
lemma jsonCopyItems_of_forall {vs : List PyVal} (h : ∀ v ∈ vs, v.jsonCopy = some v) :
    PyVal.jsonCopyItems vs = some vs := by
  induction vs with
  | nil => rfl
  | cons v vs ih =>
    rw [PyVal.jsonCopyItems, h v List.mem_cons_self,
      ih fun v' hv' => h v' (List.mem_cons_of_mem v hv')]
    rfl

/-- A dictionary of values that come back comes back. -/
lemma jsonCopyEntries_of_forall {d : PyDict} (h : ∀ e ∈ d, e.2.jsonCopy = some e.2) :
    PyVal.jsonCopyEntries d = some d := by
  induction d with
  | nil => rfl
  | cons e d ih =>
    rw [PyVal.jsonCopyEntries, h e List.mem_cons_self,
      ih fun e' he' => h e' (List.mem_cons_of_mem e he')]
    rfl

lemma jsonCopy_dict {d : PyDict} {v : PyVal} (h : (PyVal.dict d).jsonCopy = some v) :
    ∃ copy, v = .dict copy ∧ PyVal.jsonCopyEntries d = some copy := by
  obtain ⟨copy, hcopy, rfl⟩ := Option.map_eq_some_iff.mp h
  exact ⟨copy, rfl, hcopy⟩

end Entries

end Trion.Python
