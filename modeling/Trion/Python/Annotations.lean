import Trion.Library.OrderedDict
import Trion.Python.Json

/-!
# Records read by their annotations

`plan_schema.py` reads a record from a dictionary by the annotations of its fields, and
`contract_dict` writes one field after the other.  An annotation is indexed here by the type of
the values it stands for, a contract by the tuple of its fields.  A value comes back from its JSON
exactly when it is valid for the annotation, and what is read from JSON is valid.

A number that an annotation takes for a float is read as the float of its value, a NaN among them:
that two values are the same says nothing of their NaNs.
-/

namespace Trion.Python

mutual

/-- The annotation of a field. -/
inductive TypeHint : Type → Type 1 where
  | any : TypeHint PyVal
  | str : TypeHint String
  | bool : TypeHint Bool
  | int : TypeHint ℤ
  | float : TypeHint PyFloat
  | enum {α : Type} (members : List α) (value : α → String) : TypeHint α
  | optional {α : Type} (item : TypeHint α) : TypeHint (Option α)
  | list {α : Type} (item : TypeHint α) : TypeHint (List α)
  | dict {α : Type} (item : TypeHint α) : TypeHint (List (String × α))
  | contract {α β : Type} (fields : Fields β) (build : β → Option α) (parts : α → β) : TypeHint α

/-- The fields of a contract in the order of their declaration, with their defaults. -/
inductive Fields : Type → Type 1 where
  | nil : Fields Unit
  | field {α β : Type} (name : String) (item : TypeHint α) (default : Option α)
      (rest : Fields β) : Fields (α × β)

end

/-- The names of the fields. -/
def Fields.names : {β : Type} → Fields β → List String
  | _, .nil => []
  | _, .field name _ _ rest => name :: rest.names

/-! ### Reading -/

mutual

/-- `_field_value`, and `_dataclass_value` for a contract; `none` is `_INVALID`. -/
def TypeHint.fieldValue : {α : Type} → TypeHint α → PyVal → Option α
  | _, .any, v => some v
  | _, .str, v => match v with
    | .str s => some s
    | _ => none
  | _, .bool, v => match v with
    | .bool b => some b
    | _ => none
  | _, .int, v => match v with
    | .int n => some n
    | _ => none
  | _, .float, v => match v with
    | .int n => some (.finite n)
    | .float x => some x
    | _ => none
  | _, .enum members value, v => match v with
    | .str s => members.find? fun member => value member == s
    | _ => none
  | _, .optional item, v => match v with
    | .none => some none
    | v => (item.fieldValue v).map some
  | _, .list item, v => match v with
    | .list xs => xs.mapM item.fieldValue
    | _ => none
  | _, .dict item, v => match v with
    | .dict d => d.mapM fun e => (item.fieldValue e.2).map (e.1, ·)
    | _ => none
  | _, .contract fields build _, v => match v with
    | .dict d =>
      if (OrderedDict.keys d).all fields.names.contains then (fields.parse d).bind build else none
    | _ => none

/-- The values of the fields. -/
def Fields.parse : {β : Type} → Fields β → PyDict → Option β
  | _, .nil, _ => some ()
  | _, .field name item default rest, d => do
    let value ← (OrderedDict.get? d name).elim default item.fieldValue
    return (value, ← rest.parse d)

end

/-! ### Writing -/

mutual

/-- `contract_dict` of a value. -/
def TypeHint.write : {α : Type} → TypeHint α → α → PyVal
  | _, .any, v => v
  | _, .str, s => .str s
  | _, .bool, b => .bool b
  | _, .int, n => .int n
  | _, .float, x => .float x
  | _, .enum _ value, member => .str (value member)
  | _, .optional item, o => match o with
    | none => .none
    | some x => item.write x
  | _, .list item, xs => .list (xs.map item.write)
  | _, .dict item, d => .dict (d.map fun e => (e.1, item.write e.2))
  | _, .contract fields _ parts, x => .dict (fields.write (parts x))

/-- The fields of a record. -/
def Fields.write : {β : Type} → Fields β → β → PyDict
  | _, .nil, _ => []
  | _, .field name item _ rest, x => (name, item.write x.1) :: rest.write x.2

end

/-! ### Validity -/

mutual

/-- The values that come back. -/
def TypeHint.Valid : {α : Type} → TypeHint α → α → Prop
  | _, .any, v => v.jsonCopy = some v
  | _, .enum members value, x => members.find? (fun member => value member == value x) = some x
  | _, .optional item, o => ∀ x ∈ o, item.Valid x ∧ item.write x ≠ .none
  | _, .list item, xs => ∀ x ∈ xs, item.Valid x
  | _, .dict item, d => ∀ e ∈ d, item.Valid e.2
  | _, .contract fields build parts, x => fields.Valid (parts x) ∧ build (parts x) = some x
  | _, .str, _ | _, .bool, _ | _, .int, _ | _, .float, _ => True

def Fields.Valid : {β : Type} → Fields β → β → Prop
  | _, .nil, _ => True
  | _, .field _ item _ rest, x => item.Valid x.1 ∧ rest.Valid x.2

end

mutual

/-- The names of the fields of each contract differ, its defaults are valid, and a record is built
from its parts. -/
def TypeHint.Lawful : {α : Type} → TypeHint α → Prop
  | _, .optional item => item.Lawful
  | _, .list item => item.Lawful
  | _, .dict item => item.Lawful
  | _, .contract fields build parts =>
    fields.names.Nodup ∧ (∀ y x, build y = some x → parts x = y) ∧ fields.Lawful
  | _, _ => True

def Fields.Lawful : {β : Type} → Fields β → Prop
  | _, .nil => True
  | _, .field _ item default rest =>
    item.Lawful ∧ (∀ x ∈ default, item.Valid x) ∧ rest.Lawful

end

/-! ### Values come back -/

lemma fieldValue_optional {α : Type} {item : TypeHint α} {v : PyVal} (hv : v ≠ .none) :
    (TypeHint.optional item).fieldValue v = (item.fieldValue v).map some := by
  cases v with
  | none => exact absurd rfl hv
  | _ => rfl

/-- Only `None` is copied to `None`. -/
lemma jsonCopy_ne_none {v copy : PyVal} (h : v.jsonCopy = some copy) (hv : v ≠ .none) :
    copy ≠ .none := by
  rintro rfl
  cases v with
  | none => exact hv rfl
  | list xs => obtain ⟨ys, -, hys⟩ := Option.map_eq_some_iff.mp h; cases hys
  | tuple xs => obtain ⟨ys, -, hys⟩ := Option.map_eq_some_iff.mp h; cases hys
  | dict d => obtain ⟨rows, -, hrows⟩ := Option.map_eq_some_iff.mp h; cases hrows
  | _ => cases h

/-- What is read from a value that is there is written as such a value. -/
theorem TypeHint.write_ne_none : ∀ {α : Type} (a : TypeHint α) {v : PyVal} {x : α},
    a.fieldValue v = some x → v ≠ .none → a.write x ≠ .none
  | _, .any, v, x, hread, hv => by
    obtain rfl := Option.some.inj hread
    exact hv
  | _, .optional item, v, o, hread, hv => by
    rw [fieldValue_optional hv] at hread
    obtain ⟨x, hx, rfl⟩ := Option.map_eq_some_iff.mp hread
    exact item.write_ne_none hx hv
  | _, .str, _, _, _, _ => PyVal.noConfusion
  | _, .bool, _, _, _, _ => PyVal.noConfusion
  | _, .int, _, _, _, _ => PyVal.noConfusion
  | _, .float, _, _, _, _ => PyVal.noConfusion
  | _, .enum _ _, _, _, _, _ => PyVal.noConfusion
  | _, .list _, _, _, _, _ => PyVal.noConfusion
  | _, .dict _, _, _, _, _ => PyVal.noConfusion
  | _, .contract _ _ _, _, _, _, _ => PyVal.noConfusion

section Items

variable {α : Type} {write : α → PyVal} {read : PyVal → Option α}

/-- A list comes back item by item. -/
lemma items_comeBack {xs : List α}
    (h : ∀ x ∈ xs, ∃ copy, (write x).jsonCopy = some copy ∧ read copy = some x) :
    ∃ ys, PyVal.jsonCopyItems (xs.map write) = some ys ∧ ys.mapM read = some xs := by
  induction xs with
  | nil => exact ⟨[], rfl, rfl⟩
  | cons x xs ih =>
    obtain ⟨copy, hcopy, hread⟩ := h x List.mem_cons_self
    obtain ⟨ys, hys, hrest⟩ := ih fun x' hx' => h x' (List.mem_cons_of_mem x hx')
    refine ⟨copy :: ys, ?_, ?_⟩
    · rw [List.map_cons, PyVal.jsonCopyItems, hcopy, hys]
      rfl
    · rw [List.mapM_cons, hread, hrest]
      rfl

/-- A dictionary comes back entry by entry. -/
lemma entries_comeBack {d : List (String × α)}
    (h : ∀ e ∈ d, ∃ copy, (write e.2).jsonCopy = some copy ∧ read copy = some e.2) :
    ∃ rows, PyVal.jsonCopyEntries (d.map fun e => (e.1, write e.2)) = some rows ∧
      (rows.mapM fun e => (read e.2).map (e.1, ·)) = some d := by
  induction d with
  | nil => exact ⟨[], rfl, rfl⟩
  | cons e d ih =>
    obtain ⟨copy, hcopy, hread⟩ := h e List.mem_cons_self
    obtain ⟨rows, hrows, hrest⟩ := ih fun e' he' => h e' (List.mem_cons_of_mem e he')
    refine ⟨(e.1, copy) :: rows, ?_, ?_⟩
    · rw [List.map_cons, PyVal.jsonCopyEntries, hcopy, hrows]
      rfl
    · rw [List.mapM_cons, hread, hrest]
      rfl

/-- What is read from a list is read item by item. -/
lemma exists_of_mapM {γ : Type} {read : γ → Option α} {vs : List γ} {xs : List α}
    (h : vs.mapM read = some xs) :
    ∀ x ∈ xs, ∃ v ∈ vs, read v = some x := by
  induction vs generalizing xs with
  | nil =>
    obtain rfl := Option.some.inj h
    exact fun x hx => absurd hx List.not_mem_nil
  | cons v vs ih =>
    rw [List.mapM_cons] at h
    obtain ⟨y, hy, h⟩ := Option.bind_eq_some_iff.mp h
    obtain ⟨ys, hys, h⟩ := Option.bind_eq_some_iff.mp h
    obtain rfl := Option.some.inj h
    intro x hx
    rcases List.mem_cons.mp hx with rfl | hx
    · exact ⟨v, List.mem_cons_self, hy⟩
    · obtain ⟨v', hv', hread⟩ := ih hys x hx
      exact ⟨v', List.mem_cons_of_mem v hv', hread⟩

end Items

/-- The items of a JSON list are JSON. -/
lemma jsonCopy_of_mem {vs : List PyVal} (h : PyVal.jsonCopyItems vs = some vs) :
    ∀ v ∈ vs, v.jsonCopy = some v := by
  induction vs with
  | nil => exact fun v hv => absurd hv List.not_mem_nil
  | cons v vs ih =>
    obtain ⟨w, hw, h⟩ := Option.bind_eq_some_iff.mp h
    obtain ⟨ws, hws, h⟩ := Option.bind_eq_some_iff.mp h
    obtain ⟨rfl, rfl⟩ := List.cons.inj (Option.some.inj h)
    intro v' hv'
    rcases List.mem_cons.mp hv' with rfl | hv'
    · exact hw
    · exact ih hws v' hv'

/-- The values of a JSON dictionary are JSON. -/
lemma jsonCopy_of_mem_entries {d : PyDict} (h : PyVal.jsonCopyEntries d = some d) :
    ∀ e ∈ d, e.2.jsonCopy = some e.2 := by
  induction d with
  | nil => exact fun e he => absurd he List.not_mem_nil
  | cons e d ih =>
    obtain ⟨w, hw, h⟩ := Option.bind_eq_some_iff.mp h
    obtain ⟨rows, hrows, h⟩ := Option.bind_eq_some_iff.mp h
    obtain ⟨he, rfl⟩ := List.cons.inj (Option.some.inj h)
    intro e' he'
    rcases List.mem_cons.mp he' with rfl | he'
    · rw [hw, ← he]
    · exact ih hrows e' he'

lemma jsonCopyItems_of_list {vs : List PyVal} (h : (PyVal.list vs).jsonCopy = some (.list vs)) :
    PyVal.jsonCopyItems vs = some vs := by
  obtain ⟨ws, hws, heq⟩ := Option.map_eq_some_iff.mp h
  rw [hws, PyVal.list.inj heq]

lemma jsonCopyEntries_of_dict {d : PyDict} (h : (PyVal.dict d).jsonCopy = some (.dict d)) :
    PyVal.jsonCopyEntries d = some d := by
  obtain ⟨rows, hrows, heq⟩ := Option.map_eq_some_iff.mp h
  rw [hrows, PyVal.dict.inj heq]

lemma Fields.keys_write : ∀ {β : Type} (fs : Fields β) (y : β),
    OrderedDict.keys (fs.write y) = fs.names
  | _, .nil, _ => rfl
  | _, .field name _ _ rest, y => congrArg (name :: ·) (rest.keys_write y.2)

mutual

/-- A valid value comes back from its JSON. -/
theorem TypeHint.comesBack : ∀ {α : Type} (a : TypeHint α), a.Lawful → ∀ {x : α}, a.Valid x →
    ∃ copy, (a.write x).jsonCopy = some copy ∧ a.fieldValue copy = some x
  | _, .any, _, v, hv => ⟨v, hv, rfl⟩
  | _, .str, _, s, _ => ⟨.str s, rfl, rfl⟩
  | _, .bool, _, b, _ => ⟨.bool b, rfl, rfl⟩
  | _, .int, _, n, _ => ⟨.int n, rfl, rfl⟩
  | _, .float, _, x, _ => ⟨.float x, rfl, rfl⟩
  | _, .enum members value, _, member, hmember => ⟨.str (value member), rfl, hmember⟩
  | _, .optional item, hlaw, o, ho => by
    cases o with
    | none => exact ⟨.none, rfl, rfl⟩
    | some x =>
      obtain ⟨hx, hne⟩ := ho x rfl
      obtain ⟨copy, hcopy, hread⟩ := item.comesBack hlaw hx
      refine ⟨copy, hcopy, ?_⟩
      rw [fieldValue_optional (jsonCopy_ne_none hcopy hne), hread]
      rfl
  | _, .list item, hlaw, xs, hxs => by
    obtain ⟨ys, hys, hread⟩ := items_comeBack fun x hx => item.comesBack hlaw (hxs x hx)
    exact ⟨.list ys, congrArg (Option.map PyVal.list) hys, hread⟩
  | _, .dict item, hlaw, d, hd => by
    obtain ⟨rows, hrows, hread⟩ := entries_comeBack fun e he => item.comesBack hlaw (hd e he)
    exact ⟨.dict rows, congrArg (Option.map PyVal.dict) hrows, hread⟩
  | _, .contract fields build parts, hlaw, x, hx => by
    obtain ⟨hnodup, -, hfields⟩ := hlaw
    obtain ⟨copy, hcopy, hread⟩ := fields.comesBack hfields hnodup hx.1
    refine ⟨.dict copy, congrArg (Option.map PyVal.dict) hcopy, ?_⟩
    have hnames : (OrderedDict.keys copy).all fields.names.contains = true := by
      rw [keys_jsonCopyEntries hcopy, fields.keys_write, List.all_eq_true]
      intro name hname
      exact List.contains_iff_mem.mpr hname
    change (if (OrderedDict.keys copy).all fields.names.contains = true then
      (fields.parse copy).bind build else none) = some x
    rw [if_pos hnames, hread copy fun _ _ => rfl]
    exact hx.2

theorem Fields.comesBack : ∀ {β : Type} (fs : Fields β), fs.Lawful → fs.names.Nodup → ∀ {y : β},
    fs.Valid y → ∃ copy, PyVal.jsonCopyEntries (fs.write y) = some copy ∧
      ∀ d : PyDict, (∀ name ∈ fs.names, OrderedDict.get? d name = OrderedDict.get? copy name) →
        fs.parse d = some y
  | _, .nil, _, _, _, _ => ⟨[], rfl, fun _ _ => rfl⟩
  | _, .field name item default rest, hlaw, hnodup, y, hy => by
    obtain ⟨hname, hrest⟩ := List.nodup_cons.mp hnodup
    obtain ⟨copy, hcopy, hread⟩ := item.comesBack hlaw.1 hy.1
    obtain ⟨rows, hrows, hparse⟩ := rest.comesBack hlaw.2.2 hrest hy.2
    refine ⟨(name, copy) :: rows, ?_, fun d hd => ?_⟩
    · rw [Fields.write, PyVal.jsonCopyEntries, hcopy, hrows]
      rfl
    · have hfirst : OrderedDict.get? d name = some copy := by
        rw [hd name List.mem_cons_self, OrderedDict.get?_cons, if_pos rfl]
      have hothers : rest.parse d = some y.2 := hparse d fun name' hname' => by
        have hne : name' ≠ name := by
          rintro rfl
          exact hname hname'
        rw [hd name' (List.mem_cons_of_mem name hname'), OrderedDict.get?_cons]
        exact if_neg hne
      rw [Fields.parse, hfirst, Option.elim_some, hread, hothers]
      rfl

end

mutual

/-- What is read from JSON is valid. -/
theorem TypeHint.valid_of_fieldValue : ∀ {α : Type} (a : TypeHint α), a.Lawful →
    ∀ {v : PyVal} {x : α}, v.jsonCopy = some v → a.fieldValue v = some x → a.Valid x
  | _, .any, _, v, x, hv, hread => by
    obtain rfl := Option.some.inj hread
    exact hv
  | _, .str, _, _, _, _, _ | _, .bool, _, _, _, _, _ | _, .int, _, _, _, _, _
  | _, .float, _, _, _, _, _ => trivial
  | _, .enum members value, _, v, x, _, hread => by
    cases v with
    | str s =>
      obtain rfl : value x = s := by simpa using List.find?_some hread
      exact hread
    | _ => cases hread
  | _, .optional item, hlaw, v, o, hv, hread => by
    intro x hx
    obtain rfl := Option.mem_def.mp hx
    by_cases hnone : v = .none
    · subst hnone
      cases hread
    · rw [fieldValue_optional hnone] at hread
      obtain ⟨x', hx', heq⟩ := Option.map_eq_some_iff.mp hread
      obtain rfl := Option.some.inj heq
      exact ⟨item.valid_of_fieldValue hlaw hv hx', item.write_ne_none hx' hnone⟩
  | _, .list item, hlaw, v, xs, hv, hread => by
    cases v with
    | list vs =>
      intro x hx
      obtain ⟨v, hmem, hx'⟩ := exists_of_mapM hread x hx
      exact item.valid_of_fieldValue hlaw (jsonCopy_of_mem (jsonCopyItems_of_list hv) v hmem) hx'
    | _ => cases hread
  | _, .dict item, hlaw, v, d, hv, hread => by
    cases v with
    | dict rows =>
      intro e he
      obtain ⟨row, hmem, hrow⟩ := exists_of_mapM hread e he
      obtain ⟨x, hx, rfl⟩ := Option.map_eq_some_iff.mp hrow
      exact item.valid_of_fieldValue hlaw
        (jsonCopy_of_mem_entries (jsonCopyEntries_of_dict hv) row hmem) hx
    | _ => cases hread
  | _, .contract fields build parts, hlaw, v, x, hv, hread => by
    cases v with
    | dict d =>
      change (if (OrderedDict.keys d).all fields.names.contains = true then
        (fields.parse d).bind build else none) = some x at hread
      split at hread
      · obtain ⟨y, hy, hbuild⟩ := Option.bind_eq_some_iff.mp hread
        obtain ⟨-, hparts, hfields⟩ := hlaw
        obtain rfl := hparts y x hbuild
        exact ⟨fields.valid_of_parse hfields (jsonCopyEntries_of_dict hv) hy, hbuild⟩
      · cases hread
    | _ => cases hread

theorem Fields.valid_of_parse : ∀ {β : Type} (fs : Fields β), fs.Lawful → ∀ {d : PyDict} {y : β},
    PyVal.jsonCopyEntries d = some d → fs.parse d = some y → fs.Valid y
  | _, .nil, _, _, _, _, _ => trivial
  | _, .field name item default rest, hlaw, d, y, hd, hparse => by
    obtain ⟨hitem, hdefault, hrest⟩ := hlaw
    rw [Fields.parse] at hparse
    obtain ⟨value, hvalue, hparse⟩ := Option.bind_eq_some_iff.mp hparse
    obtain ⟨values, hvalues, hparse⟩ := Option.bind_eq_some_iff.mp hparse
    obtain rfl := Option.some.inj hparse
    refine ⟨?_, rest.valid_of_parse hrest hd hvalues⟩
    cases hget : OrderedDict.get? d name with
    | none =>
      rw [hget] at hvalue
      exact hdefault value hvalue
    | some v =>
      rw [hget] at hvalue
      exact item.valid_of_fieldValue hitem
        (jsonCopy_of_mem_entries hd _ (OrderedDict.mem_of_get? hget)) hvalue

end

/-- A value comes back from its JSON exactly when it is valid. -/
theorem TypeHint.comesBack_iff {α : Type} (a : TypeHint α) (hlaw : a.Lawful) {x : α} :
    (a.write x).jsonCopy.bind a.fieldValue = some x ↔ a.Valid x := by
  constructor
  · intro h
    obtain ⟨copy, hcopy, hread⟩ := Option.bind_eq_some_iff.mp h
    exact a.valid_of_fieldValue hlaw (jsonCopy_idem hcopy) hread
  · intro h
    obtain ⟨copy, hcopy, hread⟩ := a.comesBack hlaw h
    rw [hcopy]
    exact hread

end Trion.Python
