import Mathlib.Data.List.Nodup

/-!
# Dictionaries in insertion order

A dictionary is the list of its entries in the order in which the keys came in.  Writing to
a key that is there replaces the value in place, a new key goes to the end, and a key is
removed with its entry.  The laws below say what each operation does to the value under a
key and to the list of keys.
-/

namespace OrderedDict

variable {α β : Type*} [DecidableEq α]

/-- The value under a key. -/
def get? (d : List (α × β)) (key : α) : Option β := d.lookup key

/-- The key is there. -/
def has (d : List (α × β)) (key : α) : Bool := d.any (·.1 == key)

/-- The keys in insertion order. -/
def keys (d : List (α × β)) : List α := d.map Prod.fst

/-- Writes a value under a key: an existing key keeps its place. -/
def insert (d : List (α × β)) (key : α) (value : β) : List (α × β) :=
  if has d key then d.map fun e => if e.1 == key then (key, value) else e
  else d ++ [(key, value)]

/-- Removes a key. -/
def erase (d : List (α × β)) (key : α) : List (α × β) := d.filter fun e => !(e.1 == key)

/-- Changes the value under a key, if there is one. -/
def modify (d : List (α × β)) (key : α) (f : β → β) : List (α × β) :=
  d.map fun e => if e.1 == key then (e.1, f e.2) else e

/-- The entries of both dictionaries; under a key of both, the value of the second one in the
place of the first one. -/
def merge (d other : List (α × β)) : List (α × β) :=
  (d.map fun e => (e.1, (get? other e.1).getD e.2)) ++ other.filter fun e => !has d e.1

variable {d other : List (α × β)} {key key' : α} {value : β} {f : β → β}

/-! ### Looking up -/

@[simp] lemma get?_nil : get? ([] : List (α × β)) key = none := rfl

lemma get?_cons (e : α × β) : get? (e :: d) key = if key = e.1 then some e.2 else get? d key := by
  unfold get?
  rw [List.lookup_cons]
  by_cases h : key = e.1
  · simp [h]
  · simp [beq_false_of_ne h, h]

lemma get?_append : get? (d ++ other) key = (get? d key).or (get? other key) := by
  induction d with
  | nil => simp [get?]
  | cons e d ih =>
    rw [List.cons_append, get?_cons, get?_cons, ih]
    split <;> rfl

lemma get?_filter (p : α → Bool) :
    get? (d.filter fun e => p e.1) key = if p key then get? d key else none := by
  induction d with
  | nil => simp
  | cons e d ih =>
    rw [List.filter_cons, get?_cons]
    by_cases h : key = e.1
    · subst h
      by_cases hp : p e.1 = true
      · simp [hp, get?_cons]
      · simp [hp, ih]
    · by_cases hp : p e.1 = true
      · simp [hp, get?_cons, h, ih]
      · simp [hp, h, ih]

lemma has_iff : has d key = true ↔ (get? d key).isSome := by
  induction d with
  | nil => simp [has]
  | cons e d ih =>
    rw [get?_cons]
    by_cases h : key = e.1
    · simp [has, h]
    · simpa [has, h, Ne.symm h] using ih

lemma has_eq_false_iff : has d key = false ↔ get? d key = none := by
  rw [← Bool.not_eq_true, has_iff, Option.not_isSome_iff_eq_none]

lemma mem_keys_iff : key ∈ keys d ↔ (get? d key).isSome := by
  rw [← has_iff]
  simp [keys, has]

/-- A value that is found stands in an entry of the dictionary. -/
lemma mem_of_get? (h : get? d key = some value) : (key, value) ∈ d := by
  induction d with
  | nil => simp at h
  | cons e d ih =>
    rw [get?_cons] at h
    split at h
    · rename_i hkey
      subst hkey
      obtain rfl : e.2 = value := by simpa using h
      exact List.mem_cons_self
    · exact List.mem_cons_of_mem _ (ih h)

/-- With distinct keys every entry is found. -/
lemma get?_of_mem (hnodup : (keys d).Nodup) (h : (key, value) ∈ d) : get? d key = some value := by
  induction d with
  | nil => simp at h
  | cons e d ih =>
    obtain ⟨hnotin, hrest⟩ := List.nodup_cons.mp hnodup
    rw [get?_cons]
    rcases List.mem_cons.mp h with rfl | h
    · simp
    · have hne : key ≠ e.1 := fun hkey => hnotin (List.mem_map.mpr ⟨_, h, hkey⟩)
      rw [if_neg hne]
      exact ih hrest h

lemma mem_iff_get? (hnodup : (keys d).Nodup) : (key, value) ∈ d ↔ get? d key = some value :=
  ⟨get?_of_mem hnodup, mem_of_get?⟩

/-- With distinct keys, the same values under the same keys are the same entries. -/
lemma perm_iff_get? (hd : (keys d).Nodup) (hother : (keys other).Nodup) :
    d.Perm other ↔ ∀ key, get? d key = get? other key := by
  constructor
  · intro hperm key
    ext value
    rw [← mem_iff_get? hd, ← mem_iff_get? hother]
    exact hperm.mem_iff
  · intro hget
    have hnodup : ∀ {es : List (α × β)}, (keys es).Nodup → es.Nodup := fun hes =>
      List.Pairwise.of_map Prod.fst (fun _ _ hne heq => hne (congrArg Prod.fst heq)) hes
    refine (List.perm_ext_iff_of_nodup (hnodup hd) (hnodup hother)).mpr fun e => ?_
    rw [mem_iff_get? hd, mem_iff_get? hother, hget]

/-! ### Changing one entry -/

lemma get?_map_entry {γ : Type*} (g : α → β → γ) :
    get? (d.map fun e => (e.1, g e.1 e.2)) key = (get? d key).map (g key) := by
  induction d with
  | nil => rfl
  | cons e d ih =>
    rw [List.map_cons, get?_cons, get?_cons, ih]
    by_cases h : key = e.1
    · simp [h]
    · simp [h]

lemma get?_insert (d : List (α × β)) (key key' : α) (value : β) :
    get? (insert d key value) key' = if key' = key then some value else get? d key' := by
  unfold insert
  split
  · rename_i hhas
    have hform : (d.map fun e => if (e.1 == key) = true then (key, value) else e)
        = d.map fun e => (e.1, if e.1 = key then value else e.2) := by
      refine List.map_congr_left fun e _ => ?_
      by_cases h : e.1 = key
      · simp [h]
      · simp [h]
    rw [hform, get?_map_entry fun k v => if k = key then value else v]
    by_cases h : key' = key
    · subst h
      obtain ⟨v, hv⟩ := Option.isSome_iff_exists.mp (has_iff.mp hhas)
      simp [hv]
    · simp [h]
  · rename_i hhas
    have hnone : get? d key = none := has_eq_false_iff.mp (by simpa using hhas)
    rw [get?_append, get?_cons, get?_nil]
    by_cases h : key' = key
    · subst h
      simp [hnone]
    · simp [h]

@[simp] lemma get?_insert_self : get? (insert d key value) key = some value := by
  rw [get?_insert, if_pos rfl]

lemma get?_insert_of_ne (h : key' ≠ key) : get? (insert d key value) key' = get? d key' := by
  rw [get?_insert, if_neg h]

lemma get?_modify (d : List (α × β)) (key key' : α) (f : β → β) :
    get? (modify d key f) key' = if key' = key then (get? d key').map f else get? d key' := by
  have hform : modify d key f = d.map fun e => (e.1, if e.1 = key then f e.2 else e.2) := by
    refine List.map_congr_left fun e _ => ?_
    by_cases h : e.1 = key
    · simp [h]
    · simp [h]
  rw [hform, get?_map_entry fun k v => if k = key then f v else v]
  by_cases h : key' = key
  · simp [h]
  · simp [h]

lemma get?_erase (d : List (α × β)) (key key' : α) :
    get? (erase d key) key' = if key' = key then none else get? d key' := by
  unfold erase
  rw [get?_filter fun k => !(k == key)]
  by_cases h : key' = key <;> simp [h]

/-! ### Keys -/

lemma keys_insert :
    keys (insert d key value) = if has d key then keys d else keys d ++ [key] := by
  unfold insert
  split
  · have hform : (d.map fun e => if (e.1 == key) = true then (key, value) else e).map Prod.fst
        = d.map Prod.fst := by
      rw [List.map_map]
      refine List.map_congr_left fun e _ => ?_
      by_cases h : e.1 = key
      · simp [h]
      · simp [h]
    simpa [keys] using hform
  · simp [keys]

@[simp] lemma keys_modify : keys (modify d key f) = keys d := by
  unfold keys modify
  rw [List.map_map]
  refine List.map_congr_left fun e _ => ?_
  simp only [Function.comp]
  split <;> rfl

/-- Writing keeps the keys distinct. -/
lemma nodup_keys_insert (h : (keys d).Nodup) : (keys (insert d key value)).Nodup := by
  rw [keys_insert]
  split
  · exact h
  · rename_i hhas
    have hnotin : key ∉ keys d := by
      rw [mem_keys_iff, ← has_iff]
      exact hhas
    exact List.nodup_append.mpr ⟨h, by simp, by
      rintro a ha b hb rfl
      exact hnotin (by simpa using List.mem_singleton.mp hb ▸ ha)⟩

/-- Removing keeps the keys distinct. -/
lemma nodup_keys_erase (h : (keys d).Nodup) : (keys (erase d key)).Nodup :=
  h.sublist (List.filter_sublist.map Prod.fst)

@[simp] lemma erase_insert : erase (insert d key value) key = erase d key := by
  unfold insert
  split
  · rename_i hhas
    clear hhas
    induction d with
    | nil => rfl
    | cons e d ih =>
      by_cases h : e.1 = key
      · simpa [erase, h] using ih
      · simpa [erase, h] using ih
  · simp [erase]

/-- Writing what is there changes nothing. -/
lemma insert_eq_self (hnodup : (keys d).Nodup) (h : get? d key = some value) :
    insert d key value = d := by
  unfold insert
  rw [if_pos (has_iff.mpr (by simp [h]))]
  refine (List.map_congr_left fun e he => ?_).trans (List.map_id d)
  split
  · rename_i hkey
    obtain rfl : e.1 = key := by simpa using hkey
    have hvalue : some e.2 = some value := (get?_of_mem hnodup he).symm.trans h
    rw [← Option.some.inj hvalue]
    rfl
  · rfl

/-- With distinct keys a dictionary is the entry of a key and what is left without the key. -/
lemma perm_cons_erase (hnodup : (keys d).Nodup) (h : get? d key = some value) :
    d.Perm ((key, value) :: erase d key) := by
  induction d with
  | nil => simp at h
  | cons e d ih =>
    obtain ⟨hnotin, hrest⟩ := List.nodup_cons.mp hnodup
    rw [get?_cons] at h
    by_cases hkey : key = e.1
    · rw [if_pos hkey] at h
      obtain rfl := Option.some.inj h
      subst hkey
      have hsame : erase d e.1 = d := List.filter_eq_self.mpr fun e' he' => by
        have hne : e'.1 ≠ e.1 := fun heq => hnotin (heq ▸ List.mem_map.mpr ⟨e', he', rfl⟩)
        simp [hne]
      have herase : erase (e :: d) e.1 = d := by
        simpa [erase] using hsame
      rw [herase]
    · rw [if_neg hkey] at h
      have herase : erase (e :: d) key = e :: erase d key := by
        simp [erase, Ne.symm hkey]
      rw [herase]
      exact ((ih hrest h).cons e).trans (List.Perm.swap ..)

/-- Writing leaves the entry and what was there under the other keys. -/
lemma insert_perm (key : α) (value : β) (hnodup : (keys d).Nodup) :
    (insert d key value).Perm ((key, value) :: erase d key) := by
  have hinsert : (keys (insert d key value)).Nodup := nodup_keys_insert hnodup
  have hperm := perm_cons_erase hinsert get?_insert_self
  rwa [erase_insert] at hperm

/-! ### Merging -/

/-- The second dictionary decides where it has the key. -/
lemma get?_merge (d other : List (α × β)) (key : α) :
    get? (merge d other) key = (get? other key).or (get? d key) := by
  unfold merge
  rw [get?_append, get?_map_entry fun k v => (get? other k).getD v,
    get?_filter fun k => !has d k]
  cases hd : get? d key with
  | none =>
    have hhas : has d key = false := has_eq_false_iff.mpr hd
    simp [hhas]
  | some value => cases get? other key <;> simp

/-! ### Writing one entry after the other -/

section InsertAll

variable {γ : Type*} {k : γ → α} {v : γ → β} {xs : List γ}

/-- Writes the entry of each item. -/
def insertAll (k : γ → α) (v : γ → β) (d : List (α × β)) (xs : List γ) : List (α × β) :=
  xs.foldl (fun d x => insert d (k x) (v x)) d

/-- The items whose key no later one has. -/
def lastOfKey (k : γ → α) : List γ → List γ
  | [] => []
  | x :: xs => if xs.any fun y => k y == k x then lastOfKey k xs else x :: lastOfKey k xs

lemma mem_of_mem_lastOfKey {x : γ} (h : x ∈ lastOfKey k xs) : x ∈ xs := by
  induction xs with
  | nil => exact h
  | cons y xs ih =>
    unfold lastOfKey at h
    split at h
    · exact List.mem_cons_of_mem y (ih h)
    · rcases List.mem_cons.mp h with rfl | h
      · exact List.mem_cons_self
      · exact List.mem_cons_of_mem y (ih h)

/-- A key that an item has is the key of a last one. -/
lemma exists_lastOfKey {x : γ} (h : x ∈ xs) : ∃ y ∈ lastOfKey k xs, k y = k x := by
  induction xs generalizing x with
  | nil => simp at h
  | cons z xs ih =>
    unfold lastOfKey
    split
    · rename_i hlater
      obtain ⟨y, hy, hkey⟩ := List.any_eq_true.mp hlater
      rcases List.mem_cons.mp h with rfl | h
      · obtain ⟨w, hw, hwkey⟩ := ih hy
        exact ⟨w, hw, hwkey.trans (by simpa using hkey)⟩
      · exact ih h
    · rcases List.mem_cons.mp h with rfl | h
      · exact ⟨x, List.mem_cons_self, rfl⟩
      · obtain ⟨w, hw, hwkey⟩ := ih h
        exact ⟨w, List.mem_cons_of_mem z hw, hwkey⟩

/-- With distinct keys every item is the last one of its key. -/
lemma mem_lastOfKey {x : γ} (hkeys : (xs.map k).Nodup) (h : x ∈ xs) : x ∈ lastOfKey k xs := by
  obtain ⟨y, hy, hkey⟩ := exists_lastOfKey (k := k) h
  rwa [← List.inj_on_of_nodup_map hkeys (mem_of_mem_lastOfKey hy) h hkey]

lemma nodup_keys_insertAll (h : (keys d).Nodup) : (keys (insertAll k v d xs)).Nodup := by
  induction xs generalizing d with
  | nil => exact h
  | cons x xs ih => exact ih (nodup_keys_insert h)

/-- New keys go to the end. -/
lemma insertAll_append {rows : List (α × β)} (h : (keys (d ++ rows)).Nodup) :
    insertAll Prod.fst Prod.snd d rows = d ++ rows := by
  induction rows generalizing d with
  | nil => simp [insertAll]
  | cons row rows ih =>
    have hnew : has d row.1 = false := by
      rw [has_eq_false_iff, ← Option.not_isSome_iff_eq_none, ← mem_keys_iff]
      intro hmem
      rw [keys, List.map_append, List.map_cons, List.nodup_append] at h
      exact h.2.2 row.1 hmem row.1 List.mem_cons_self rfl
    have hinsert : insert d row.1 row.2 = d ++ [row] := by simp [insert, hnew]
    have hrest := ih (show (keys ((d ++ [row]) ++ rows)).Nodup by simpa using h)
    rw [insertAll, List.foldl_cons, hinsert]
    rw [List.append_assoc, List.singleton_append] at hrest
    exact hrest

/-- A key that no item has. -/
lemma get?_insertAll_of_forall (h : ∀ x ∈ xs, k x ≠ key) :
    get? (insertAll k v d xs) key = get? d key := by
  induction xs generalizing d with
  | nil => rfl
  | cons x xs ih =>
    have hrest : get? (insertAll k v (insert d (k x) (v x)) xs) key =
        get? (insert d (k x) (v x)) key :=
      ih fun y hy => h y (List.mem_cons_of_mem x hy)
    exact hrest.trans (get?_insert_of_ne (h x List.mem_cons_self).symm)

/-- The last item of a key is under it. -/
lemma get?_insertAll_of_mem {x : γ} (h : x ∈ lastOfKey k xs) :
    get? (insertAll k v d xs) (k x) = some (v x) := by
  induction xs generalizing d with
  | nil => simp [lastOfKey] at h
  | cons y xs ih =>
    show get? (insertAll k v (insert d (k y) (v y)) xs) (k x) = some (v x)
    unfold lastOfKey at h
    split at h
    · exact ih h
    · rename_i hlast
      rcases List.mem_cons.mp h with rfl | h
      · have hnone : ∀ z ∈ xs, k z ≠ k x := by
          simpa using hlast
        rw [get?_insertAll_of_forall hnone, get?_insert_self]
      · exact ih h

/-- What is under a key: the last item of it, or what was there before where no item has it. -/
theorem get?_insertAll (h : get? (insertAll k v d xs) key = some value) :
    (∃ x ∈ lastOfKey k xs, k x = key ∧ v x = value) ∨
      (∀ x ∈ xs, k x ≠ key) ∧ get? d key = some value := by
  by_cases hsome : ∃ x ∈ xs, k x = key
  · obtain ⟨x, hx, rfl⟩ := hsome
    obtain ⟨y, hy, hkey⟩ : ∃ y ∈ lastOfKey k xs, k y = k x := exists_lastOfKey hx
    rw [← hkey, get?_insertAll_of_mem hy] at h
    exact .inl ⟨y, hy, hkey, Option.some.inj h⟩
  · have hnone : ∀ x ∈ xs, k x ≠ key := fun x hx heq => hsome ⟨x, hx, heq⟩
    rw [get?_insertAll_of_forall hnone] at h
    exact .inr ⟨hnone, h⟩

end InsertAll

end OrderedDict
