import Mathlib.Data.List.Induction
import Trion.Library.OrderedDict

/-!
# Grouping by key

A dictionary of lists that is filled one item at a time: an item goes to the end of the list of
its key, and a new key comes to the end of the dictionary.  Under a key stand its items in the
order in which they came.
-/

namespace Grouping

open OrderedDict

variable {κ α : Type*} [DecidableEq κ]

/-- `groups.setdefault(key, []).append(item)`. -/
def append (groups : List (κ × List α)) (key : κ) (item : α) : List (κ × List α) :=
  insert groups key ((get? groups key).getD [] ++ [item])

/-- One item after the other. -/
def appendAll (groups : List (κ × List α)) (items : List (κ × α)) : List (κ × List α) :=
  items.foldl (fun groups item => append groups item.1 item.2) groups

/-- The items of a key. -/
def itemsOf (key : κ) (items : List (κ × α)) : List α :=
  (items.filter (·.1 = key)).map Prod.snd

variable {groups : List (κ × List α)} {items items' : List (κ × α)} {key : κ}

lemma appendAll_append :
    appendAll groups (items ++ items') = appendAll (appendAll groups items) items' :=
  List.foldl_append ..

lemma itemsOf_perm (h : items.Perm items') : (itemsOf key items).Perm (itemsOf key items') :=
  (h.filter _).map _

/-- Under a key stand its items; a key without items is not there. -/
theorem get?_appendAll : get? (appendAll [] items) key =
    if itemsOf key items = [] then none else some (itemsOf key items) := by
  -- by induction from the end: the last item comes last
  induction items using List.reverseRecOn with
  | nil => rfl
  | append_singleton items item ih =>
    have hitems : itemsOf key (items ++ [item]) =
        itemsOf key items ++ if item.1 = key then [item.2] else [] := by
      unfold itemsOf
      rw [List.filter_append, List.map_append]
      by_cases hkey : item.1 = key <;> simp [hkey]
    have hget : get? (appendAll [] (items ++ [item])) key =
        if key = item.1 then
          some ((get? (appendAll [] items) item.1).getD [] ++ [item.2])
        else get? (appendAll [] items) key := by
      rw [appendAll_append]
      exact get?_insert ..
    rw [hget, hitems]
    by_cases hkey : item.1 = key
    · subst hkey
      rw [if_pos rfl, if_pos rfl, if_neg (by simp), ih]
      by_cases hnil : itemsOf item.1 items = [] <;> simp [hnil]
    · rw [if_neg (Ne.symm hkey), if_neg hkey, List.append_nil]
      exact ih

lemma nodup_keys_appendAll : (keys (appendAll [] items)).Nodup := by
  induction items using List.reverseRecOn with
  | nil => exact List.nodup_nil
  | append_singleton items item ih =>
    rw [appendAll_append]
    exact nodup_keys_insert ih

end Grouping
