import Mathlib.Data.List.Chain
import Mathlib.Data.List.Nodup

/-!
# Leases

A thing is offered, and one client at a time may take it.  Taking it gives the client a
version; with that version the client returns it, and it is then offered again or not.  While
it is offered it may also be withdrawn.  The log of a thing is the list of what has happened
to it.  A log is well kept when it begins with the offer and each note may follow the one
before it; then each taking is answered by at most one return, with the version of that
taking, and nothing follows a withdrawal or a return for good.
-/

namespace Lease

variable {V : Type*}

/-- What can happen to a thing. -/
inductive Note (V : Type*) where
  | opened
  | taken (version : V)
  | returned (version : V) (again : Bool)
  | withdrawn
deriving DecidableEq, Repr

namespace Note

/-- After the note the thing is offered. -/
def Offers : Note V → Prop
  | .opened => True
  | .returned _ again => again = true
  | _ => False

/-- The note is the last one. -/
def Ends : Note V → Prop
  | .withdrawn => True
  | .returned _ again => again = false
  | _ => False

/-- The version of a taking. -/
def taken? : Note V → Option V
  | .taken v => some v
  | _ => none

/-- The version of a return. -/
def returned? : Note V → Option V
  | .returned v _ => some v
  | _ => none

lemma taken?_of_offers {n : Note V} (h : n.Offers) : n.taken? = none := by
  cases n with
  | taken v => cases h
  | _ => rfl

end Note

/-- The second note may come right after the first one. -/
inductive Follows : Note V → Note V → Prop
  | take {n : Note V} {v : V} (h : n.Offers) : Follows n (.taken v)
  | withdraw {n : Note V} (h : n.Offers) : Follows n .withdrawn
  | giveBack {v : V} {again : Bool} : Follows (.taken v) (.returned v again)

/-- A log that begins with the offer and in which each note may follow the one before it. -/
structure WellKept (notes : List (Note V)) : Prop where
  opens : ∀ note ∈ notes.head?, note = .opened
  follows : notes.IsChain Follows

variable {notes before later : List (Note V)} {note : Note V} {v : V} {again : Bool}

lemma wellKept_nil : WellKept ([] : List (Note V)) :=
  ⟨by simp, .nil⟩

lemma WellKept.opened_mem (h : WellKept notes) (hne : notes ≠ []) : .opened ∈ notes := by
  obtain ⟨first, rest, rfl⟩ := List.exists_cons_of_ne_nil hne
  exact h.opens first rfl ▸ List.mem_cons_self

lemma wellKept_opened : WellKept [(.opened : Note V)] :=
  ⟨by simp, .singleton _⟩

/-- A log is continued by a note that may follow its last one. -/
lemma WellKept.append {last : Note V} (h : WellKept notes) (hlast : notes.getLast? = some last)
    (hnote : Follows last note) : WellKept (notes ++ [note]) := by
  refine ⟨fun first hfirst => ?_, ?_⟩
  · rw [List.head?_append_of_ne_nil _ (by rintro rfl; cases hlast)] at hfirst
    exact h.opens first hfirst
  · refine h.follows.append (.singleton _) fun x hx y hy => ?_
    obtain rfl := Option.some.inj (hlast.symm.trans hx)
    obtain rfl := Option.some.inj hy
    exact hnote

lemma WellKept.before_follows (h : WellKept (before ++ note :: later)) (hne : before ≠ []) :
    ∃ rest last, before = rest ++ [last] ∧ Follows last note := by
  rcases List.eq_nil_or_concat before with rfl | ⟨rest, last, rfl⟩
  · exact absurd rfl hne
  · refine ⟨rest, last, List.concat_eq_append, ?_⟩
    have hchain := h.follows
    rw [List.concat_eq_append, List.append_assoc, List.singleton_append,
      List.isChain_append_cons_cons] at hchain
    exact hchain.2.1

/-! ### What a well kept log says -/

/-- Nothing comes after a withdrawal or a return for good. -/
theorem WellKept.nothing_after (h : WellKept (before ++ note :: later)) (hends : note.Ends) :
    later = [] := by
  cases later with
  | nil => rfl
  | cons next later =>
    have hchain := h.follows
    rw [List.isChain_append_cons_cons] at hchain
    have hnext := hchain.2.1
    cases note with
    | returned w a =>
      obtain rfl : a = false := hends
      cases hnext with
      | take hoffers => cases hoffers
      | withdraw hoffers => cases hoffers
    | withdrawn =>
      cases hnext with
      | take hoffers => cases hoffers
      | withdraw hoffers => cases hoffers
    | opened => cases hends
    | taken w => cases hends

/-- The takings are the returns and at most one more, which is not answered yet. -/
theorem WellKept.taken_eq (h : WellKept notes) :
    notes.filterMap Note.taken? =
      notes.filterMap Note.returned? ++ (notes.getLast?.bind Note.taken?).toList := by
  induction notes using List.reverseRecOn with
  | nil => rfl
  | append_singleton notes note ih =>
    have hearlier : WellKept notes :=
      ⟨fun first hfirst => h.opens first (by
          rw [List.head?_append, hfirst]
          rfl), h.follows.left_of_append⟩
    rw [List.filterMap_append, List.filterMap_append, ih hearlier, List.getLast?_concat]
    by_cases hne : notes = []
    · subst hne
      obtain rfl := h.opens note rfl
      rfl
    · obtain ⟨rest, last, rfl, hlast⟩ := h.before_follows hne
      rw [List.getLast?_concat]
      cases hlast with
      | take hoffers =>
        rw [Option.bind_some, Note.taken?_of_offers hoffers]
        simp [Note.taken?, Note.returned?]
      | withdraw hoffers =>
        rw [Option.bind_some, Note.taken?_of_offers hoffers]
        simp [Note.taken?, Note.returned?]
        rfl
      | giveBack => simp [Note.taken?, Note.returned?]

/-- Each taking is answered at most once. -/
lemma WellKept.returned_sublist (h : WellKept notes) :
    (notes.filterMap Note.returned?).Sublist (notes.filterMap Note.taken?) := by
  rw [h.taken_eq]
  exact List.sublist_append_left _ _

/-! ### Many leases -/

section Log

variable {K : Type*} [DecidableEq K] {log : List (K × Note V)} {key : K}

/-- The notes about one of the things, in a log of many. -/
def notesOf (log : List (K × Note V)) (key : K) : List (Note V) :=
  log.filterMap fun entry => if entry.1 = key then some entry.2 else none

/-- Who has taken what. -/
def takings (log : List (K × Note V)) : List (K × V) :=
  log.filterMap fun entry => entry.2.taken?.map (entry.1, ·)

/-- Who has returned what. -/
def returns (log : List (K × Note V)) : List (K × V) :=
  log.filterMap fun entry => entry.2.returned?.map (entry.1, ·)

@[simp] lemma notesOf_nil : notesOf ([] : List (K × Note V)) key = [] := rfl

lemma notesOf_append (log log' : List (K × Note V)) (key : K) :
    notesOf (log ++ log') key = notesOf log key ++ notesOf log' key :=
  List.filterMap_append

lemma mem_notesOf : note ∈ notesOf log key ↔ (key, note) ∈ log := by
  unfold notesOf
  rw [List.mem_filterMap]
  constructor
  · rintro ⟨⟨k, n⟩, hmem, heq⟩
    by_cases hk : k = key
    · rw [if_pos hk] at heq
      obtain rfl := Option.some.inj heq
      exact hk ▸ hmem
    · rw [if_neg hk] at heq
      cases heq
  · intro hmem
    exact ⟨(key, note), hmem, if_pos rfl⟩

/-- The takings of one thing, counted in the log and in its notes. -/
lemma count_filterMap_notesOf [DecidableEq V] (f : Note V → Option V) :
    (log.filterMap fun entry => (f entry.2).map (entry.1, ·)).count (key, v) =
      ((notesOf log key).filterMap f).count v := by
  unfold notesOf
  rw [List.filterMap_filterMap]
  induction log with
  | nil => rfl
  | cons entry log ih =>
    obtain ⟨k, n⟩ := entry
    by_cases hk : k = key
    · subst hk
      cases hf : f n with
      | none => simpa [hf] using ih
      | some w => simpa [hf, List.count_cons] using ih
    · cases hf : f n with
      | none => simpa [hf, hk] using ih
      | some w => simpa [hf, hk, List.count_cons] using ih

/-- A return comes after a taking of the same thing with the same version. -/
lemma taken_of_returned (hkept : ∀ key, WellKept (notesOf log key))
    (h : (key, v) ∈ returns log) : (key, v) ∈ takings log := by
  classical
  rw [← List.one_le_count_iff] at h ⊢
  unfold returns at h
  unfold takings
  rw [count_filterMap_notesOf] at h ⊢
  exact h.trans ((hkept key).returned_sublist.count_le v)

/-- Where no two takings have the same version, no two returns have. -/
theorem nodup_returns (hkept : ∀ key, WellKept (notesOf log key))
    (htakings : ((takings log).map Prod.snd).Nodup) : ((returns log).map Prod.snd).Nodup := by
  classical
  have hreturns : (returns log).Nodup := by
    rw [List.nodup_iff_count_le_one]
    rintro ⟨key, v⟩
    calc (returns log).count (key, v)
        = ((notesOf log key).filterMap Note.returned?).count v := count_filterMap_notesOf _
      _ ≤ ((notesOf log key).filterMap Note.taken?).count v :=
          (hkept key).returned_sublist.count_le v
      _ = (takings log).count (key, v) := (count_filterMap_notesOf _).symm
      _ ≤ 1 := List.nodup_iff_count_le_one.mp htakings.of_map _
  refine hreturns.map_on fun e he e' he' hsnd => ?_
  exact List.inj_on_of_nodup_map htakings (taken_of_returned hkept he)
    (taken_of_returned hkept he') hsnd

end Log

end Lease
