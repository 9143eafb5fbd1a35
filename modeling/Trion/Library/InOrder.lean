import Mathlib.Data.List.Basic

/-!
# Pieces of a text in order

A text holds pieces in order where they stand in it one after the other, with anything between
them.
-/

namespace InOrder

variable {α : Type*}

/-- The pieces stand in the text one after the other. -/
def Holds : List (List α) → List α → Prop
  | [], _ => True
  | piece :: pieces, text => ∃ before after, text = before ++ (piece ++ after) ∧ Holds pieces after

variable {pieces pieces' : List (List α)} {text text' : List α}

lemma holds_nil : Holds [] text := trivial

lemma holds_self : Holds [text] text := ⟨[], [], by simp, holds_nil⟩

lemma Holds.prepend (h : Holds pieces text) (before : List α) : Holds pieces (before ++ text) := by
  cases pieces with
  | nil => trivial
  | cons piece pieces =>
    obtain ⟨gap, after, rfl, hrest⟩ := h
    exact ⟨before ++ gap, after, (List.append_assoc before gap _).symm, hrest⟩

/-- Texts one after the other hold the pieces of both. -/
lemma Holds.append (h : Holds pieces text) (h' : Holds pieces' text') :
    Holds (pieces ++ pieces') (text ++ text') := by
  induction pieces generalizing text with
  | nil => exact h'.prepend text
  | cons piece pieces ih =>
    obtain ⟨gap, after, rfl, hrest⟩ := h
    exact ⟨gap, after ++ text', by simp, ih hrest⟩

lemma Holds.extend (h : Holds pieces text) (after : List α) : Holds pieces (text ++ after) := by
  have hall : Holds (pieces ++ []) (text ++ after) := h.append holds_nil
  rwa [List.append_nil] at hall

/-- Joined texts hold the pieces of all. -/
lemma Holds.intercalate {sep : List α} {texts : List (List α)} {groups : List (List (List α))}
    (h : List.Forall₂ Holds groups texts) : Holds groups.flatten (sep.intercalate texts) := by
  induction h with
  | nil => trivial
  | @cons group text groups texts hfirst hrest ih =>
    cases hrest with
    | nil =>
      rw [List.flatten_cons, List.flatten_nil, List.append_nil, List.intercalate_singleton]
      exact hfirst
    | cons hsecond hrest =>
      rw [List.flatten_cons, List.intercalate_cons_cons]
      exact (hfirst.extend sep).append ih

end InOrder
