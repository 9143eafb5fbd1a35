import Mathlib.Data.List.Basic

/-!
# Encoders and decoders

A decoder may refuse what it is given; it runs in a monad.  It reads an encoder back on the
values of a domain when it accepts the code of each of them and returns the value.
-/

namespace Codec

universe u v w

variable {m : Type u → Type v} [Monad m] {α : Type u} {β : Type w}

/-- `dec` reads back what `enc` writes for the values in `P`. -/
def ReadsBack (enc : α → β) (dec : β → m α) (P : α → Prop) : Prop :=
  ∀ a, P a → dec (enc a) = pure a

variable {enc : α → β} {dec : β → m α} {P Q : α → Prop}

/-- A list is read back item by item. -/
theorem ReadsBack.list [LawfulMonad m] (h : ReadsBack enc dec P) {as : List α}
    (has : ∀ a ∈ as, P a) : (as.map enc).mapM dec = pure as := by
  induction as with
  | nil => simp
  | cons a as ih =>
    rw [List.map_cons, List.mapM_cons, h a (has a List.mem_cons_self),
      ih fun b hb => has b (List.mem_cons_of_mem _ hb)]
    simp

end Codec
