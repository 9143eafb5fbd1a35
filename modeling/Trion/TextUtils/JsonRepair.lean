import Trion.Library.JsonEditedDocuments
import Trion.TextUtils.JsonParser

/-!
# What the repair does to a document

Trailing commas have been put into the text of a document, outside of its string literals.  Where
no pattern of the repair matches at a place inside a literal, the substitutions take these commas
away, with the white space after them, and change nothing else.
-/

namespace Trion.TextUtils

open Trion.Python Patterns JsonText

variable {F : Type} {rt : ParserRuntime F}

/-! ### Characters -/

lemma isSpace_next {c : Char} (h : isSpace c = true) {last : ℕ} {place : Place}
    (hnext : (Place.outside last).next c.toNat = some place) : place = .outside last := by
  have hall : ∀ n ∈ [0x09, 0x0A, 0x0B, 0x0C, 0x0D, 0x1C, 0x1D, 0x1E, 0x1F, 0x20, 0x85, 0xA0, 0x1680,
      0x2000, 0x2001, 0x2002, 0x2003, 0x2004, 0x2005, 0x2006, 0x2007, 0x2008, 0x2009, 0x200A,
      0x2028, 0x2029, 0x202F, 0x205F, 0x3000], n ≠ 34 ∧ n ≠ 58 ∧ ¬IsClosing n ∧
        ¬(n = 44 ∨ n = 91 ∨ n = 123 ∨ IsScalarChar n) := by decide
  obtain ⟨hquote, hcolon, hclosing, hother⟩ := hall c.toNat (by simpa [isSpace] using h)
  dsimp only [Place.next] at hnext
  rw [if_neg hquote, if_neg hcolon, if_neg hclosing, if_neg hother] at hnext
  split at hnext
  · exact (Option.some.inj hnext).symm
  · cases hnext

lemma isWord_next {c : Char} (h : rt.isWord c = true) {last : ℕ} {place : Place}
    (hnext : (Place.outside last).next c.toNat = some place) :
    place = .outside c.toNat ∧ c.toNat ≠ 34 := by
  have hascii : ∀ d : Char, d.toNat < 128 → (d.isAlphanum || d = '_') = false → c ≠ d := by
    rintro d hd hother rfl
    rw [rt.isWord_ascii c hd, hother] at h
    cases h
  have hne : ∀ d : Char, c ≠ d → c.toNat ≠ d.toNat := fun d hcd heq => hcd (Char.toNat_inj.mp heq)
  have hquote : c.toNat ≠ 34 := hne '"' (hascii '"' (by decide) (by decide))
  have hwhite : ¬isWhite c.toNat = true := by
    have h32 : c.toNat ≠ 32 := hne ' ' (hascii ' ' (by decide) (by decide))
    have h9 : c.toNat ≠ 9 := hne '\t' (hascii '\t' (by decide) (by decide))
    have h10 : c.toNat ≠ 10 := hne '\n' (hascii '\n' (by decide) (by decide))
    have h13 : c.toNat ≠ 13 := hne '\r' (hascii '\r' (by decide) (by decide))
    simp [isWhite, h32, h9, h10, h13]
  dsimp only [Place.next] at hnext
  rw [if_neg hquote, if_neg hwhite] at hnext
  split_ifs at hnext <;> cases hnext <;> exact ⟨rfl, hquote⟩

/-- A text is well spaced from a place on. -/
def Spaced (place : Place) (cs : List Char) : Prop := (place.run (codes cs)).isSome

lemma Spaced.next {place : Place} {c : Char} {cs : List Char} (h : Spaced place (c :: cs)) :
    ∃ place', place.next c.toNat = some place' ∧ Spaced place' cs := by
  unfold Spaced Place.run codes at h
  rw [List.map_cons, List.foldlM_cons] at h
  cases hnext : place.next c.toNat with
  | none => simp [hnext] at h
  | some place' =>
    rw [hnext] at h
    exact ⟨place', rfl, h⟩

lemma Spaced.of_spaces {last : ℕ} {gap cs : List Char} (hgap : ∀ c ∈ gap, isSpace c = true)
    (h : Spaced (.outside last) (gap ++ cs)) : Spaced (.outside last) cs := by
  induction gap with
  | nil => exact h
  | cons c gap ih =>
    obtain ⟨place, hnext, hrest⟩ := h.next
    obtain rfl := isSpace_next (hgap c List.mem_cons_self) hnext
    exact ih (fun d hd => hgap d (List.mem_cons_of_mem c hd)) hrest

/-- After a word the last character is no quote. -/
lemma Spaced.of_word {last : ℕ} {word cs : List Char} (hword : ∀ c ∈ word, rt.isWord c = true)
    (hne : word ≠ []) (h : Spaced (.outside last) (word ++ cs)) :
    ∃ last', last' ≠ 34 ∧ Spaced (.outside last') cs := by
  induction word generalizing last with
  | nil => exact absurd rfl hne
  | cons c word ih =>
    obtain ⟨place, hnext, hrest⟩ := h.next
    obtain ⟨rfl, hquote⟩ := isWord_next (hword c List.mem_cons_self) hnext
    by_cases hnil : word = []
    · subst hnil
      exact ⟨c.toNat, hquote, hrest⟩
    · exact ih (fun d hd => hword d (List.mem_cons_of_mem c hd)) hnil hrest

/-! ### Trailing commas -/

variable {bracket : Char} {before : Option Char}

/-- The closing brackets of arrays and objects. -/
def IsBracket (c : Char) : Prop := c = ']' ∨ c = '}'

lemma IsBracket.isClosing (h : IsBracket bracket) : IsClosing bracket.toNat := by
  rcases h with rfl | rfl <;> decide

lemma IsBracket.of_isClosing {c : Char} (h : IsClosing c.toNat) : IsBracket c := by
  rcases h with h | h
  · exact .inl (Char.toNat_inj.mp h)
  · exact .inr (Char.toNat_inj.mp h)

lemma IsBracket.plain (h : IsBracket bracket) :
    isSpace bracket = false ∧ bracket ≠ ',' ∧ bracket ≠ '"' := by
  rcases h with rfl | rfl <;> decide

/-- What the pattern for trailing commas matches. -/
lemma matchAt_trailingComma {after : List Char} {lengths : List ℕ}
    (h : matchAt (trailingComma bracket) before after = some lengths) :
    ∃ gap rest, after = ',' :: (gap ++ bracket :: rest) ∧ ∀ c ∈ gap, isSpace c = true := by
  cases after with
  | nil =>
    rw [trailingComma, matchAt_one_nil] at h
    cases h
  | cons c cs =>
    rw [trailingComma, matchAt_one_cons] at h
    split at h
    next hc =>
      obtain ⟨ls, hrun, -⟩ := Option.map_eq_some_iff.mp h
      obtain ⟨gap, rest, before', ls', rfl, -, hgap, hone, -⟩ := matchAt_run hrun
      cases rest with
      | nil =>
        rw [matchAt_one_nil] at hone
        cases hone
      | cons d rest =>
        rw [matchAt_one_cons] at hone
        split at hone
        next hd => exact ⟨gap, rest, by rw [of_decide_eq_true hc, of_decide_eq_true hd], hgap⟩
        next => cases hone
    next => cases h

lemma matchAt_trailingComma_of_ne {c : Char} (hc : c ≠ ',') (cs : List Char) :
    matchAt (trailingComma bracket) before (c :: cs) = none := by
  rw [trailingComma, matchAt_one_cons, if_neg (by simpa using hc)]

/-- `,\s*}` is replaced by the bracket. -/
lemma substituteFrom_trailingComma (hb : IsBracket bracket) {gap : List Char}
    (hgap : ∀ c ∈ gap, isSpace c = true) (rest : List Char) :
    ∃ before', substituteFrom (trailingComma bracket) (fun _ => [bracket])
      (',' :: (gap ++ bracket :: rest)) before 0 =
        bracket :: substituteFrom (trailingComma bracket) (fun _ => [bracket]) rest before' 0 := by
  have hmatch : matchAt (trailingComma bracket) before (',' :: (gap ++ bracket :: rest)) =
      some [1, gap.length, 1] := by
    rw [trailingComma, matchAt_one_cons, if_pos (by decide),
      matchAt_atLeast_one hgap hb.plain.1 (by simp)]
    rfl
  obtain ⟨before', hskip⟩ := substituteFrom_skip (trailingComma bracket)
    (fun _ => [bracket]) (some ',') (gap ++ [bracket]) rest
  refine ⟨before', ?_⟩
  have hsum : [1, gap.length, 1].sum ≠ 0 ∧
      [1, gap.length, 1].sum - 1 = (gap ++ [bracket]).length := by simp
  rw [List.append_assoc, List.singleton_append] at hskip
  rw [substituteFrom, if_neg (by simp), hmatch]
  dsimp only
  rw [if_neg hsum.1, hsum.2, hskip]
  rfl

/-- Nothing is replaced where there is no comma. -/
lemma substituteFrom_plain (bracket : Char) (before : Option Char) {gap : List Char}
    (hgap : ∀ c ∈ gap, c ≠ ',') (rest : List Char) :
    ∃ before', substituteFrom (trailingComma bracket) (fun _ => [bracket]) (gap ++ rest) before 0 =
      gap ++ substituteFrom (trailingComma bracket) (fun _ => [bracket]) rest before' 0 := by
  induction gap generalizing before with
  | nil => exact ⟨before, rfl⟩
  | cons c gap ih =>
    obtain ⟨before', heq⟩ := ih (some c) fun d hd => hgap d (List.mem_cons_of_mem c hd)
    refine ⟨before', ?_⟩
    rw [List.cons_append, substituteFrom_cons_of_none
      (matchAt_trailingComma_of_ne (hgap c List.mem_cons_self) _), heq]
    rfl

/-! ### Places inside string literals -/

/-- None of some patterns matches at a place inside a string literal. -/
def Untouched (patterns : List (List Item)) : Quoting → Option Char → List Char → Prop
  | _, _, [] => True
  | q, before, c :: cs =>
    (q ≠ .outside → ∀ pattern ∈ patterns, matchAt pattern before (c :: cs) = none) ∧
      Untouched patterns (q.next c.toNat) (some c) cs

variable {patterns : List (List Item)} {q : Quoting} {put : Char → Option Char}

lemma Untouched.of_outside {cs : List Char} (h : Untouched patterns .outside before cs)
    (before' : Option Char) : Untouched patterns .outside before' cs := by
  cases cs with
  | nil => trivial
  | cons c cs => exact ⟨fun hq => absurd rfl hq, h.2⟩

lemma Untouched.append (gap : List Char) {cs : List Char} (hgap : ∀ c ∈ gap, c ≠ '"')
    (h : Untouched patterns .outside before cs) (before' : Option Char) :
    Untouched patterns .outside before' (gap ++ cs) := by
  induction gap generalizing before' with
  | nil => exact h.of_outside before'
  | cons c gap ih =>
    have hc : Quoting.outside.next c.toNat = .outside :=
      if_neg fun heq => hgap c List.mem_cons_self (Char.toNat_inj.mp heq)
    refine ⟨fun hq => absurd rfl hq, ?_⟩
    rw [hc]
    exact ih (fun d hd => hgap d (List.mem_cons_of_mem c hd)) _

lemma Untouched.of_append {gap cs : List Char} (hgap : ∀ c ∈ gap, c ≠ '"')
    (h : Untouched patterns .outside before (gap ++ cs)) (before' : Option Char) :
    Untouched patterns .outside before' cs := by
  induction gap generalizing before with
  | nil => exact h.of_outside before'
  | cons c gap ih =>
    have hc : Quoting.outside.next c.toNat = .outside :=
      if_neg fun heq => hgap c List.mem_cons_self (Char.toNat_inj.mp heq)
    have hrest := h.2
    rw [hc] at hrest
    exact ih (fun d hd => hgap d (List.mem_cons_of_mem c hd)) hrest

/-- Inside a literal nothing is replaced up to the next quote. -/
lemma substituteFrom_inside (hmem : trailingComma bracket ∈ patterns) {cs : List Char}
    (hq : q ≠ .outside) (h : Untouched patterns q before cs) :
    substituteFrom (trailingComma bracket) (fun _ => [bracket]) cs before 0 = cs ∨
      ∃ x y y', cs = x ++ '"' :: y ∧
        substituteFrom (trailingComma bracket) (fun _ => [bracket]) cs before 0 =
          x ++ '"' :: y' := by
  induction cs generalizing q before with
  | nil =>
    left
    rw [substituteFrom, if_pos rfl, trailingComma, matchAt_one_nil]
    rfl
  | cons c cs ih =>
    rw [substituteFrom_cons_of_none (h.1 hq _ hmem)]
    by_cases hc : c = '"'
    · subst hc
      exact .inr ⟨[], cs, _, rfl, rfl⟩
    · have hnext : q.next c.toNat ≠ .outside := by
        have hquote : c.toNat ≠ 34 := fun heq => hc (Char.toNat_inj.mp heq)
        cases q with
        | outside => exact absurd rfl hq
        | inside =>
          rw [Quoting.next, if_neg hquote]
          split <;> decide
        | escaped => exact fun heq => Quoting.noConfusion heq
      rcases ih hnext h.2 with heq | ⟨x, y, y', hx, hy⟩
      · exact .inl (by rw [heq])
      · exact .inr ⟨c :: x, y, y', by rw [hx]; rfl, by rw [hy]; rfl⟩

/-- A pattern that stops at quotes matches after the substitution as it does before it. -/
lemma matchAt_substituteFrom (hmem : trailingComma bracket ∈ patterns) {pattern : List Item}
    (hstops : ∀ item ∈ pattern, item.Stops '"') {c : Char} {cs : List Char}
    (hq : q ≠ .outside) (h : Untouched patterns q before (c :: cs)) :
    matchAt pattern before
        (c :: substituteFrom (trailingComma bracket) (fun _ => [bracket]) cs (some c) 0) =
      matchAt pattern before (c :: cs) := by
  have hcons := substituteFrom_inside hmem hq h
  rw [substituteFrom_cons_of_none (h.1 hq _ hmem)] at hcons
  rcases hcons with heq | ⟨x, y, y', hx, hy⟩
  · rw [heq]
  · rw [hx, hy]
    exact matchAt_append_congr hstops x y' y

lemma isSpace_of_isWhite {c : Char} (h : isWhite c.toNat = true) : isSpace c = true := by
  unfold isWhite at h
  simp only [Bool.or_eq_true, beq_iff_eq] at h
  rcases h with ((h | h) | h) | h <;> simp [isSpace, h]

lemma not_spaced_closing {c : Char} (hc : IsClosing c.toNat) (cs : List Char) :
    ¬Spaced (.outside 44) (c :: cs) := by
  intro h
  obtain ⟨place, hnext, -⟩ := h.next
  rcases hc with hc | hc
  · rw [hc] at hnext
    cases hnext
  · rw [hc] at hnext
    cases hnext

lemma quoting_of_isSpace {c : Char} (h : isSpace c = true) :
    Quoting.outside.next c.toNat = .outside := by
  refine if_neg fun heq => ?_
  obtain rfl : c = '"' := Char.toNat_inj.mp heq
  cases h

/-- After a comma outside of literals no closing bracket follows. -/
lemma Spaced.not_trailing (hb : IsBracket bracket) {gap s rest : List Char}
    (hgap : ∀ c ∈ gap, isSpace c = true) (hspaced : Spaced (.outside 44) s)
    (h : Edited Char.toNat put .outside s (gap ++ bracket :: rest)) : False := by
  induction gap generalizing s with
  | nil =>
    generalize ht : [] ++ bracket :: rest = t at h
    cases h with
    | nil => cases ht
    | cons _ c s t =>
      obtain ⟨rfl, -⟩ := List.cons.inj ht
      exact not_spaced_closing hb.isClosing s hspaced
    | closing gap c s t hwhite hc =>
      have hspaces := fun w hw => isSpace_of_isWhite (hwhite w hw)
      exact not_spaced_closing hc s (hspaced.of_spaces hspaces)
  | cons w gap ih =>
    generalize ht : w :: gap ++ bracket :: rest = t at h
    cases h with
    | nil => cases ht
    | cons _ c s t h =>
      obtain ⟨rfl, rfl⟩ := List.cons.inj ht
      have hw := hgap w List.mem_cons_self
      rw [quoting_of_isSpace hw] at h
      have hrest := @Spaced.of_spaces _ [w] s (by simpa using hw) hspaced
      exact ih (fun d hd => hgap d (List.mem_cons_of_mem w hd)) hrest h
    | closing gap c s t hwhite hc =>
      have hspaces := fun w hw => isSpace_of_isWhite (hwhite w hw)
      exact not_spaced_closing hc s (hspaced.of_spaces hspaces)

lemma ne_of_isSpace {c d : Char} (h : isSpace c = true) (hd : isSpace d = false) : c ≠ d := by
  rintro rfl
  rw [h] at hd
  cases hd

/-- No quote stands in what is put before a bracket. -/
lemma filling_ne_quote {filled : Option Char} {gap : List Char}
    (hspaces : ∀ w ∈ gap, isSpace w = true) (hfilled : ∀ d, filled = some d → d = ',') :
    ∀ w ∈ filling filled gap, w ≠ '"' := by
  intro w hw
  cases filled with
  | none => cases hw
  | some d =>
    obtain rfl := hfilled d rfl
    rcases List.mem_cons.mp hw with rfl | hw
    · decide
    · exact ne_of_isSpace (hspaces w hw) (by decide)

/-- The substitution takes the comma before its own bracket away, and leaves it before the other. -/
lemma substituteFrom_filling (hb : IsBracket bracket) {c : Char} (hc : IsBracket c)
    {gap : List Char} (hspaces : ∀ w ∈ gap, isSpace w = true)
    (hput : ∀ d, put c = some d → d = ',') (t : List Char) :
    ∃ before', substituteFrom (trailingComma bracket) (fun _ => [bracket])
        (filling (put c) gap ++ c :: t) before 0 =
      filling (Function.update put bracket none c) gap ++
        c :: substituteFrom (trailingComma bracket) (fun _ => [bracket]) t before' 0 := by
  cases hsome : put c with
  | none =>
    obtain ⟨before', heq⟩ := @substituteFrom_plain bracket before [c]
      (by simpa using hc.plain.2.1) t
    have hnone : Function.update put bracket none c = none := by
      rw [Function.update_apply, hsome, ite_self]
    rw [hnone, filling, List.nil_append]
    exact ⟨before', heq⟩
  | some d =>
    obtain rfl := hput d hsome
    by_cases hcb : c = bracket
    · subst hcb
      obtain ⟨before', heq⟩ := @substituteFrom_trailingComma c before hb gap hspaces t
      rw [Function.update_self, filling, filling, List.cons_append]
      exact ⟨before', heq⟩
    · have hnone : matchAt (trailingComma bracket) before (',' :: (gap ++ c :: t)) = none := by
        cases hmatch : matchAt (trailingComma bracket) before (',' :: (gap ++ c :: t)) with
        | none => rfl
        | some lengths =>
          obtain ⟨gap', rest, heq, hgap'⟩ := matchAt_trailingComma hmatch
          have hdrop := congrArg (List.dropWhile isSpace) (List.cons.inj heq).2
          rw [List.dropWhile_append_of_pos hspaces, List.dropWhile_append_of_pos hgap',
            List.dropWhile_cons_of_neg (by simp [hc.plain.1]),
            List.dropWhile_cons_of_neg (by simp [hb.plain.1])] at hdrop
          exact absurd (List.cons.inj hdrop).1 hcb
      have hplain : ∀ w ∈ gap ++ [c], w ≠ ',' :=
        List.forall_mem_append.mpr ⟨fun w hw => ne_of_isSpace (hspaces w hw) (by decide),
          List.forall_mem_singleton.mpr hc.plain.2.1⟩
      obtain ⟨before', heq⟩ := substituteFrom_plain bracket (some ',') hplain t
      rw [List.append_assoc, List.append_assoc, List.singleton_append,
        List.singleton_append] at heq
      rw [Function.update_of_ne hcb, hsome, filling, List.cons_append,
        substituteFrom_cons_of_none hnone, heq]
      exact ⟨before', rfl⟩

/-- The substitution takes the commas before one kind of bracket away, and leaves string literals
as they are. -/
theorem edited_substituteFrom (hb : IsBracket bracket) (hmem : trailingComma bracket ∈ patterns)
    (hstops : ∀ pattern ∈ patterns, ∀ item ∈ pattern, item.Stops '"') {s t : List Char}
    (hput : ∀ c d, put c = some d → d = ',') (h : Edited Char.toNat put q s t) {place : Place}
    (hplace : place.quoting = q) (hspaced : Spaced place s) (ht : Untouched patterns q before t) :
    Edited Char.toNat (Function.update put bracket none) q s
        (substituteFrom (trailingComma bracket) (fun _ => [bracket]) t before 0) ∧
      Untouched patterns q before
        (substituteFrom (trailingComma bracket) (fun _ => [bracket]) t before 0) := by
  induction h generalizing before place with
  | nil q =>
    rw [substituteFrom, if_pos rfl, trailingComma, matchAt_one_nil]
    exact ⟨.nil q, trivial⟩
  | cons q c s t h ih =>
    obtain ⟨place', hnext, hrest⟩ := hspaced.next
    have hplace' : place'.quoting = q.next c.toNat := by rw [Place.quoting_of_next hnext, hplace]
    have hnone : matchAt (trailingComma bracket) before (c :: t) = none := by
      by_cases hq : q = .outside
      · subst hq
        cases hmatch : matchAt (trailingComma bracket) before (c :: t) with
        | none => rfl
        | some lengths =>
          exfalso
          obtain ⟨gap, rest, heq, hgap⟩ := matchAt_trailingComma hmatch
          obtain ⟨rfl, rfl⟩ := List.cons.inj heq
          cases place with
          | outside last =>
            obtain rfl := Option.some.inj hnext
            exact hrest.not_trailing hb hgap h
          | inside => cases hplace
          | escaped => cases hplace
      · exact ht.1 hq _ hmem
    obtain ⟨hedited, huntouched⟩ := ih hplace' hrest ht.2
    rw [substituteFrom_cons_of_none hnone]
    refine ⟨.cons q c _ _ hedited, fun hq pattern hpattern => ?_, huntouched⟩
    rw [matchAt_substituteFrom hmem (hstops pattern hpattern) hq ht]
    exact ht.1 hq pattern hpattern
  | closing gap c s t hgap hc h ih =>
    have hspaces := fun w hw => isSpace_of_isWhite (hgap w hw)
    have hbracket := IsBracket.of_isClosing hc
    obtain ⟨last, rfl⟩ : ∃ last, place = .outside last := by
      cases place with
      | outside last => exact ⟨last, rfl⟩
      | inside => cases hplace
      | escaped => cases hplace
    obtain ⟨place', hnext, hrest⟩ := (hspaced.of_spaces hspaces).next
    have hquote : Quoting.outside.next c.toNat = .outside :=
      if_neg fun heq => hbracket.plain.2.2 (Char.toNat_inj.mp heq)
    have hplace' : place'.quoting = .outside := by
      rw [Place.quoting_of_next hnext]
      exact hquote
    have hquoteless {filled : Option Char} (hfilled : ∀ d, filled = some d → d = ',') :
        ∀ w ∈ filling filled gap ++ [c], w ≠ '"' :=
      List.forall_mem_append.mpr ⟨filling_ne_quote hspaces hfilled,
        List.forall_mem_singleton.mpr hbracket.plain.2.2⟩
    obtain ⟨before', heq⟩ := @substituteFrom_filling bracket before put hb c hbracket gap hspaces
      (hput c) t
    have hbefore : Untouched patterns .outside before' t := by
      rw [List.append_cons] at ht
      exact ht.of_append (hquoteless (hput c)) before'
    obtain ⟨hedited, huntouched⟩ := ih hplace' hrest hbefore
    rw [heq]
    refine ⟨.closing gap c s _ hgap hc hedited, ?_⟩
    rw [List.append_cons]
    refine huntouched.append _ (hquoteless fun d hd => hput c d ?_) before
    by_cases hcb : c = bracket
    · rw [hcb, Function.update_self] at hd
      cases hd
    · rwa [Function.update_of_ne hcb] at hd

/-! ### Keys and words -/

lemma matchAt_unquotedKey {cs : List Char} {lengths : List ℕ}
    (h : matchAt (unquotedKey rt) before cs = some lengths) :
    ∃ gap word gap' rest, cs = gap ++ (word ++ (gap' ++ ':' :: rest)) ∧ word ≠ [] ∧
      (∀ c ∈ gap, isSpace c = true) ∧ (∀ c ∈ word, rt.isWord c = true) ∧
      ∀ c ∈ gap', isSpace c = true := by
  obtain ⟨gap, rest, before, ls, rfl, -, hgap, h, -⟩ := matchAt_run h
  obtain ⟨word, rest, before, ls, rfl, hleast, hword, h, -⟩ := matchAt_run h
  obtain ⟨gap', rest, before, ls, rfl, -, hgap', h, -⟩ := matchAt_run h
  cases rest with
  | nil =>
    rw [matchAt_one_nil] at h
    cases h
  | cons c rest =>
    rw [matchAt_one_cons] at h
    split at h
    next hc =>
      refine ⟨gap, word, gap', rest, by rw [of_decide_eq_true hc], ?_, hgap, hword, hgap'⟩
      exact List.length_pos_iff.mp hleast
    next => cases h

/-- Outside of literals no word stands before a colon. -/
lemma matchAt_unquotedKey_of_spaced {last : ℕ} {cs : List Char}
    (h : Spaced (.outside last) cs) : matchAt (unquotedKey rt) before cs = none := by
  cases hmatch : matchAt (unquotedKey rt) before cs with
  | none => rfl
  | some lengths =>
    obtain ⟨gap, word, gap', rest, rfl, hne, hgap, hword, hgap'⟩ := matchAt_unquotedKey hmatch
    obtain ⟨last', hquote, hafter⟩ := (h.of_spaces hgap).of_word hword hne
    obtain ⟨place, hnext, -⟩ := (hafter.of_spaces hgap').next
    have hnone : (Place.outside last').next ':'.toNat = none := if_neg hquote
    rw [hnone] at hnext
    cases hnext

lemma matchAt_ones {word : List Char} {items : List Item} {cs : List Char} {lengths : List ℕ}
    (h : matchAt (word.map (fun c => one (· = c)) ++ items) before cs = some lengths) :
    word <+: cs := by
  induction word generalizing before cs lengths with
  | nil => exact List.nil_prefix
  | cons c word ih =>
    cases cs with
    | nil =>
      rw [List.map_cons, List.cons_append, matchAt_one_nil] at h
      cases h
    | cons d cs =>
      rw [List.map_cons, List.cons_append, matchAt_one_cons] at h
      split at h
      next hd =>
        obtain ⟨ls, hrest, -⟩ := Option.map_eq_some_iff.mp h
        rw [of_decide_eq_true hd]
        exact (List.prefix_cons_inj c).mpr (ih hrest)
      next => cases h

lemma matchAt_wholeWord {word : String} {cs : List Char} {lengths : List ℕ}
    (h : matchAt (wholeWord rt word) before cs = some lengths) : word.toList <+: cs := by
  rw [wholeWord, boundary, matchAt] at h
  split at h
  next =>
    obtain ⟨ls, hrest, -⟩ := Option.map_eq_some_iff.mp h
    exact matchAt_ones hrest
  next => cases h

/-- The words of Python do not stand outside of literals. -/
lemma matchAt_wholeWord_of_spaced {word : String} (hword : word ∈ ["True", "False", "None"])
    {last : ℕ} {cs : List Char} (h : Spaced (.outside last) cs) :
    matchAt (wholeWord rt word) before cs = none := by
  cases hmatch : matchAt (wholeWord rt word) before cs with
  | none => rfl
  | some lengths =>
    exfalso
    obtain ⟨rest, rfl⟩ := matchAt_wholeWord hmatch
    simp only [List.mem_cons, List.not_mem_nil, or_false] at hword
    rcases hword with rfl | rfl | rfl
    · obtain ⟨place, hnext, -⟩ := h.next
      cases hnext
    · obtain ⟨place, hnext, -⟩ := h.next
      cases hnext
    · obtain ⟨place, hnext, hrest⟩ := h.next
      obtain rfl := Option.some.inj hnext
      obtain ⟨place, hnext, -⟩ := hrest.next
      cases hnext

/-- A pattern that matches nowhere outside of literals matches nowhere. -/
lemma unmatched_of_spaced {pattern : List Item} (hmem : pattern ∈ patterns)
    (hnil : ∀ before, matchAt pattern before [] = none)
    (houtside : ∀ {last : ℕ} {before : Option Char} {cs : List Char},
      Spaced (.outside last) cs → matchAt pattern before cs = none)
    {place : Place} {cs : List Char} (h : Spaced place cs)
    (huntouched : Untouched patterns place.quoting before cs) : Unmatched pattern before cs := by
  induction cs generalizing place before with
  | nil => exact hnil before
  | cons c cs ih =>
    obtain ⟨place', hnext, hrest⟩ := h.next
    have hlater := huntouched.2
    rw [← Place.quoting_of_next hnext] at hlater
    refine ⟨?_, ih hrest hlater⟩
    cases place with
    | outside last => exact houtside h
    | inside => exact huntouched.1 (by decide) pattern hmem
    | escaped => exact huntouched.1 (by decide) pattern hmem

lemma Spaced.apostrophe {last : ℕ} {cs : List Char} (h : Spaced (.outside last) cs)
    (hquote : '"' ∉ cs) : '\'' ∉ cs := by
  induction cs generalizing last with
  | nil => exact List.not_mem_nil
  | cons c cs ih =>
    obtain ⟨hc, hcs⟩ := not_or.mp (mt List.mem_cons.mpr hquote)
    obtain ⟨place, hnext, hrest⟩ := h.next
    have hplace : place.quoting = .outside := by
      rw [Place.quoting_of_next hnext]
      exact if_neg fun heq => hc (Char.toNat_inj.mp heq).symm
    obtain ⟨last', rfl⟩ : ∃ last', place = .outside last' := by
      cases place with
      | outside last => exact ⟨last, rfl⟩
      | inside => cases hplace
      | escaped => cases hplace
    refine fun hmem => (List.mem_cons.mp hmem).elim (fun heq => ?_) (ih hrest hcs)
    subst heq
    cases hnext

/-! ### The repair -/

variable (rt) in
/-- The patterns of the repair. -/
def repairPatterns : List (List Item) :=
  [trailingComma '}', trailingComma ']', unquotedKey rt, wholeWord rt "True",
    wholeWord rt "False", wholeWord rt "None"]

lemma stops_of_mem {pattern : List Item} (h : pattern ∈ repairPatterns rt) :
    ∀ item ∈ pattern, item.Stops '"' := by
  have hword : rt.isWord '"' = false := rt.isWord_ascii '"' (by decide)
  have hboundary : (boundary rt).Stops '"' := by
    intro before x y y'
    cases x <;> rfl
  have hwhole : ∀ {word : String}, '"' ∉ word.toList →
      ∀ item ∈ wholeWord rt word, item.Stops '"' := by
    intro word hquote item hitem
    rcases List.mem_cons.mp hitem with rfl | hitem
    · exact hboundary
    · rcases List.mem_append.mp hitem with hitem | hitem
      · obtain ⟨c, hc, rfl⟩ := List.mem_map.mp hitem
        exact decide_eq_false fun heq => hquote (heq ▸ hc)
      · exact List.mem_singleton.mp hitem ▸ hboundary
  simp only [repairPatterns, List.mem_cons, List.not_mem_nil, or_false] at h
  rcases h with rfl | rfl | rfl | rfl | rfl | rfl
  · simp [trailingComma, one, atLeast, Item.Stops, isSpace]
  · simp [trailingComma, one, atLeast, Item.Stops, isSpace]
  · simp [unquotedKey, one, atLeast, Item.Stops, isSpace, hword]
  · exact hwhole (by decide)
  · exact hwhole (by decide)
  · exact hwhole (by decide)

/-- A text, and one that comes from it by trailing commas before closing brackets outside of its
string literals. -/
def TrailingCommas (s t : List Char) : Prop :=
  Edited Char.toNat (fun _ => some ',') .outside s t

lemma spaced_of_loads {s : List Char} {v : Document F} (h : rt.loads s = .ok v) :
    Spaced (.outside 0) s := by
  obtain ⟨last, hrun⟩ := exists_run_of_loads h
  unfold Spaced
  rw [hrun]
  rfl

/-- The first two substitutions take the trailing commas away. -/
lemma edited_of_trailingCommas {s t : List Char} (hspaced : Spaced (.outside 0) s)
    (ht : TrailingCommas s t) (huntouched : Untouched (repairPatterns rt) .outside none t) :
    Edited Char.toNat (fun _ => none) .outside s
        (substitute (trailingComma ']') (fun _ => [']'])
          (substitute (trailingComma '}') (fun _ => ['}']) t)) ∧
      Untouched (repairPatterns rt) .outside none
        (substitute (trailingComma ']') (fun _ => [']'])
          (substitute (trailingComma '}') (fun _ => ['}']) t)) := by
  have hstops := fun pattern (hmem : pattern ∈ repairPatterns rt) => stops_of_mem hmem
  have hcomma : ∀ c d, (fun _ : Char => some ',') c = some d → d = ',' := by
    intro c d h
    exact (Option.some.inj h).symm
  obtain ⟨hedited, hfirst⟩ := edited_substituteFrom (.inr rfl) (by simp [repairPatterns]) hstops
    hcomma ht (show Place.quoting (.outside 0) = _ from rfl) hspaced huntouched
  have hcomma' : ∀ c d, Function.update (fun _ : Char => some ',') '}' none c = some d →
      d = ',' := by
    intro c d h
    by_cases hc : c = '}'
    · rw [hc, Function.update_self] at h
      cases h
    · rw [Function.update_of_ne hc] at h
      exact (Option.some.inj h).symm
  obtain ⟨hedited', hsecond⟩ := edited_substituteFrom (.inl rfl) (by simp [repairPatterns]) hstops
    hcomma' hedited (show Place.quoting (.outside 0) = _ from rfl) hspaced hfirst
  refine ⟨hedited'.congr fun c hc => ?_, hsecond⟩
  rcases IsBracket.of_isClosing hc with rfl | rfl
  · exact Function.update_self ..
  · rw [Function.update_of_ne (by decide), Function.update_self]

/-- Without a match inside a literal, the repair gives a text of the same document. -/
theorem loads_attemptJsonRepair {raw s t : List Char} {v : Document F} (hs : rt.loads s = .ok v)
    (ht : TrailingCommas s t) (hextracted : extracted raw = some t)
    (huntouched : Untouched (repairPatterns rt) .outside none t) :
    ∃ fixed, attemptJsonRepair rt raw = some fixed ∧ rt.loads fixed = .ok v := by
  obtain ⟨hedited, hinside⟩ := edited_of_trailingCommas (spaced_of_loads hs) ht huntouched
  generalize hfixed : substitute (trailingComma ']') (fun _ => [']'])
    (substitute (trailingComma '}') (fun _ => ['}']) t) = fixed at hedited hinside
  have hload : rt.loads fixed = .ok v := loads_of_dropped hedited.map hs
  have hspaced := spaced_of_loads hload
  have hquotes : ¬('"' ∉ fixed ∧ '\'' ∈ fixed) := fun h => hspaced.apostrophe h.1 h.2
  have hkey : substitute (unquotedKey rt) quotedKey fixed = fixed := by
    refine substituteFrom_of_unmatched (unmatched_of_spaced (by simp [repairPatterns])
      (fun before => ?_) matchAt_unquotedKey_of_spaced hspaced hinside)
    cases hmatch : matchAt (unquotedKey rt) before [] with
    | none => rfl
    | some lengths =>
      obtain ⟨gap, word, gap', rest, heq, -⟩ := matchAt_unquotedKey hmatch
      simp at heq
  have hword : ∀ {word : String} (replace : List (List Char) → List Char),
      word ∈ ["True", "False", "None"] → substitute (wholeWord rt word) replace fixed = fixed := by
    intro word replace hmem
    have hpattern : wholeWord rt word ∈ repairPatterns rt := by
      simp only [List.mem_cons, List.not_mem_nil, or_false] at hmem
      rcases hmem with rfl | rfl | rfl <;> simp [repairPatterns]
    refine substituteFrom_of_unmatched (unmatched_of_spaced hpattern (fun before => ?_)
      (matchAt_wholeWord_of_spaced hmem) hspaced hinside)
    cases hmatch : matchAt (wholeWord rt word) before [] with
    | none => rfl
    | some lengths =>
      have hnil := List.prefix_nil.mp (matchAt_wholeWord hmatch)
      simp only [List.mem_cons, List.not_mem_nil, or_false] at hmem
      rcases hmem with rfl | rfl | rfl <;> exact absurd hnil (by decide)
  refine ⟨fixed, ?_, hload⟩
  rw [attemptJsonRepair, hextracted, Option.map_some]
  dsimp only
  rw [hfixed, if_neg hquotes, hkey, hword _ (by simp), hword _ (by simp), hword _ (by simp)]

/-! ### The parser -/

/-- A serialisation of an object, from its first brace to its last one. -/
structure Serialises (rt : ParserRuntime F) (rows : Rows F) (s : List Char) : Prop where
  loads : rt.loads s = .ok (.obj rows)
  opens : s.head? = some '{'
  closes : s.getLast? = some '}'

def BraceFree (cs : List Char) : Prop := '{' ∉ cs ∧ '}' ∉ cs

instance : DecidablePred BraceFree := fun _ => inferInstanceAs (Decidable (_ ∧ _))

lemma extracted_append {pre t post : List Char} (hpre : BraceFree pre) (hpost : BraceFree post)
    (hopens : t.head? = some '{') (hcloses : t.getLast? = some '}') :
    extracted (pre ++ (t ++ post)) = some t := by
  obtain ⟨later, rfl⟩ := List.head?_eq_some_iff.mp hopens
  have hfirst : (pre ++ ('{' :: later ++ post)).idxOf '{' = pre.length := by
    rw [List.idxOf_append_of_notMem hpre.1, List.cons_append, List.idxOf_cons_self, Nat.add_zero]
  have hlast : (pre ++ ('{' :: later ++ post)).reverse.idxOf '}' = post.length := by
    obtain ⟨left, hleft⟩ := List.getLast?_eq_some_iff.mp hcloses
    rw [hleft, List.reverse_append, List.reverse_append, List.reverse_append,
      List.append_assoc, List.idxOf_append_of_notMem (by simpa using hpost.2),
      List.reverse_singleton, List.append_assoc, List.singleton_append, List.idxOf_cons_self,
      List.length_reverse, Nat.add_zero]
  have hopen : '{' ∈ pre ++ ('{' :: later ++ post) := by simp
  have hclose : '}' ∈ pre ++ ('{' :: later ++ post) := by
    have hmem := List.mem_of_getLast? hcloses
    exact List.mem_append_right _ (List.mem_append_left _ hmem)
  rw [extracted, if_pos ⟨hopen, hclose⟩, hfirst, hlast, ← List.append_assoc,
    List.length_append, Nat.add_sub_cancel, List.take_left, List.drop_left]

lemma head?_of_trailingCommas {later t : List Char} (h : TrailingCommas ('{' :: later) t) :
    t.head? = some '{' := by
  unfold TrailingCommas at h
  generalize hs : '{' :: later = s at h
  cases h with
  | nil => cases hs
  | cons => exact (congrArg List.head? hs).symm
  | closing gap c s t hgap hc =>
    cases gap with
    | nil =>
      obtain ⟨rfl, -⟩ := List.cons.inj hs
      exact absurd hc (by decide)
    | cons w gap =>
      obtain ⟨rfl, -⟩ := List.cons.inj hs
      exact absurd (hgap '{' List.mem_cons_self) (by decide)

/-- A text that is read as the document, or is none at all. -/
def Harmless (rt : ParserRuntime F) (v : Document F) (text : List Char) : Prop :=
  rt.loads text = .ok v ∨ rt.loads text = .error .malformed

lemma loads_nil : rt.loads [] = .error .malformed := by
  obtain ⟨inner, hstep⟩ := exists_readStep rt.reader rt.depth
  have hread : readDocument rt.reader rt.depth [] = .error .malformed := by
    rw [hstep]
    rfl
  have hskip : skipWhite (codes []) = [] := rfl
  rw [ParserRuntime.loads, JsonText.loads, if_neg (by simp [codes]), hskip, hread]
  rfl

lemma onDecodeError_malformed {α : Type} (next : Except (ReadError Empty) α) :
    onDecodeError (.error .malformed) next = next := rfl

lemma Harmless.onDecodeError {v : Document F} {text : List Char} (h : Harmless rt v text)
    {next : Except (ReadError Empty) (Document F)} (hnext : next = .ok v) :
    onDecodeError (rt.loads text) next = .ok v := by
  rcases h with h | h
  · rw [h]
    rfl
  · rw [h]
    exact hnext

lemma Harmless.of_onDecodeError {v : Document F} {text : List Char}
    {next : Except (ReadError Empty) (Document F)}
    (h : Trion.TextUtils.onDecodeError (rt.loads text) next = .ok v) : Harmless rt v text := by
  cases hload : rt.loads text with
  | ok w =>
    rw [hload] at h
    exact .inl (hload.trans h)
  | error error =>
    rw [hload] at h
    cases error with
    | malformed => exact .inr hload
    | intDigits => cases h
    | recursion => cases h
    | hook error => cases error

/-- A serialisation with trailing commas, with text before and after it.  Where the whole text is
no JSON for something else, and either no comma has been put in, or the fenced block that is found
is no JSON for something else and no pattern of the repair matches inside a string literal, the
object is returned; the first two conditions are necessary.  Without a match inside a literal the
repaired text stands for the object. -/
theorem safeParseJson_serialisation {rows : Rows F} {s t pre post raw : List Char}
    (hs : Serialises rt rows s) (ht : TrailingCommas s t) (hpre : BraceFree pre)
    (hpost : BraceFree post) (hraw : raw = pre ++ (t ++ post)) (default : Option (Rows F)) :
    (rt.loads raw = .ok (.obj rows) ∨ rt.loads raw = .error .malformed ∧
        (t = s ∨ (∀ block, codeblock raw = some block → Harmless rt (.obj rows) block) ∧
          Untouched (repairPatterns rt) .outside none t) →
      safeParseJson rt default raw = .ok (.obj rows)) ∧
    (safeParseJson rt default raw = .ok (.obj rows) →
      rt.loads raw = .ok (.obj rows) ∨ rt.loads raw = .error .malformed ∧
        (t = s ∨ ∀ block, codeblock raw = some block → Harmless rt (.obj rows) block)) ∧
    (Untouched (repairPatterns rt) .outside none t →
      ∃ fixed, attemptJsonRepair rt raw = some fixed ∧ rt.loads fixed = .ok (.obj rows)) := by
  have hopens : t.head? = some '{' := by
    obtain ⟨later, rfl⟩ := List.head?_eq_some_iff.mp hs.opens
    exact head?_of_trailingCommas ht
  have hextracted : extracted raw = some t :=
    hraw ▸ extracted_append hpre hpost hopens (ht.getLast?_eq.trans hs.closes)
  have hblank : raw.all isSpace = false := by
    obtain ⟨later, rfl⟩ := List.head?_eq_some_iff.mp hopens
    rw [hraw]
    simp [isSpace]
  have hparse : safeParseJson rt default raw =
      onDecodeError (rt.loads raw) (onValueError (rt.loads t) (parseFenced rt default raw)) := by
    rw [safeParseJson, hblank, if_neg (by simp), parseExtracted, hextracted]
  have hplain : t = s → onValueError (rt.loads t) (parseFenced rt default raw) =
      .ok (.obj rows) := by
    rintro rfl
    rw [hs.loads]
    rfl
  have hcommas : t ≠ s → onValueError (rt.loads t) (parseFenced rt default raw) =
      parseFenced rt default raw := by
    intro hne
    have hne' : codes t ≠ codes s := fun heq =>
      hne (List.map_injective_iff.mpr (fun a b hab => Char.toNat_inj.mp hab) heq)
    have hload : rt.loads t = .error .malformed := loads_of_put ht.map hs.loads hne'
    rw [hload]
    rfl
  have hrepair := loads_attemptJsonRepair hs.loads ht hextracted
  refine ⟨?_, ?_, hrepair⟩
  · intro h
    rw [hparse]
    rcases h with h | ⟨hload, h⟩
    · rw [h]
      rfl
    · rw [hload, onDecodeError_malformed]
      by_cases hts : t = s
      · exact hplain hts
      · obtain ⟨hblocks, huntouched⟩ := h.resolve_left hts
        obtain ⟨fixed, hfixed, hloads⟩ := hrepair huntouched
        have hne : fixed ≠ [] := by
          rintro rfl
          rw [loads_nil] at hloads
          cases hloads
        have hrepaired : parseRepaired rt default raw = .ok (.obj rows) := by
          rw [parseRepaired, hfixed]
          dsimp only
          rw [if_neg hne, hloads]
          rfl
        rw [hcommas hts, parseFenced]
        cases hblock : codeblock raw with
        | none => exact hrepaired
        | some block => exact (hblocks block hblock).onDecodeError hrepaired
  · intro h
    rw [hparse] at h
    rcases Harmless.of_onDecodeError h with hload | hload
    · exact .inl hload
    · refine .inr ⟨hload, or_iff_not_imp_left.mpr fun hts block hblock => ?_⟩
      rw [hload, onDecodeError_malformed, hcommas hts, parseFenced, hblock] at h
      exact .of_onDecodeError h

/-! ### Two texts -/

/-- Python without Unicode beyond ASCII and without floating point numbers. -/
def asciiRuntime : ParserRuntime Unit where
  floats := ⟨fun _ => (), (), (), ()⟩
  maxDigits := 4300
  depth := 100
  isWord c := c.isAlphanum || c = '_'
  isDecimal c := c.isDigit
  isDigitChar c := c.isDigit
  int cs := some (decimalValue (codes cs))
  float _ := some ()
  isWord_ascii _ _ := rfl

def decideUntouched (patterns : List (List Item)) : (q : Quoting) → (before : Option Char) →
    (cs : List Char) → Decidable (Untouched patterns q before cs)
  | _, _, [] => .isTrue trivial
  | q, before, c :: cs =>
    have := decideUntouched patterns (q.next c.toNat) (some c) cs
    inferInstanceAs (Decidable ((q ≠ .outside → ∀ pattern ∈ patterns,
      matchAt pattern before (c :: cs) = none) ∧ Untouched patterns (q.next c.toNat) (some c) cs))

instance (q : Quoting) (before : Option Char) (cs : List Char) :
    Decidable (Untouched patterns q before cs) :=
  decideUntouched patterns q before cs

/-- A trailing comma between two words. -/
theorem safeParseJson_serialisation_comma :
    safeParseJson asciiRuntime none ['x', '{', '"', 'a', '"', ':', '1', ',', '}', 'y'] =
      .ok (.obj [([97], .scalar (.int 1))]) := by
  have hs : Serialises asciiRuntime [([97], .scalar (.int 1))]
      ['{', '"', 'a', '"', ':', '1', '}'] := ⟨rfl, rfl, rfl⟩
  have ht : TrailingCommas ['{', '"', 'a', '"', ':', '1', '}']
      ['{', '"', 'a', '"', ':', '1', ',', '}'] :=
    .cons _ _ _ _ (.cons _ _ _ _ (.cons _ _ _ _ (.cons _ _ _ _ (.cons _ _ _ _ (.cons _ _ _ _
      (.closing [] '}' [] [] (by simp) (by decide) (.nil _)))))))
  have hraw : asciiRuntime.loads ['x', '{', '"', 'a', '"', ':', '1', ',', '}', 'y'] =
      .error .malformed := rfl
  have hblock : codeblock ['x', '{', '"', 'a', '"', ':', '1', ',', '}', 'y'] = none := by
    decide +kernel
  have hharmless : ∀ block,
      codeblock ['x', '{', '"', 'a', '"', ':', '1', ',', '}', 'y'] = some block →
        Harmless asciiRuntime (.obj [([97], .scalar (.int 1))]) block := by
    intro block hsome
    rw [hblock] at hsome
    cases hsome
  have hpre : BraceFree ['x'] := by decide
  have hpost : BraceFree ['y'] := by decide
  exact (safeParseJson_serialisation hs ht hpre hpost rfl none).1 (.inr ⟨hraw, .inr ⟨hharmless, by decide +kernel⟩⟩)

/-- The string under the only key of an object. -/
def onlyString : Except (ReadError Empty) (Document Unit) → Option Text
  | .ok (.obj [(_, .str s)]) => some s
  | _ => none

/-- The repair changes a string with a comma before a brace. -/
theorem exists_safeParseJson_ne : ∃ (rows : Rows Unit) (s t : List Char),
    Serialises asciiRuntime rows s ∧ TrailingCommas s t ∧
      safeParseJson asciiRuntime none t ≠ .ok (.obj rows) := by
  refine ⟨[([97], .str [44, 125])], ['{', '"', 'a', '"', ':', '"', ',', '}', '"', '}'],
    ['{', '"', 'a', '"', ':', '"', ',', '}', '"', ',', '}'], ⟨rfl, rfl, rfl⟩, ?_, fun heq => ?_⟩
  · exact .cons _ _ _ _ (.cons _ _ _ _ (.cons _ _ _ _ (.cons _ _ _ _ (.cons _ _ _ _
      (.cons _ _ _ _ (.cons _ _ _ _ (.cons _ _ _ _ (.cons _ _ _ _
        (.closing [] '}' [] [] (by simp) (by decide) (.nil _))))))))))
  · have hstring : onlyString (safeParseJson asciiRuntime none
        ['{', '"', 'a', '"', ':', '"', ',', '}', '"', ',', '}']) = some [125] := by
      decide +kernel
    rw [heq] at hstring
    cases hstring

end Trion.TextUtils
