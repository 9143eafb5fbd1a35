import Trion.Library.JsonDocuments

/-!
# Edits outside string literals

A text is edited before its closing brackets, where these stand outside string literals: either
a comma is put before the white space there, or that white space is dropped.  String literals are
read from the edited text as they are from the text, and white space is skipped in both.
-/

namespace JsonText

/-! ### String literals in a text -/

/-- Where a place lies: outside string literals, inside of one, or there after a backslash. -/
inductive Quoting where
  | outside
  | inside
  | escaped
deriving DecidableEq

/-- Where the place after a character lies. -/
def Quoting.next : Quoting → ℕ → Quoting
  | .outside, c => if c = 34 then .inside else .outside
  | .inside, c => if c = 34 then .outside else if c = 92 then .escaped else .inside
  | .escaped, _ => .inside

variable {α ε : Type}

/-- What stands before a closing bracket in the place of white space: a character and the white
space, or nothing. -/
def filling : Option α → List α → List α
  | none, _ => []
  | some c, gap => c :: gap

lemma filling_map {β : Type} (f : α → β) (put : Option α) (gap : List α) :
    (filling put gap).map f = filling (put.map f) (gap.map f) := by
  cases put <;> rfl

/-- A text, and one that comes from it by edits before closing brackets outside string literals;
which ones may depend on the bracket. -/
inductive Edited (code : α → ℕ) (put : α → Option α) : Quoting → List α → List α → Prop
  | nil (q : Quoting) : Edited code put q [] []
  | cons (q : Quoting) (c : α) (s t : List α) : Edited code put (q.next (code c)) s t →
      Edited code put q (c :: s) (c :: t)
  | closing (gap : List α) (c : α) (s t : List α) : (∀ w ∈ gap, isWhite (code w) = true) →
      IsClosing (code c) → Edited code put .outside s t →
      Edited code put .outside (gap ++ c :: s) (filling (put c) gap ++ c :: t)

lemma Edited.refl (code : α → ℕ) (put : α → Option α) (q : Quoting) (s : List α) :
    Edited code put q s s := by
  induction s generalizing q with
  | nil => exact .nil q
  | cons c s ih => exact .cons q c s s (ih _)

/-- The same edits, where the same is put before each closing bracket. -/
lemma Edited.congr {code : α → ℕ} {put put' : α → Option α} {q : Quoting} {s t : List α}
    (h : Edited code put q s t) (hput : ∀ c, IsClosing (code c) → put c = put' c) :
    Edited code put' q s t := by
  induction h with
  | nil q => exact .nil q
  | cons q c s t _ ih => exact .cons q c s t ih
  | closing gap c s t hgap hc _ ih =>
    rw [hput c hc]
    exact .closing gap c s t hgap hc ih

/-- The last character stays. -/
lemma Edited.getLast?_eq {code : α → ℕ} {put : α → Option α} {q : Quoting} {s t : List α}
    (h : Edited code put q s t) : t.getLast? = s.getLast? := by
  induction h with
  | nil q => rfl
  | cons q c s t _ ih => rw [List.getLast?_cons, List.getLast?_cons, ih]
  | closing gap c s t _ _ _ ih =>
    rw [List.getLast?_append_of_ne_nil _ (by simp), List.getLast?_append_of_ne_nil _ (by simp),
      List.getLast?_cons, List.getLast?_cons, ih]

/-- Edits of characters are edits of their code points. -/
lemma Edited.map {code : α → ℕ} {put : Option α} {q : Quoting} {s t : List α}
    (h : Edited code (fun _ => put) q s t) :
    Edited id (fun _ => put.map code) q (s.map code) (t.map code) := by
  induction h with
  | nil q => exact .nil q
  | cons q c s t _ ih => exact .cons q (code c) _ _ ih
  | closing gap c s t hgap hc _ ih =>
    have hwhite : ∀ w ∈ gap.map code, isWhite w = true := by
      intro w hw
      obtain ⟨v, hv, rfl⟩ := List.mem_map.mp hw
      exact hgap v hv
    have hclosing := Edited.closing (gap.map code) (code c) _ _ hwhite hc ih
    rw [List.map_append, List.map_cons, List.map_append, List.map_cons, filling_map]
    exact hclosing

/-! ### Spacing -/

/-- The characters of scalars. -/
def scalarChars : Text :=
  ['+', '-', '.', 'e', 'E', 'n', 'u', 'l', 't', 'r', 'f', 'a', 's', 'N', 'I', 'i', 'y'].map
    Char.toNat

def IsScalarChar (c : ℕ) : Prop := isDigit c = true ∨ c ∈ scalarChars

instance : DecidablePred IsScalarChar := fun _ => inferInstanceAs (Decidable (_ ∨ _))

/-- Where a place lies, with the last character before it, white space apart, outside of string
literals. -/
inductive Place where
  | outside (last : ℕ)
  | inside
  | escaped
deriving DecidableEq

def Place.quoting : Place → Quoting
  | .outside _ => .outside
  | .inside => .inside
  | .escaped => .escaped

/-- The place after a character, if it may stand there: a colon after a string literal, a closing
bracket not after a comma. -/
def Place.next : Place → ℕ → Option Place
  | .outside last, c =>
    if c = 34 then some .inside
    else if isWhite c then some (.outside last)
    else if c = 58 then if last = 34 then some (.outside c) else none
    else if IsClosing c then if last = 44 then none else some (.outside c)
    else if c = 44 ∨ c = 91 ∨ c = 123 ∨ IsScalarChar c then some (.outside c)
    else none
  | .inside, c => some (if c = 34 then .outside 34 else if c = 92 then .escaped else .inside)
  | .escaped, _ => some .inside

/-- The place after a text. -/
def Place.run (place : Place) (s : Text) : Option Place := s.foldlM Place.next place

lemma Place.run_append {place place' place'' : Place} {s t : Text}
    (hs : place.run s = some place') (ht : place'.run t = some place'') :
    place.run (s ++ t) = some place'' := by
  unfold Place.run at hs ht ⊢
  rw [List.foldlM_append, hs]
  exact ht

lemma Place.run_singleton {place place' : Place} {c : ℕ} (h : place.next c = some place') :
    place.run [c] = some place' := by
  simp [Place.run, h]

lemma Place.quoting_of_next {place place' : Place} {c : ℕ} (h : place.next c = some place') :
    place'.quoting = place.quoting.next c := by
  cases place with
  | outside last =>
    dsimp only [Place.next] at h
    dsimp only [Place.quoting, Quoting.next]
    split_ifs at h ⊢ <;> cases h <;> rfl
  | inside =>
    obtain rfl := Option.some.inj h
    dsimp only [Place.quoting, Quoting.next]
    split_ifs <;> rfl
  | escaped =>
    obtain rfl := Option.some.inj h
    rfl

/-! ### Reading on in both texts -/

/-- Both texts are read from two places to two others.  The first one is well spaced between
them, and if a comma is put before brackets, none has been passed. -/
structure Advanced (put : Option ℕ) (place place' : Place) (s t s' t' : Text) : Prop where
  edited : Edited id (fun _ => put) place'.quoting s' t'
  spaced : ∃ passed, s = passed ++ s' ∧ place.run passed = some place'
  shorter : t'.length ≤ t.length
  same : put ≠ none → t.length + s'.length = s.length + t'.length

variable {put : Option ℕ} {place place' place'' : Place} {s t s' t' s'' t'' : Text}

lemma Advanced.refl (h : Edited id (fun _ => put) place.quoting s t) : Advanced put place place s t s t where
  edited := h
  spaced := ⟨[], rfl, rfl⟩
  shorter := Nat.le_refl _
  same _ := Nat.add_comm _ _

lemma Advanced.trans (h : Advanced put place place' s t s' t')
    (h' : Advanced put place' place'' s' t' s'' t'') : Advanced put place place'' s t s'' t'' where
  edited := h'.edited
  spaced := by
    obtain ⟨p, rfl, hp⟩ := h.spaced
    obtain ⟨p', rfl, hp'⟩ := h'.spaced
    exact ⟨p ++ p', by simp, Place.run_append hp hp'⟩
  shorter := h'.shorter.trans h.shorter
  same hput := by
    have h₁ := h.same hput
    have h₂ := h'.same hput
    omega

/-- Both texts begin with the same character. -/
lemma Advanced.cons {c : ℕ} (hnext : place.next c = some place')
    (h : Edited id (fun _ => put) (place.quoting.next c) s t) :
    Advanced put place place' (c :: s) (c :: t) s t where
  edited := by rwa [Place.quoting_of_next hnext]
  spaced := ⟨[c], rfl, Place.run_singleton hnext⟩
  shorter := Nat.le_succ _
  same _ := by simp only [List.length_cons]; omega

/-- A character before which nothing is edited. -/
def IsPlain (c : ℕ) : Prop := isWhite c = false ∧ ¬IsClosing c ∧ c ≠ 44

instance : DecidablePred IsPlain := fun _ => inferInstanceAs (Decidable (_ ∧ _))

/-- What edited texts begin with. -/
lemma Edited.heads (hput : ∀ c ∈ put, c = 44) (h : Edited id (fun _ => put) .outside s t) :
    (s = [] ∧ t = []) ∨
    (∃ c s' t', s = c :: s' ∧ t = c :: t' ∧ Edited id (fun _ => put) (Quoting.outside.next c) s' t') ∨
    ∃ c d s' t', s = c :: s' ∧ t = d :: t' ∧ ¬IsPlain c ∧ ¬IsPlain d := by
  generalize hq : Quoting.outside = q at h
  cases h with
  | nil => exact .inl ⟨rfl, rfl⟩
  | cons _ c s t h =>
    subst hq
    exact .inr (.inl ⟨c, s, t, rfl, rfl, h⟩)
  | closing gap c s t hgap hc h =>
    have hs : ∃ d s', gap ++ c :: s = d :: s' ∧ ¬IsPlain d := by
      cases gap with
      | nil => exact ⟨c, s, rfl, fun hplain => hplain.2.1 hc⟩
      | cons w gap =>
        refine ⟨w, gap ++ c :: s, rfl, fun hplain => ?_⟩
        have hwhite : isWhite w = true := hgap w List.mem_cons_self
        rw [hplain.1] at hwhite
        cases hwhite
    have ht : ∃ d t', filling put gap ++ c :: t = d :: t' ∧ ¬IsPlain d := by
      cases put with
      | none => exact ⟨c, t, rfl, fun hplain => hplain.2.1 hc⟩
      | some comma =>
        exact ⟨comma, gap ++ c :: t, rfl, fun hplain => hplain.2.2 (hput comma rfl)⟩
    obtain ⟨d, s', hd, hplain⟩ := hs
    obtain ⟨e, t', he, hplain'⟩ := ht
    exact .inr (.inr ⟨d, e, s', t', hd, he, hplain, hplain'⟩)

/-- After a plain character the texts go on together. -/
lemma Edited.of_plain (hput : ∀ c ∈ put, c = 44) {c : ℕ} (hc : IsPlain c)
    (h : Edited id (fun _ => put) .outside (c :: s) t) :
    ∃ t', t = c :: t' ∧ Edited id (fun _ => put) (Quoting.outside.next c) s t' := by
  rcases h.heads hput with ⟨hnil, -⟩ | ⟨d, s', t', hs, ht, hrest⟩ | ⟨d, e, s', t', hs, -, hplain, -⟩
  · cases hnil
  · obtain ⟨rfl, rfl⟩ := List.cons.inj hs
    exact ⟨t', ht, hrest⟩
  · obtain ⟨rfl, rfl⟩ := List.cons.inj hs
    exact absurd hc hplain

/-- Inside a string literal the texts are the same. -/
lemma Edited.of_quoted {q : Quoting} (hq : q ≠ .outside) {c : ℕ}
    (h : Edited id (fun _ => put) q (c :: s) t) : ∃ t', t = c :: t' ∧ Edited id (fun _ => put) (q.next c) s t' := by
  generalize hs : c :: s = cs at h
  cases h with
  | nil => cases hs
  | cons _ d s t h =>
    obtain ⟨rfl, rfl⟩ := List.cons.inj hs
    exact ⟨t, rfl, h⟩
  | closing => exact absurd rfl hq

/-! ### String literals -/

/-- A character inside a string literal that neither ends it nor escapes what follows. -/
lemma Advanced.literal {c : ℕ} (hquote : c ≠ 34) (hslash : c ≠ 92)
    (h : Edited id (fun _ => put) .inside (c :: s) t) :
    ∃ t', t = c :: t' ∧ Advanced put .inside .inside (c :: s) (c :: t') s t' := by
  obtain ⟨t', rfl, hrest⟩ := h.of_quoted (by decide)
  have hnext : Place.inside.next c = some .inside := by simp [Place.next, hquote, hslash]
  exact ⟨t', rfl, .cons hnext hrest⟩

lemma hexValue?_plain {c n : ℕ} (h : hexValue? c = some n) : c ≠ 34 ∧ c ≠ 92 := by
  constructor
  · rintro rfl
    simp [hexValue?] at h
  · rintro rfl
    simp [hexValue?] at h

lemma readHex4_follows {n : ℕ} (h : Edited id (fun _ => put) .inside s t)
    (hread : readHex4 s = some (n, s')) :
    ∃ t', readHex4 t = some (n, t') ∧ Advanced put .inside .inside s t s' t' := by
  unfold readHex4 at hread
  split at hread
  next a b c d rest =>
    obtain ⟨a', ha, hread⟩ := Option.bind_eq_some_iff.mp hread
    obtain ⟨b', hb, hread⟩ := Option.bind_eq_some_iff.mp hread
    obtain ⟨c', hc, hread⟩ := Option.bind_eq_some_iff.mp hread
    obtain ⟨d', hd, hread⟩ := Option.bind_eq_some_iff.mp hread
    obtain ⟨rfl, rfl⟩ := Prod.mk.inj (Option.some.inj hread)
    obtain ⟨t, rfl, h₁⟩ := Advanced.literal (hexValue?_plain ha).1 (hexValue?_plain ha).2 h
    obtain ⟨t, rfl, h₂⟩ := Advanced.literal (hexValue?_plain hb).1 (hexValue?_plain hb).2 h₁.edited
    obtain ⟨t, rfl, h₃⟩ := Advanced.literal (hexValue?_plain hc).1 (hexValue?_plain hc).2 h₂.edited
    obtain ⟨t, rfl, h₄⟩ := Advanced.literal (hexValue?_plain hd).1 (hexValue?_plain hd).2 h₃.edited
    refine ⟨t, ?_, ((h₁.trans h₂).trans h₃).trans h₄⟩
    rw [readHex4, ha, hb, hc, hd]
    rfl
  next => cases hread

/-- A backslash and the letter after it. -/
lemma Advanced.escape (h : Edited id (fun _ => put) .inside (92 :: s) t) :
    ∃ t', t = 92 :: t' ∧ Advanced put .inside .escaped (92 :: s) (92 :: t') s t' := by
  obtain ⟨t', rfl, hrest⟩ := h.of_quoted (by decide)
  exact ⟨t', rfl, .cons rfl hrest⟩

lemma Advanced.escaped {c : ℕ} (h : Edited id (fun _ => put) .escaped (c :: s) t) :
    ∃ t', t = c :: t' ∧ Advanced put .escaped .inside (c :: s) (c :: t') s t' := by
  obtain ⟨t', rfl, hrest⟩ := h.of_quoted (by decide)
  exact ⟨t', rfl, .cons rfl hrest⟩

lemma Edited.eq_nil {q : Quoting} (h : Edited id (fun _ => put) q [] t) : t = [] := by
  generalize hs : ([] : Text) = s at h
  cases h with
  | nil => rfl
  | cons => cases hs
  | closing gap => exact absurd hs.symm (by simp)

/-- The texts go on with the same escape, or neither goes on with one. -/
lemma Edited.unicodeEscape (h : Edited id (fun _ => put) .inside s t) :
    (∃ s' t', s = 92 :: 117 :: s' ∧ t = 92 :: 117 :: t' ∧
      Advanced put .inside .inside s t s' t') ∨
    (∀ s', s ≠ 92 :: 117 :: s') ∧ ∀ t', t ≠ 92 :: 117 :: t' := by
  match s with
  | [] => simp [h.eq_nil]
  | [c] =>
    obtain ⟨t, rfl, hrest⟩ := h.of_quoted (by decide)
    simp [hrest.eq_nil]
  | c :: d :: s =>
    by_cases hc : c = 92
    · subst hc
      obtain ⟨t, rfl, h₁⟩ := Advanced.escape h
      obtain ⟨t, rfl, h₂⟩ := Advanced.escaped h₁.edited
      by_cases hd : d = 117
      · subst hd
        exact .inl ⟨s, t, rfl, rfl, h₁.trans h₂⟩
      · exact .inr ⟨by simp [hd], by simp [hd]⟩
    · obtain ⟨t, rfl, -⟩ := h.of_quoted (by decide)
      exact .inr ⟨by simp [hc], by simp [hc]⟩

lemma readUnicodeEscape_follows {n : ℕ} (h : Edited id (fun _ => put) .inside s t)
    (hread : readUnicodeEscape s = some (n, s')) :
    ∃ t', readUnicodeEscape t = some (n, t') ∧ Advanced put .inside .inside s t s' t' := by
  obtain ⟨⟨u, left⟩, hunit, hread⟩ := Option.bind_eq_some_iff.mp hread
  obtain ⟨t₁, hunit', h₁⟩ := readHex4_follows h hunit
  unfold readUnicodeEscape
  simp only [Option.bind_eq_bind, hunit', Option.bind_some]
  dsimp only at hread
  by_cases hhigh : IsHighSurrogate u
  · rw [if_pos hhigh] at hread ⊢
    rcases h₁.edited.unicodeEscape with ⟨s₂, t₂, rfl, rfl, h₂⟩ | ⟨hs, ht⟩
    · obtain ⟨⟨v, left'⟩, hunit₂, hread⟩ := Option.bind_eq_some_iff.mp hread
      obtain ⟨t₃, hunit₂', h₃⟩ := readHex4_follows h₂.edited hunit₂
      simp only [hunit₂', Option.bind_some]
      dsimp only at hread
      by_cases hlow : IsLowSurrogate v
      · rw [if_pos hlow] at hread ⊢
        obtain ⟨rfl, rfl⟩ := Prod.mk.inj (Option.some.inj hread)
        exact ⟨t₃, rfl, (h₁.trans h₂).trans h₃⟩
      · rw [if_neg hlow] at hread ⊢
        obtain ⟨rfl, rfl⟩ := Prod.mk.inj (Option.some.inj hread)
        exact ⟨_, rfl, h₁⟩
    · split at hread
      next rest => exact absurd rfl (hs rest)
      next =>
        obtain ⟨rfl, rfl⟩ := Prod.mk.inj (Option.some.inj hread)
        exact ⟨t₁, rfl, h₁⟩
  · rw [if_neg hhigh] at hread ⊢
    obtain ⟨rfl, rfl⟩ := Prod.mk.inj (Option.some.inj hread)
    exact ⟨t₁, rfl, h₁⟩

lemma readEscape_follows {n : ℕ} (h : Edited id (fun _ => put) .escaped s t)
    (hread : readEscape s = some (n, s')) :
    ∃ t', readEscape t = some (n, t') ∧ Advanced put .escaped .inside s t s' t' := by
  cases s with
  | nil => cases hread
  | cons c s =>
    obtain ⟨t, rfl, h₁⟩ := Advanced.escaped h
    rw [readEscape] at hread ⊢
    by_cases hu : c = 117
    · rw [if_pos hu] at hread ⊢
      obtain ⟨t', hread', h₂⟩ := readUnicodeEscape_follows h₁.edited hread
      exact ⟨t', hread', h₁.trans h₂⟩
    · rw [if_neg hu] at hread ⊢
      obtain ⟨v, hvalue, heq⟩ := Option.map_eq_some_iff.mp hread
      obtain ⟨rfl, rfl⟩ := Prod.mk.inj heq
      exact ⟨t, by rw [hvalue]; rfl, h₁⟩

/-- A string literal is read from both texts. -/
lemma scanString_follows {bound bound' : ℕ} {v : Text} (h : Edited id (fun _ => put) .inside s t)
    (hbound : t.length < bound') (hread : scanString bound s = some (v, s')) :
    ∃ t', scanString bound' t = some (v, t') ∧
      Advanced put .inside (.outside 34) s t s' t' := by
  induction bound generalizing s t v bound' with
  | zero => cases hread
  | succ bound ih =>
    cases s with
    | nil => cases hread
    | cons c s =>
      obtain ⟨bound', rfl⟩ : ∃ b, bound' = b + 1 := ⟨bound' - 1, by omega⟩
      rw [scanString] at hread
      split at hread
      next hquote =>
        subst hquote
        obtain ⟨rfl, rfl⟩ := Prod.mk.inj (Option.some.inj hread)
        obtain ⟨t', rfl, hrest⟩ := h.of_quoted (by decide)
        exact ⟨t', scanString_quote bound' t', .cons rfl hrest⟩
      next hquote =>
        split at hread
        next hslash =>
          subst hslash
          obtain ⟨⟨value, left⟩, hvalue, hread⟩ := Option.bind_eq_some_iff.mp hread
          obtain ⟨⟨v', left'⟩, hlater, hread⟩ := Option.bind_eq_some_iff.mp hread
          obtain ⟨rfl, rfl⟩ := Prod.mk.inj (Option.some.inj hread)
          obtain ⟨t₁, rfl, h₁⟩ := Advanced.escape h
          obtain ⟨t₂, hvalue', h₂⟩ := readEscape_follows h₁.edited hvalue
          have hshorter := h₂.shorter
          rw [List.length_cons] at hbound
          obtain ⟨t₃, hlater', h₃⟩ := ih h₂.edited (show t₂.length < bound' by omega) hlater
          refine ⟨t₃, ?_, (h₁.trans h₂).trans h₃⟩
          rw [scanString_escape hvalue', hlater']
          rfl
        next hslash =>
          split at hread
          next => cases hread
          next hcontrol =>
            obtain ⟨⟨v', left⟩, hlater, heq⟩ := Option.map_eq_some_iff.mp hread
            obtain ⟨rfl, rfl⟩ := Prod.mk.inj heq
            obtain ⟨t₁, rfl, h₁⟩ := Advanced.literal hquote hslash h
            rw [List.length_cons] at hbound
            obtain ⟨t₂, hlater', h₂⟩ := ih h₁.edited (show t₁.length < bound' by omega) hlater
            refine ⟨t₂, ?_, h₁.trans h₂⟩
            rw [scanString_plain hquote hslash (by omega), hlater']
            rfl

lemma readString_follows {v : Text} (h : Edited id (fun _ => put) .inside s t)
    (hread : (readString s : Except (ReadError ε) (Text × Text)) = .ok (v, s')) :
    ∃ t', (readString t : Except (ReadError ε) (Text × Text)) = .ok (v, t') ∧
      Advanced put .inside (.outside 34) s t s' t' := by
  unfold readString at hread
  split at hread
  next read hscan =>
    obtain rfl := Except.ok.inj hread
    obtain ⟨t', hscan', h'⟩ := scanString_follows h (Nat.lt_succ_self t.length) hscan
    exact ⟨t', by rw [readString, hscan'], h'⟩
  next => cases hread

/-! ### White space -/

lemma Place.run_white {gap : Text} (hgap : ∀ w ∈ gap, isWhite w = true) (last : ℕ) :
    (Place.outside last).run gap = some (.outside last) := by
  induction gap with
  | nil => rfl
  | cons w gap ih =>
    have hw := hgap w List.mem_cons_self
    have hne : w ≠ 34 := by
      rintro rfl
      cases hw
    have hnext : (Place.outside last).next w = some (.outside last) := by simp [Place.next, hne, hw]
    have hrest := ih fun v hv => hgap v (List.mem_cons_of_mem _ hv)
    exact Place.run_append (s := [w]) (Place.run_singleton hnext) hrest

/-- What follows the white space in both texts: nothing, the same character, or a closing bracket
with a comma before it in the second one. -/
inductive Ahead (put : Option ℕ) (s t : Text) : Prop
  | ended : skipWhite s = [] → skipWhite t = [] →
      (∀ last, Advanced put (.outside last) (.outside last) s t [] []) → Ahead put s t
  | same (c : ℕ) (s' t' : Text) : skipWhite s = c :: s' → skipWhite t = c :: t' →
      (∀ last, Advanced put (.outside last) (.outside last) s t (c :: s') (c :: t')) →
      Edited id (fun _ => put) (Quoting.outside.next c) s' t' → Ahead put s t
  | comma (c : ℕ) (s' t' rest : Text) : put ≠ none → IsClosing c → skipWhite s = c :: s' →
      skipWhite t = 44 :: rest → skipWhite rest = c :: t' → Ahead put s t

lemma Edited.ahead (hput : ∀ c ∈ put, c = 44) (h : Edited id (fun _ => put) .outside s t) :
    Ahead put s t := by
  generalize hq : Quoting.outside = q at h
  induction h with
  | nil q =>
    subst hq
    exact .ended rfl rfl fun last => .refl (.nil _)
  | cons q c s t h ih =>
    subst hq
    change Edited id (fun _ => put) (Quoting.outside.next c) s t at h
    by_cases hc : isWhite c = true
    · have hne : c ≠ 34 := by
        rintro rfl
        cases hc
      have hquoting : Quoting.outside.next c = .outside := if_neg hne
      have hskip : ∀ cs, skipWhite (c :: cs) = skipWhite cs := fun cs => by simp [skipWhite, hc]
      have hcons : ∀ last, Advanced put (.outside last) (.outside last) (c :: s) (c :: t) s t :=
        fun last => .cons (by simp [Place.next, hne, hc]) h
      cases ih hquoting.symm with
      | ended hs ht hadv =>
        exact .ended ((hskip s).trans hs) ((hskip t).trans ht) fun last => (hcons last).trans (hadv last)
      | same d s' t' hs ht hadv hrest =>
        exact .same d s' t' ((hskip s).trans hs) ((hskip t).trans ht)
          (fun last => (hcons last).trans (hadv last)) hrest
      | comma d s' t' rest hsome hd hs ht hrest =>
        exact .comma d s' t' rest hsome hd ((hskip s).trans hs) ((hskip t).trans ht) hrest
    · have hskip : ∀ cs, skipWhite (c :: cs) = c :: cs :=
        fun cs => skipWhite_cons (Bool.eq_false_iff.mpr hc)
      exact .same c s t (hskip s) (hskip t) (fun last => .refl (.cons .outside c s t h)) h
  | closing gap c s t hgap hc h =>
    have hskip : ∀ cs, skipWhite (gap ++ c :: cs) = c :: cs :=
      fun cs => skipWhite_append hgap (by simpa using hc.not_white)
    have hne : c ≠ 34 := by
      rintro rfl
      exact absurd hc (by decide)
    have hquoting : Quoting.outside.next c = .outside := if_neg hne
    cases put with
    | none =>
      refine .same c s t (hskip s) (skipWhite_cons hc.not_white) (fun last => ?_)
        (by rwa [hquoting])
      exact ⟨.cons .outside c s t (by rwa [id, hquoting]),
        ⟨gap, rfl, Place.run_white hgap last⟩, Nat.le_refl _, fun hnone => absurd rfl hnone⟩
    | some comma =>
      obtain rfl := hput comma rfl
      exact .comma c s t (gap ++ c :: t) (by simp) hc (hskip s) (skipWhite_cons rfl) (hskip t)

end JsonText
