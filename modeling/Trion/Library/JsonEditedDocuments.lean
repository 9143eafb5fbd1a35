import Trion.Library.JsonEdits

/-!
# Documents in edited texts

A document that is read from a text is read from the edited one too, unless a comma has been put
before a closing bracket, which makes a text no document.  On the way the text of a document is
found to be well spaced.
-/

namespace JsonText

variable {ε F : Type} {put : Option ℕ} {s t s' t' s'' t'' : Text}

/-! ### Scalars -/

/-- A part of a value is read, which does not end with a comma. -/
def Passes (put : Option ℕ) (s t s' t' : Text) : Prop :=
  ∀ last, last ≠ 44 → ∃ last', last' ≠ 44 ∧
    Advanced put (.outside last) (.outside last') s t s' t'

/-- A value is read, whatever stands before it. -/
def Reads (put : Option ℕ) (s t s' t' : Text) : Prop :=
  ∀ last, ∃ last', last' ≠ 44 ∧ Advanced put (.outside last) (.outside last') s t s' t'

lemma Passes.refl (h : Edited id (fun _ => put) .outside s t) : Passes put s t s t :=
  fun last hlast => ⟨last, hlast, .refl h⟩

lemma Reads.passes (h : Reads put s t s' t') : Passes put s t s' t' := fun last _ => h last

lemma Passes.trans (h : Passes put s t s' t') (h' : Passes put s' t' s'' t'') :
    Passes put s t s'' t'' := by
  intro last hlast
  obtain ⟨last', hlast', hadv⟩ := h last hlast
  obtain ⟨last'', hlast'', hadv'⟩ := h' last' hlast'
  exact ⟨last'', hlast'', hadv.trans hadv'⟩

lemma Reads.trans (h : Reads put s t s' t') (h' : Passes put s' t' s'' t'') :
    Reads put s t s'' t'' := by
  intro last
  obtain ⟨last', hlast', hadv⟩ := h last
  obtain ⟨last'', hlast'', hadv'⟩ := h' last' hlast'
  exact ⟨last'', hlast'', hadv.trans hadv'⟩

lemma Passes.edited (h : Passes put s t s' t') : Edited id (fun _ => put) .outside s' t' := by
  obtain ⟨last, -, hadv⟩ := h 0 (by decide)
  exact hadv.edited

lemma Reads.edited (h : Reads put s t s' t') : Edited id (fun _ => put) .outside s' t' := h.passes.edited

lemma Reads.shorter (h : Reads put s t s' t') : t'.length ≤ t.length := by
  obtain ⟨last, -, hadv⟩ := h 0
  exact hadv.shorter

lemma IsScalarChar.next {c : ℕ} (h : IsScalarChar c) :
    IsPlain c ∧ Quoting.outside.next c = .outside ∧
      ∀ last, (Place.outside last).next c = some (.outside c) := by
  have hplain : IsPlain c ∧ c ≠ 34 ∧ c ≠ 58 := by
    rcases h with hdigit | hmem
    · have hrange : 48 ≤ c ∧ c ≤ 57 := of_decide_eq_true hdigit
      unfold IsPlain isWhite IsClosing
      simp only [Bool.or_eq_false_iff, beq_eq_false_iff_ne]
      omega
    · have hall : ∀ c ∈ scalarChars, IsPlain c ∧ c ≠ 34 ∧ c ≠ 58 := by decide
      exact hall c hmem
  obtain ⟨⟨hwhite, hclosing, hcomma⟩, hquote, hcolon⟩ := hplain
  refine ⟨⟨hwhite, hclosing, hcomma⟩, if_neg hquote, fun last => ?_⟩
  simp [Place.next, hquote, hwhite, hcolon, hclosing, h]

/-- A character of a scalar is read. -/
lemma Edited.scalarChar (hput : ∀ c ∈ put, c = 44) {c : ℕ} (hc : IsScalarChar c)
    (h : Edited id (fun _ => put) .outside (c :: s) t) :
    ∃ t', t = c :: t' ∧ Reads put (c :: s) (c :: t') s t' := by
  obtain ⟨hplain, -, hnext⟩ := hc.next
  obtain ⟨t', rfl, hrest⟩ := h.of_plain hput hplain
  exact ⟨t', rfl, fun last => ⟨c, hplain.2.2, .cons (hnext last) hrest⟩⟩

lemma not_isDigit_of_not_isPlain {c : ℕ} (h : ¬IsPlain c) : isDigit c = false :=
  Bool.eq_false_iff.mpr fun hdigit => h (IsScalarChar.next (.inl hdigit)).1

/-- Digits are read. -/
lemma Edited.digits (hput : ∀ c ∈ put, c = 44) (h : Edited id (fun _ => put) .outside s t) :
    t.takeWhile isDigit = s.takeWhile isDigit ∧
      Passes put s t (s.dropWhile isDigit) (t.dropWhile isDigit) := by
  induction s generalizing t with
  | nil =>
    obtain rfl := h.eq_nil
    exact ⟨rfl, .refl h⟩
  | cons c s ih =>
    by_cases hc : isDigit c = true
    · obtain ⟨t, rfl, hreads⟩ := h.scalarChar hput (.inl hc)
      obtain ⟨htake, hpasses⟩ := ih hreads.edited
      rw [List.takeWhile_cons_of_pos hc, List.takeWhile_cons_of_pos hc, htake,
        List.dropWhile_cons_of_pos hc, List.dropWhile_cons_of_pos hc]
      exact ⟨rfl, hreads.passes.trans hpasses⟩
    · have ht : t.takeWhile isDigit = [] ∧ t.dropWhile isDigit = t := by
        rcases h.heads hput with ⟨-, rfl⟩ | ⟨d, s', t', hs, rfl, -⟩ | ⟨d, e, s', t', -, rfl, -, he⟩
        · exact ⟨rfl, rfl⟩
        · obtain ⟨rfl, rfl⟩ := List.cons.inj hs
          simp [hc]
        · simp [not_isDigit_of_not_isPlain he]
      rw [List.takeWhile_cons_of_neg hc, List.dropWhile_cons_of_neg hc, ht.1, ht.2]
      exact ⟨rfl, .refl h⟩

lemma readIntegerPart_follows (hput : ∀ c ∈ put, c = 44) {digits : Text}
    (h : Edited id (fun _ => put) .outside s t) (hread : readIntegerPart s = some (digits, s')) :
    ∃ t', readIntegerPart t = some (digits, t') ∧ Reads put s t s' t' := by
  cases s with
  | nil => cases hread
  | cons c s =>
    rw [readIntegerPart] at hread
    split at hread
    next hzero =>
      subst hzero
      obtain ⟨rfl, rfl⟩ := Prod.mk.inj (Option.some.inj hread)
      obtain ⟨t, rfl, hreads⟩ := h.scalarChar hput (.inl rfl)
      exact ⟨t, rfl, hreads⟩
    next hzero =>
      split at hread
      next hdigit =>
        obtain ⟨rfl, rfl⟩ := Prod.mk.inj (Option.some.inj hread)
        obtain ⟨t, rfl, hreads⟩ := h.scalarChar hput (.inl hdigit)
        obtain ⟨htake, hpasses⟩ := hreads.edited.digits hput
        exact ⟨t.dropWhile isDigit, by rw [readIntegerPart, if_neg hzero, if_pos hdigit, htake],
          hreads.trans hpasses⟩
      next => cases hread

lemma readPoint_follows (hput : ∀ c ∈ put, c = 44) (h : Edited id (fun _ => put) .outside s t) :
    (readPoint t).1 = (readPoint s).1 ∧ Passes put s t (readPoint s).2 (readPoint t).2 := by
  rcases h.heads hput with ⟨rfl, rfl⟩ | ⟨c, s', t', rfl, rfl, -⟩ | ⟨c, d, s', t', rfl, rfl, hc, hd⟩
  · exact ⟨rfl, .refl h⟩
  · by_cases hpoint : c = 46 ∧ s'.takeWhile isDigit ≠ []
    · obtain ⟨t'', heq, hreads⟩ := h.scalarChar hput (.inr (hpoint.1 ▸ by decide))
      obtain ⟨-, rfl⟩ := List.cons.inj heq
      obtain ⟨htake, hpasses⟩ := hreads.edited.digits hput
      rw [readPoint, readPoint, htake, if_pos hpoint, if_pos hpoint]
      exact ⟨rfl, hreads.passes.trans hpasses⟩
    · have hpoint' : ¬(c = 46 ∧ t'.takeWhile isDigit ≠ []) := by
        rintro ⟨rfl, hne⟩
        obtain ⟨t'', heq, hreads⟩ := h.scalarChar hput (.inr (by decide))
        obtain ⟨-, rfl⟩ := List.cons.inj heq
        exact hpoint ⟨rfl, (hreads.edited.digits hput).1 ▸ hne⟩
      rw [readPoint, readPoint, if_neg hpoint, if_neg hpoint']
      exact ⟨rfl, .refl h⟩
  · have hother : ∀ {e : ℕ} (cs : Text), ¬IsPlain e → readPoint (e :: cs) = ([], e :: cs) := by
      refine fun cs he => if_neg fun hpoint : _ = 46 ∧ _ => he ?_
      obtain ⟨rfl, -⟩ := hpoint
      decide
    rw [hother s' hc, hother t' hd]
    exact ⟨rfl, .refl h⟩

lemma readSign_follows (hput : ∀ c ∈ put, c = 44) (h : Edited id (fun _ => put) .outside s t) :
    (readSign t).1 = (readSign s).1 ∧ Passes put s t (readSign s).2 (readSign t).2 := by
  rcases h.heads hput with ⟨rfl, rfl⟩ | ⟨c, s', t', rfl, rfl, -⟩ | ⟨c, d, s', t', rfl, rfl, hc, hd⟩
  · exact ⟨rfl, .refl h⟩
  · rw [readSign, readSign]
    by_cases hsign : c = 43 ∨ c = 45
    · have hchar : IsScalarChar c := .inr (by rcases hsign with rfl | rfl <;> decide)
      obtain ⟨t'', heq, hreads⟩ := h.scalarChar hput hchar
      obtain ⟨-, rfl⟩ := List.cons.inj heq
      rw [if_pos hsign, if_pos hsign]
      exact ⟨rfl, hreads.passes⟩
    · rw [if_neg hsign, if_neg hsign]
      exact ⟨rfl, .refl h⟩
  · have hother : ∀ {e : ℕ} (cs : Text), ¬IsPlain e → readSign (e :: cs) = ([], e :: cs) :=
      fun cs he => if_neg fun hsign => he (by rcases hsign with rfl | rfl <;> decide)
    rw [hother s' hc, hother t' hd]
    exact ⟨rfl, .refl h⟩

lemma readExponent_follows (hput : ∀ c ∈ put, c = 44) (h : Edited id (fun _ => put) .outside s t) :
    (readExponent t).1 = (readExponent s).1 ∧
      Passes put s t (readExponent s).2 (readExponent t).2 := by
  rcases h.heads hput with ⟨rfl, rfl⟩ | ⟨c, s', t', rfl, rfl, -⟩ | ⟨c, d, s', t', rfl, rfl, hc, hd⟩
  · exact ⟨rfl, .refl h⟩
  · rw [readExponent, readExponent]
    by_cases he : c = 101 ∨ c = 69
    · have hchar : IsScalarChar c := .inr (by rcases he with rfl | rfl <;> decide)
      obtain ⟨t'', heq, hreads⟩ := h.scalarChar hput hchar
      obtain ⟨-, rfl⟩ := List.cons.inj heq
      obtain ⟨hsign, hpasses⟩ := readSign_follows hput hreads.edited
      obtain ⟨htake, hpasses'⟩ := hpasses.edited.digits hput
      rw [hsign, htake]
      by_cases hdigits : (readSign s').2.takeWhile isDigit ≠ []
      · rw [if_pos ⟨he, hdigits⟩, if_pos ⟨he, hdigits⟩]
        exact ⟨rfl, (hreads.passes.trans hpasses).trans hpasses'⟩
      · rw [if_neg fun hboth => hdigits hboth.2, if_neg fun hboth => hdigits hboth.2]
        exact ⟨rfl, .refl h⟩
    · rw [if_neg fun hboth => he hboth.1, if_neg fun hboth => he hboth.1]
      exact ⟨rfl, .refl h⟩
  · have hother : ∀ {e : ℕ} (cs : Text), ¬IsPlain e → readExponent (e :: cs) = ([], e :: cs) := by
      refine fun cs he => if_neg fun hexponent : (_ = 101 ∨ _ = 69) ∧ _ => he ?_
      rcases hexponent.1 with rfl | rfl <;> decide
    rw [hother s' hc, hother t' hd]
    exact ⟨rfl, .refl h⟩

/-- A sign and the digits after it. -/
lemma readInteger_follows (hput : ∀ c ∈ put, c = 44) {digits : Text}
    (h : Edited id (fun _ => put) .outside s t)
    (hread : readIntegerPart (if s.head? == some 45 then s.tail else s) = some (digits, s')) :
    (t.head? == some 45) = (s.head? == some 45) ∧
      ∃ t', readIntegerPart (if t.head? == some 45 then t.tail else t) = some (digits, t') ∧
        Reads put s t s' t' := by
  rcases h.heads hput with ⟨rfl, rfl⟩ | ⟨c, s', t', rfl, rfl, -⟩ | ⟨c, d, s', t', rfl, rfl, hc, hd⟩
  · cases hread
  · refine ⟨rfl, ?_⟩
    by_cases hminus : c = 45
    · subst hminus
      obtain ⟨t'', heq, hreads⟩ := h.scalarChar hput (.inr (by decide))
      obtain ⟨-, rfl⟩ := List.cons.inj heq
      obtain ⟨t₁, hread', hreads'⟩ := readIntegerPart_follows hput hreads.edited hread
      exact ⟨t₁, hread', hreads.trans hreads'.passes⟩
    · have hhead : ∀ cs : Text, ((c :: cs).head? == some 45) = false := by simpa using hminus
      rw [hhead, if_neg (by simp)] at hread ⊢
      exact readIntegerPart_follows hput h hread
  · have hminus : ∀ {e : ℕ} (cs : Text), ¬IsPlain e → ((e :: cs).head? == some 45) = false := by
      intro e cs he
      refine beq_eq_false_iff_ne.mpr fun heq => he ?_
      obtain rfl := Option.some.inj heq
      decide
    rw [hminus s' hc, if_neg (by simp)] at hread
    obtain ⟨t₁, hread', hreads⟩ := readIntegerPart_follows hput h hread
    rw [hminus s' hc, hminus t' hd]
    exact ⟨rfl, t₁, hread', hreads⟩

lemma readNumber_iff {cs : Text} {read : NumberToken × Text} :
    readNumber cs = some read ↔ ∃ digits left,
      readIntegerPart (if cs.head? == some 45 then cs.tail else cs) = some (digits, left) ∧
      read = (⟨cs.head? == some 45, digits,
          (readPoint left).1 ++ (readExponent (readPoint left).2).1⟩,
        (readExponent (readPoint left).2).2) := by
  constructor
  · intro h
    obtain ⟨⟨digits, left⟩, hint, heq⟩ := Option.bind_eq_some_iff.mp h
    exact ⟨digits, left, hint, (Option.some.inj heq).symm⟩
  · rintro ⟨digits, left, hint, rfl⟩
    exact Option.bind_eq_some_iff.mpr ⟨(digits, left), hint, rfl⟩

lemma readNumber_follows (hput : ∀ c ∈ put, c = 44) {token : NumberToken}
    (h : Edited id (fun _ => put) .outside s t) (hread : readNumber s = some (token, s')) :
    ∃ t', readNumber t = some (token, t') ∧ Reads put s t s' t' := by
  obtain ⟨digits, left, hint, heq⟩ := readNumber_iff.mp hread
  obtain ⟨rfl, rfl⟩ := Prod.mk.inj heq
  obtain ⟨hsign, t₁, hint', hreads⟩ := readInteger_follows hput h hint
  obtain ⟨hpoint, hpasses⟩ := readPoint_follows hput hreads.edited
  obtain ⟨hexponent, hpasses'⟩ := readExponent_follows hput hpasses.edited
  refine ⟨(readExponent (readPoint t₁).2).2, ?_, (hreads.trans hpasses).trans hpasses'⟩
  exact readNumber_iff.mpr ⟨digits, t₁, hint', by rw [hsign, hpoint, hexponent]⟩

/-- Both texts begin with a word, or neither does. -/
lemma Edited.isPrefixOf (hput : ∀ c ∈ put, c = 44) (h : Edited id (fun _ => put) .outside s t) {word : Text}
    (hword : ∀ c ∈ word, IsScalarChar c) : word.isPrefixOf t = word.isPrefixOf s := by
  induction word generalizing s t with
  | nil => rfl
  | cons a word ih =>
    have ha := hword a List.mem_cons_self
    have hrest := fun c hc => hword c (List.mem_cons_of_mem a hc)
    rcases h.heads hput with ⟨rfl, rfl⟩ | ⟨c, s', t', rfl, rfl, -⟩ | ⟨c, d, s', t', rfl, rfl, hc, hd⟩
    · rfl
    · by_cases hac : a = c
      · subst hac
        obtain ⟨t'', heq, hreads⟩ := h.scalarChar hput ha
        obtain ⟨-, rfl⟩ := List.cons.inj heq
        simp [List.isPrefixOf, ih hreads.edited hrest]
      · rw [List.isPrefixOf, List.isPrefixOf, beq_false_of_ne hac, Bool.false_and, Bool.false_and]
    · have hac : a ≠ c := fun heq => hc (heq ▸ ha.next.1)
      have had : a ≠ d := fun heq => hd (heq ▸ ha.next.1)
      rw [List.isPrefixOf, List.isPrefixOf, beq_false_of_ne hac, beq_false_of_ne had,
        Bool.false_and, Bool.false_and]

/-- A word is read. -/
lemma Edited.word (hput : ∀ c ∈ put, c = 44) {word : Text} (hne : word ≠ [])
    (hword : ∀ c ∈ word, IsScalarChar c) (h : Edited id (fun _ => put) .outside (word ++ s) t) :
    ∃ t', t = word ++ t' ∧ Reads put (word ++ s) (word ++ t') s t' := by
  induction word generalizing t with
  | nil => exact absurd rfl hne
  | cons a word ih =>
    obtain ⟨t, rfl, hreads⟩ := h.scalarChar hput (hword a List.mem_cons_self)
    by_cases hnil : word = []
    · subst hnil
      exact ⟨t, rfl, hreads⟩
    · obtain ⟨t', rfl, hreads'⟩ :=
        ih hnil (fun c hc => hword c (List.mem_cons_of_mem a hc)) hreads.edited
      exact ⟨t', rfl, hreads.trans hreads'.passes⟩

lemma find?_congr {β : Type} {p q : β → Bool} {l : List β} (h : ∀ a ∈ l, p a = q a) :
    l.find? p = l.find? q := by
  induction l with
  | nil => rfl
  | cons a l ih =>
    rw [List.find?_cons, List.find?_cons, h a List.mem_cons_self,
      ih fun b hb => h b (List.mem_cons_of_mem a hb)]

/-- A scalar is read from both texts. -/
lemma readScalar_follows (hput : ∀ c ∈ put, c = 44) {floats : FloatReader F} {maxDigits : ℕ}
    {v : Scalar F} (h : Edited id (fun _ => put) .outside s t)
    (hread : readScalar floats maxDigits s = .ok (v, s')) :
    ∃ t', readScalar floats maxDigits t = .ok (v, t') ∧ Reads put s t s' t' := by
  have hwords : ∀ entry ∈ words floats, entry.1 ≠ [] ∧ ∀ c ∈ entry.1, IsScalarChar c := by
    intro entry hentry
    simp only [words, List.mem_cons, List.not_mem_nil, or_false] at hentry
    rcases hentry with rfl | rfl | rfl | rfl | rfl | rfl
    all_goals
      dsimp only
      exact ⟨by decide, by decide⟩
  have hfind : (words floats).find? (·.1.isPrefixOf t) =
      (words floats).find? (·.1.isPrefixOf s) :=
    find?_congr fun entry hentry => h.isPrefixOf hput (hwords entry hentry).2
  unfold readScalar at hread ⊢
  rw [hfind]
  split at hread
  next word value hsome =>
    obtain ⟨hne, hchars⟩ := hwords _ (List.mem_of_find?_eq_some hsome)
    have hprefix := List.find?_some hsome
    obtain ⟨left, rfl⟩ := List.isPrefixOf_iff_prefix.mp hprefix
    obtain ⟨rfl, hleft⟩ := Prod.mk.inj (Except.ok.inj hread)
    rw [List.drop_left] at hleft
    subst hleft
    obtain ⟨t', rfl, hreads⟩ := h.word hput hne hchars
    exact ⟨t', by simp, hreads⟩
  next hnone =>
    split at hread
    next => cases hread
    next token left hnumber =>
      obtain ⟨t', hnumber', hreads⟩ := readNumber_follows hput h hnumber
      rw [hnumber']
      dsimp only
      cases hvalue : token.toScalar floats maxDigits with
      | error error =>
        rw [hvalue] at hread
        cases hread
      | ok value =>
        rw [hvalue] at hread
        obtain ⟨rfl, rfl⟩ := Prod.mk.inj (Except.ok.inj hread)
        exact ⟨t', rfl, hreads⟩

/-! ### Documents -/

/-- What is read from the first text is read from the second one too, unless a comma has been put
there, which is an error. -/
def Follows {β : Type} (put : Option ℕ) (s t : Text)
    (x y : Except (ReadError ε) (β × Text)) : Prop :=
  ∀ b s', x = .ok (b, s') → (∃ t', y = .ok (b, t') ∧ Reads put s t s' t') ∨
    put ≠ none ∧ y = .error .malformed

/-- A way of reading elements that begin neither with a comma nor with a closing bracket. -/
structure ReadsElement {β : Type} (put : Option ℕ)
    (element : Text → Except (ReadError ε) (β × Text)) : Prop where
  nil : element [] = .error .malformed
  refuses : ∀ c cs, c = 44 ∨ IsClosing c → element (c :: cs) = .error .malformed
  follows : ∀ s t, Edited id (fun _ => put) .outside s t → Follows put s t (element s) (element t)

variable {β : Type} {element : Text → Except (ReadError ε) (β × Text)} {close : ℕ}

lemma readSequence_refuses (h : ReadsElement put element) {c : ℕ} (hc : c = 44 ∨ IsClosing c)
    (bound : ℕ) (cs : Text) : readSequence close element bound (c :: cs) = .error .malformed := by
  cases bound with
  | zero => rfl
  | succ bound =>
    rw [readSequence, h.refuses c cs hc]
    rfl

lemma next_structural {c : ℕ} (h : c = 44 ∨ c = 91 ∨ c = 123) (last : ℕ) :
    Quoting.outside.next c = .outside ∧ (Place.outside last).next c = some (.outside c) := by
  rcases h with rfl | rfl | rfl <;> exact ⟨rfl, rfl⟩

lemma next_closing {c last : ℕ} (hc : IsClosing c) (hlast : last ≠ 44) :
    Quoting.outside.next c = .outside ∧ (Place.outside last).next c = some (.outside c) ∧
      c ≠ 44 := by
  rcases hc with rfl | rfl <;> exact ⟨rfl, by simp [Place.next, isWhite, hlast, IsClosing], by decide⟩

/-- Elements are read from both texts, up to the closing bracket. -/
lemma readSequence_follows (hput : ∀ c ∈ put, c = 44) (hclose : IsClosing close)
    (helement : ReadsElement put element) {bound bound' : ℕ} (h : Edited id (fun _ => put) .outside s t)
    (hbound : t.length ≤ bound') :
    Follows put s t (readSequence close element bound s) (readSequence close element bound' t) := by
  induction bound generalizing s t bound' with
  | zero =>
    intro bs s' hread
    cases hread
  | succ bound ih =>
    intro bs s' hread
    have hne : s ≠ [] := by
      rintro rfl
      rw [readSequence, helement.nil] at hread
      cases hread
    have hne' : t ≠ [] := by
      rintro rfl
      rcases h.heads hput with ⟨rfl, -⟩ | ⟨c, s', t', -, heq, -⟩ | ⟨c, d, s', t', -, heq, -⟩
      · exact hne rfl
      · cases heq
      · cases heq
    obtain ⟨bound', rfl⟩ : ∃ b, bound' = b + 1 :=
      ⟨bound' - 1, by have := List.length_pos_iff.mpr hne'; omega⟩
    rw [readSequence] at hread
    obtain ⟨⟨b, left⟩, hfirst, hread⟩ := ok_of_read hread
    dsimp only at hread
    rw [readSequence]
    rcases helement.follows s t h b left hfirst with ⟨left', hfirst', hreads⟩ | ⟨hsome, herror⟩
    · rw [hfirst']
      simp only [bind, Except.bind]
      cases hreads.edited.ahead hput with
      | ended hs ht _ =>
        rw [hs] at hread
        cases hread
      | same c s₁ t₁ hs ht hadv hrest =>
        rw [hs] at hread
        rw [ht]
        dsimp only at hread ⊢
        by_cases hc : c = close
        · subst hc
          rw [if_pos rfl] at hread ⊢
          obtain ⟨rfl, rfl⟩ := Prod.mk.inj (Except.ok.inj hread)
          refine .inl ⟨t₁, rfl, fun last => ?_⟩
          obtain ⟨last', hlast, hfirst⟩ := hreads last
          obtain ⟨-, hnext, hcomma⟩ := next_closing hclose hlast
          exact ⟨c, hcomma, (hfirst.trans (hadv last')).trans (.cons hnext hrest)⟩
        · rw [if_neg hc] at hread ⊢
          split at hread
          next hcomma =>
            subst hcomma
            rw [if_pos rfl]
            obtain ⟨⟨later, left₂⟩, hlater, hread⟩ := ok_of_read hread
            obtain ⟨rfl, rfl⟩ := Prod.mk.inj (Except.ok.inj hread)
            have hlength : t₁.length ≤ bound' := by
              have h₁ := hreads.shorter
              have h₂ := (hadv 0).shorter
              rw [List.length_cons] at h₂
              omega
            cases Edited.ahead hput hrest with
            | ended hs₁ _ _ =>
              rw [hs₁] at hlater
              cases bound with
              | zero => cases hlater
              | succ bound =>
                rw [readSequence, helement.nil] at hlater
                cases hlater
            | comma d s₂ t₂ rest _ hd hs₁ _ _ =>
              rw [hs₁, readSequence_refuses helement (.inr hd)] at hlater
              cases hlater
            | same d s₂ t₂ hs₁ ht₁ hadv₁ hrest₁ =>
              rw [hs₁] at hlater
              rw [ht₁]
              have hshorter := (hadv₁ 0).shorter
              rcases ih (hadv₁ 0).edited (show _ ≤ bound' by omega) later left₂ hlater with
                ⟨t₃, hlater', hreads'⟩ | ⟨hsome, herror⟩
              · rw [hlater']
                refine .inl ⟨t₃, rfl, fun last => ?_⟩
                obtain ⟨last', -, hfirst⟩ := hreads last
                obtain ⟨last'', hlast, hsecond⟩ := hreads' 44
                have hcomma := Advanced.cons (next_structural (.inl rfl) last').2 hrest
                exact ⟨last'', hlast, (((hfirst.trans (hadv last')).trans hcomma).trans
                  (hadv₁ 44)).trans hsecond⟩
              · rw [herror]
                exact .inr ⟨hsome, rfl⟩
          next => cases hread
      | comma c s₁ t₁ rest hsome hc hs ht hrest =>
        rw [ht]
        have hne : 44 ≠ close := by rcases hclose with rfl | rfl <;> decide
        dsimp only
        rw [if_neg hne, if_pos rfl, hrest, readSequence_refuses helement (.inr hc)]
        exact .inr ⟨hsome, rfl⟩
    · rw [herror]
      exact .inr ⟨hsome, rfl⟩

lemma readBracketed_follows (hput : ∀ c ∈ put, c = 44) (hclose : IsClosing close)
    (helement : ReadsElement put element) (h : Edited id (fun _ => put) .outside s t) {bs : List β}
    (hread : readBracketed close element s = .ok (bs, s')) :
    (∃ t', readBracketed close element t = .ok (bs, t') ∧ Passes put s t s' t') ∨
      put ≠ none ∧ readBracketed close element t = .error .malformed := by
  unfold readBracketed at hread ⊢
  cases h.ahead hput with
  | ended hs ht _ =>
    rw [hs] at hread
    cases hread
  | same c s₁ t₁ hs ht hadv hrest =>
    rw [hs] at hread
    rw [ht]
    dsimp only at hread ⊢
    by_cases hc : c = close
    · subst hc
      rw [if_pos rfl] at hread ⊢
      obtain ⟨rfl, rfl⟩ := Prod.mk.inj (Except.ok.inj hread)
      refine .inl ⟨t₁, rfl, fun last hlast => ?_⟩
      obtain ⟨-, hnext, hcomma⟩ := next_closing hclose hlast
      exact ⟨c, hcomma, (hadv last).trans (.cons hnext hrest)⟩
    · rw [if_neg hc] at hread ⊢
      rcases readSequence_follows hput hclose helement (hadv 0).edited (Nat.le_refl _) bs s' hread
        with ⟨t', hread', hreads⟩ | ⟨hsome, herror⟩
      · refine .inl ⟨t', hread', fun last _ => ?_⟩
        obtain ⟨last', hlast, hlater⟩ := hreads last
        exact ⟨last', hlast, (hadv last).trans hlater⟩
      · exact .inr ⟨hsome, herror⟩
  | comma c s₁ t₁ rest hsome hc hs ht hrest =>
    rw [ht]
    have hne : 44 ≠ close := by rcases hclose with rfl | rfl <;> decide
    dsimp only
    rw [if_neg hne, readSequence_refuses helement (.inl rfl)]
    exact .inr ⟨hsome, rfl⟩

variable {reader : Reader F ε}

/-- Rows are read where their values are. -/
lemma readRow_readsElement (hput : ∀ c ∈ put, c = 44)
    {inner : Text → Except (ReadError ε) (Document F × Text)} (hinner : ReadsElement put inner) :
    ReadsElement put (readRow inner) where
  nil := rfl
  refuses c cs hc := by
    rw [readRow, if_neg]
    rintro rfl
    rcases hc with hc | hc
    · cases hc
    · exact absurd hc (by decide)
  follows s t h row s' hread := by
    cases s with
    | nil => cases hread
    | cons c s =>
      rw [readRow] at hread
      split at hread
      next hquote =>
        subst hquote
        obtain ⟨⟨key, left⟩, hkey, hread⟩ := ok_of_read hread
        obtain ⟨t, rfl, hrest⟩ := h.of_plain hput (by decide)
        obtain ⟨left', hkey', hadv⟩ := readString_follows hrest hkey
        rw [readRow, if_pos rfl, hkey']
        simp only [bind, Except.bind]
        dsimp only at hread
        cases Edited.ahead hput hadv.edited with
        | ended hs _ _ =>
          rw [hs] at hread
          cases hread
        | comma d s₁ t₁ rest _ hd hs _ _ =>
          have hne : d ≠ 58 := by rcases hd with rfl | rfl <;> decide
          rw [hs] at hread
          dsimp only at hread
          rw [if_neg hne] at hread
          cases hread
        | same d s₁ t₁ hs ht hadv₁ hrest₁ =>
          rw [hs] at hread
          rw [ht]
          dsimp only at hread ⊢
          split at hread
          next hcolon =>
            subst hcolon
            rw [if_pos rfl]
            obtain ⟨⟨value, left₂⟩, hvalue, hread⟩ := ok_of_read hread
            obtain ⟨rfl, rfl⟩ := Prod.mk.inj (Except.ok.inj hread)
            cases Edited.ahead hput hrest₁ with
            | ended hs₁ _ _ =>
              rw [hs₁, hinner.nil] at hvalue
              cases hvalue
            | comma d s₂ t₂ rest _ hd hs₁ _ _ =>
              rw [hs₁, hinner.refuses d s₂ (.inr hd)] at hvalue
              cases hvalue
            | same d s₂ t₂ hs₁ ht₁ hadv₂ hrest₂ =>
              rw [hs₁] at hvalue
              rw [ht₁]
              rcases hinner.follows _ _ (hadv₂ 0).edited value left₂ hvalue with
                ⟨t₃, hvalue', hreads⟩ | ⟨hsome, herror⟩
              · rw [hvalue']
                refine .inl ⟨t₃, rfl, fun last => ?_⟩
                obtain ⟨last', hlast, hlater⟩ := hreads 58
                have hopen : (Place.outside last).next 34 = some .inside := rfl
                have hcolon : (Place.outside 34).next 58 = some (.outside 58) := rfl
                exact ⟨last', hlast, (((((Advanced.cons hopen hrest).trans hadv).trans
                  (hadv₁ 34)).trans (.cons hcolon hrest₁)).trans (hadv₂ 58)).trans hlater⟩
              · rw [herror]
                exact .inr ⟨hsome, rfl⟩
          next => cases hread
      next => cases hread

lemma IsScalarStart.isScalarChar {c : ℕ} (h : IsScalarStart c) : IsScalarChar c := by
  rcases h with hdigit | hmem
  · exact .inl hdigit
  · have hall : ∀ c ∈ ['-', 'n', 't', 'f', 'N', 'I'].map Char.toNat, IsScalarChar c := by decide
    exact hall c hmem

/-- Documents are read from both texts, where the documents inside them are. -/
lemma readStep_readsElement (hput : ∀ c ∈ put, c = 44)
    {inner : Option (Text → Except (ReadError ε) (Document F × Text))}
    (hinner : ∀ read, inner = some read → ReadsElement put read) :
    ReadsElement put (readStep reader inner) where
  nil := rfl
  refuses c cs hc := by
    have hne : c ≠ 34 ∧ c ≠ 91 ∧ c ≠ 123 := by rcases hc with rfl | rfl | rfl <;> decide
    have hscalar : readScalar reader.floats reader.maxDigits (c :: cs) = .error .malformed := by
      rcases hc with rfl | rfl | rfl <;> rfl
    rw [readStep, if_neg hne.1, if_neg hne.2.1, if_neg hne.2.2, hscalar]
    rfl
  follows s t h document s' hread := by
    cases s with
    | nil => cases hread
    | cons c s =>
      rw [readStep] at hread
      split at hread
      next hquote =>
        subst hquote
        obtain ⟨⟨v, left⟩, hstring, hread⟩ := ok_of_read hread
        obtain ⟨rfl, rfl⟩ := Prod.mk.inj (Except.ok.inj hread)
        obtain ⟨t, rfl, hrest⟩ := h.of_plain hput (by decide)
        obtain ⟨left', hstring', hadv⟩ := readString_follows hrest hstring
        refine .inl ⟨left', by rw [readStep, if_pos rfl, hstring']; rfl, fun last => ?_⟩
        have hopen : (Place.outside last).next 34 = some .inside := rfl
        exact ⟨34, by decide, (Advanced.cons hopen hrest).trans hadv⟩
      next hquote =>
        split at hread
        next harr =>
          subst harr
          cases hsome : inner with
          | none =>
            rw [hsome] at hread
            cases hread
          | some read =>
            rw [hsome] at hread
            obtain ⟨⟨items, left⟩, hitems, hread⟩ := ok_of_read hread
            obtain ⟨rfl, rfl⟩ := Prod.mk.inj (Except.ok.inj hread)
            obtain ⟨t, rfl, hrest⟩ := h.of_plain hput (by decide)
            rw [readStep, if_neg hquote, if_pos rfl, readNested]
            rcases readBracketed_follows hput (.inl rfl) (hinner read hsome) hrest hitems with
              ⟨left', hitems', hpasses⟩ | ⟨hput', herror⟩
            · rw [hitems']
              refine .inl ⟨left', rfl, fun last => ?_⟩
              obtain ⟨last', hlast, hlater⟩ := hpasses 91 (by decide)
              have hopen : (Place.outside last).next 91 = some (.outside 91) := rfl
              exact ⟨last', hlast, (Advanced.cons hopen hrest).trans hlater⟩
            · rw [herror]
              exact .inr ⟨hput', rfl⟩
        next harr =>
          split at hread
          next hobj =>
            subst hobj
            cases hsome : inner with
            | none =>
              rw [hsome] at hread
              cases hread
            | some read =>
              rw [hsome] at hread
              obtain ⟨⟨rows, left⟩, hrows, hread⟩ := ok_of_read hread
              dsimp only at hread
              split at hread
              next rows' hhook =>
                obtain ⟨rfl, rfl⟩ := Prod.mk.inj (Except.ok.inj hread)
                obtain ⟨t, rfl, hrest⟩ := h.of_plain hput (by decide)
                rw [readStep, if_neg hquote, if_neg harr, if_pos rfl, readNested]
                have hrow := readRow_readsElement hput (hinner read hsome)
                rcases readBracketed_follows hput (.inr rfl) hrow hrest hrows with
                  ⟨left', hrows', hpasses⟩ | ⟨hput', herror⟩
                · rw [hrows']
                  simp only [bind, Except.bind, hhook]
                  refine .inl ⟨left', rfl, fun last => ?_⟩
                  obtain ⟨last', hlast, hlater⟩ := hpasses 123 (by decide)
                  have hopen : (Place.outside last).next 123 = some (.outside 123) := rfl
                  exact ⟨last', hlast, (Advanced.cons hopen hrest).trans hlater⟩
                · rw [herror]
                  exact .inr ⟨hput', rfl⟩
              next => cases hread
          next hobj =>
            split at hread
            next value left hscalar =>
              obtain ⟨rfl, rfl⟩ := Prod.mk.inj (Except.ok.inj hread)
              obtain ⟨left', hscalar', hreads⟩ := readScalar_follows hput h hscalar
              obtain ⟨⟨d, cs, hcs, hstart⟩, -⟩ := readScalar_spec hscalar
              obtain ⟨rfl, rfl⟩ := List.cons.inj hcs
              obtain ⟨t, rfl, -⟩ := h.scalarChar hput hstart.isScalarChar
              refine .inl ⟨left', ?_, hreads⟩
              rw [readStep, if_neg hquote, if_neg harr, if_neg hobj, hscalar']
            next => cases hread

lemma readDocument_readsElement (hput : ∀ c ∈ put, c = 44) (reader : Reader F ε) (depth : ℕ) :
    ReadsElement put (readDocument reader depth) := by
  induction depth with
  | zero =>
    refine readStep_readsElement hput fun read hnone => ?_
    cases hnone
  | succ depth ih =>
    refine readStep_readsElement hput fun read hsome => ?_
    obtain rfl := Option.some.inj hsome
    exact ih

/-- A document is loaded from both texts, unless a comma has been put into the second one. -/
theorem loads_follows (hput : ∀ c ∈ put, c = 44) {depth : ℕ} {document : Document F}
    (h : Edited id (fun _ => put) .outside s t) (hload : loads reader depth s = .ok document) :
    (loads reader depth t = .ok document ∧
      ∃ last, Advanced put (.outside 0) (.outside last) s t [] []) ∨
    put ≠ none ∧ loads reader depth t = .error .malformed := by
  have helement := readDocument_readsElement hput reader depth
  unfold loads at hload ⊢
  split at hload
  next => cases hload
  next hmark =>
    obtain ⟨⟨read, left⟩, hread, hload⟩ := ok_of_read hload
    have hmark' : t.head? ≠ some 0xfeff := by
      intro hhead
      rcases h.heads hput with ⟨-, rfl⟩ | ⟨c, s', t', rfl, rfl, -⟩ | ⟨c, d, s', t', -, rfl, -, hd⟩
      · cases hhead
      · exact hmark hhead
      · obtain rfl := Option.some.inj hhead
        exact hd (by decide)
    rw [if_neg hmark']
    cases h.ahead hput with
    | ended hs _ _ =>
      rw [hs, helement.nil] at hread
      cases hread
    | comma c s₁ t₁ rest _ hc hs _ _ =>
      rw [hs, helement.refuses c s₁ (.inr hc)] at hread
      cases hread
    | same c s₁ t₁ hs ht hadv hrest =>
      rw [hs] at hread
      rw [ht]
      dsimp only at hload
      split at hload
      next hend =>
        obtain rfl := Except.ok.inj hload
        rcases helement.follows _ _ (hadv 0).edited read left hread with
          ⟨left', hread', hreads⟩ | ⟨hsome, herror⟩
        · rw [hread']
          simp only [bind, Except.bind]
          cases hreads.edited.ahead hput with
          | ended _ hend' hadv' =>
            rw [if_pos hend']
            obtain ⟨last, -, hlater⟩ := hreads 0
            exact .inl ⟨rfl, last, ((hadv 0).trans hlater).trans (hadv' last)⟩
          | comma d s₂ t₂ rest _ _ hs₂ _ _ =>
            rw [hend] at hs₂
            cases hs₂
          | same d s₂ t₂ hs₂ _ _ _ =>
            rw [hend] at hs₂
            cases hs₂
        · rw [herror]
          exact .inr ⟨hsome, rfl⟩
      next => cases hload

/-- White space before closing brackets may be dropped. -/
theorem loads_of_dropped {depth : ℕ} {document : Document F} (h : Edited id (fun _ => none) .outside s t)
    (hload : loads reader depth s = .ok document) : loads reader depth t = .ok document := by
  rcases loads_follows (by simp) h hload with ⟨hload', -⟩ | ⟨hnone, -⟩
  · exact hload'
  · exact absurd rfl hnone

/-- A text with commas put before brackets is longer. -/
lemma Edited.length_le {α : Type} {q : Quoting} {comma : α} {code : α → ℕ} {s t : List α}
    (h : Edited code (fun _ => some comma) q s t) :
    s.length ≤ t.length ∧ (t.length ≤ s.length → t = s) := by
  induction h with
  | nil q => exact ⟨Nat.le_refl _, fun _ => rfl⟩
  | cons q c s t _ ih =>
    simp only [List.length_cons, Nat.add_le_add_iff_right, List.cons.injEq, true_and]
    exact ih
  | closing gap c s t _ _ _ ih =>
    have hlength := ih.1
    simp only [filling, List.length_append, List.length_cons]
    exact ⟨by omega, fun hle => absurd hle (by omega)⟩

/-- A text into which a comma has been put is no document. -/
theorem loads_of_put {depth : ℕ} {document : Document F} (h : Edited id (fun _ => some 44) .outside s t)
    (hload : loads reader depth s = .ok document) (hne : t ≠ s) :
    loads reader depth t = .error .malformed := by
  rcases loads_follows (by simp) h hload with ⟨-, last, hadv⟩ | ⟨-, herror⟩
  · have hsame := hadv.same (by simp)
    exact absurd (h.length_le.2 (Nat.le_of_eq hsame)) hne
  · exact herror

/-- The text of a document is well spaced. -/
theorem exists_run_of_loads {depth : ℕ} {document : Document F}
    (hload : loads reader depth s = .ok document) :
    ∃ last, (Place.outside 0).run s = some (.outside last) := by
  have hrefl : Edited id (fun _ => (none : Option ℕ)) .outside s s := .refl ..
  rcases loads_follows (by simp) hrefl hload with
    ⟨-, last, hadv⟩ | ⟨hnone, -⟩
  · obtain ⟨passed, heq, hrun⟩ := hadv.spaced
    rw [List.append_nil] at heq
    exact ⟨last, heq ▸ hrun⟩
  · exact absurd rfl hnone

end JsonText
