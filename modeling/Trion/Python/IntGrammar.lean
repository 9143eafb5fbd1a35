import Trion.Python.Text

/-!
# What `int` reads

`int(text)`: decimal digits of any script, with single underscores between them, behind a sign
and between white space, and no more of them than the interpreter converts.
-/

namespace Trion.Python

/-- The decimal digits of the Unicode tables; of ASCII they are `0` to `9`. -/
structure DecimalDigits where
  digit : Char → Option ℕ
  ascii (c : Char) : c.toNat < 128 →
    digit c = if c.isDigit then some (c.toNat - '0'.toNat) else none

/-- `sys.int_info.default_max_str_digits`. -/
def maxStrDigits : ℕ := 4300

namespace DecimalDigits

variable (table : DecimalDigits)

/-- The number that is written with these characters: groups of digits, none of them empty, with
an underscore between them. -/
def natural? (cs : List Char) : Option ℕ :=
  let groups := cs.splitOn '_'
  if [] ∈ groups then none
  else
    match groups.flatten.mapM table.digit with
    | none => none
    | some digits =>
      if maxStrDigits < digits.length then none
      else some (digits.foldl (fun n d => 10 * n + d) 0)

/-- `int(text)`, `none` where it raises a `ValueError`. -/
def int? (s : String) : Option ℤ :=
  match (strip s).toList with
  | '-' :: cs => (table.natural? cs).map fun n => -(n : ℤ)
  | '+' :: cs => (table.natural? cs).map Nat.cast
  | cs => (table.natural? cs).map Nat.cast

/-- The digits of ASCII. -/
def onlyAscii : DecimalDigits where
  digit c := if c.isDigit then some (c.toNat - '0'.toNat) else none
  ascii _ _ := rfl

example : onlyAscii.int? " +1_000" = some 1000 := by decide

variable {table}

lemma natural?_of_ascii {cs : List Char} (h : ∀ c ∈ cs, c.toNat < 128) :
    table.natural? cs = onlyAscii.natural? cs := by
  have hsame : ∀ l : List Char, (∀ c ∈ l, c.toNat < 128) →
      l.mapM table.digit = l.mapM onlyAscii.digit := by
    intro l hl
    induction l with
    | nil => rfl
    | cons c l ih =>
      obtain ⟨hc, hrest⟩ := List.forall_mem_cons.mp hl
      rw [List.mapM_cons, List.mapM_cons, table.ascii c hc, onlyAscii.ascii c hc, ih hrest]
  have hgroups : ∀ c ∈ (cs.splitOn '_').flatten, c.toNat < 128 := by
    intro c hc
    obtain ⟨group, hgroup, hc⟩ := List.mem_flatten.mp hc
    refine h c ?_
    have hmem : String.ofList group ∈ splitOn '_' (String.ofList cs) := by
      rw [splitOn, String.toList_ofList]
      exact List.mem_map_of_mem hgroup
    simpa using mem_of_mem_splitOn hmem (c := c) (by simpa using hc)
  unfold natural?
  dsimp only
  rw [hsame _ hgroups]

/-- On ASCII texts all tables agree. -/
lemma int?_of_ascii {s : String} (h : ∀ c ∈ s.toList, c.toNat < 128) :
    table.int? s = onlyAscii.int? s := by
  have hstrip : ∀ c ∈ (strip s).toList, c.toNat < 128 := by
    intro c hc
    rw [strip, String.toList_ofList, List.mem_reverse] at hc
    have hc := List.mem_reverse.mp ((List.dropWhile_sublist _).mem hc)
    exact h c ((List.dropWhile_sublist _).mem hc)
  unfold int?
  split
  · rename_i cs hcs
    rw [natural?_of_ascii fun c hc => hstrip c (hcs ▸ List.mem_cons_of_mem _ hc)]
  · rename_i cs hcs
    rw [natural?_of_ascii fun c hc => hstrip c (hcs ▸ List.mem_cons_of_mem _ hc)]
  · rw [natural?_of_ascii hstrip]

end DecimalDigits

end Trion.Python
