import Mathlib.Data.Rat.Defs
import Mathlib.Data.List.Basic

/-!
# Python values

Tool results, plan arguments, artifacts and contexts are dynamically typed in the
source: dictionaries whose values may be anything.  This file supplies the value
type the model reads them through, together with the handful of built-in operations
the source applies to them: truthiness, `str`, `int`, `str.strip`, `==` and the
dictionary operations.

Three built-ins rest on tables of the Unicode standard or on classes the program does
not define: `str.lower`, `int` on a string, and `str` of anything that is not a string,
a number without a fraction, a boolean or `None`.  They are the fields of `PyRuntime`,
and every result holds for all of them.
-/

namespace Trion.Python

/-- A Python `float`. -/
inductive PyFloat where
  | finite (value : ℚ)
  | inf
  | negInf
  | nan
deriving DecidableEq, Repr

/-- `x == y` for two floats: a NaN is equal to nothing. -/
def PyFloat.eq (x y : PyFloat) : Bool := x == y && x != .nan

/-- `x <= y` for two floats: a NaN comes before and after nothing. -/
def PyFloat.le : PyFloat → PyFloat → Bool
  | .nan, _ | _, .nan => false
  | .negInf, _ | _, .inf => true
  | .finite x, .finite y => x ≤ y
  | _, _ => false

/-- `float(n)` for an integer: the nearest float, and the even one of two that are; `none` where it
raises an `OverflowError`. -/
def PyFloat.ofInt? (n : ℤ) : Option PyFloat :=
  let unit := Nat.pow 2 (n.natAbs.log2 - 52)
  let below := n.natAbs / unit
  let rest := n.natAbs % unit
  let nearest := if unit < 2 * rest ∨ (2 * rest = unit ∧ below % 2 = 1) then below + 1 else below
  if nearest * unit < Nat.pow 2 1024 then some (.finite (n.sign * (nearest * unit : ℕ) : ℤ)) else none

/-- A Python value, as far as the program can look into it.  An `object` is a value of
any other class: it is truthy, it is neither a mapping nor a sequence nor a number, and
only its identity is known. -/
inductive PyVal where
  | none
  | bool (value : Bool)
  | int (value : ℤ)
  | float (value : PyFloat)
  | str (value : String)
  | list (items : List PyVal)
  | tuple (items : List PyVal)
  | dict (entries : List (String × PyVal))
  | object (ident : ℕ)
deriving Repr

/-- The entries of a `dict` in insertion order. -/
abbrev PyDict := List (String × PyVal)

/-- The exceptions the modelled code lets escape, with the text of a `ValueError`. -/
inductive PyError where
  | valueError (message : String)
  | typeError
  | attributeError
  | overflowError
  | callbackError (message : String)
deriving DecidableEq, Repr

/-! ### Calls that may raise -/

lemma bind_ok {ε α β : Type} (a : α) (f : α → Except ε β) : (.ok a : Except ε α) >>= f = f a := rfl

/-- What follows a call that returns. -/
lemma ok_of_bind {ε α β : Type} {x : Except ε α} {f : α → Except ε β} {b : β}
    (h : x >>= f = .ok b) : ∃ a, x = .ok a ∧ f a = .ok b := by
  cases x with
  | error e => exact absurd h (by simp [bind, Except.bind])
  | ok a => exact ⟨a, rfl, h⟩

/-- What a mapped result comes from. -/
lemma ok_of_map {ε α β : Type} {x : Except ε α} {f : α → β} {b : β} (h : x.map f = .ok b) :
    ∃ a, x = .ok a ∧ f a = b := by
  cases x with
  | error e => exact absurd h (by simp [Except.map])
  | ok a => exact ⟨a, rfl, Except.ok.inj h⟩

/-- Calls on the items of a list, one after the other, return exactly when each of them does. -/
lemma mapM_eq_ok_iff {α β ε : Type} {f : α → Except ε β} {xs : List α} {ys : List β} :
    xs.mapM f = .ok ys ↔ List.Forall₂ (fun x y => f x = .ok y) xs ys := by
  constructor
  · intro h
    induction xs generalizing ys with
    | nil =>
      obtain rfl : [] = ys := Except.ok.inj h
      exact .nil
    | cons x xs ih =>
      rw [List.mapM_cons] at h
      obtain ⟨y, hy, h⟩ := ok_of_bind h
      obtain ⟨ys', hys, h⟩ := ok_of_bind h
      obtain rfl : y :: ys' = ys := Except.ok.inj h
      exact .cons hy (ih hys)
  · intro h
    induction h with
    | nil => rfl
    | cons hy hys ih =>
      rw [List.mapM_cons, hy, ih]
      rfl

/-- An item of the second of two related lists is related to one of the first. -/
lemma exists_of_mem_forall₂ {α β : Type} {R : α → β → Prop} {xs : List α} {ys : List β}
    (h : List.Forall₂ R xs ys) {y : β} (hy : y ∈ ys) : ∃ x ∈ xs, R x y := by
  induction h with
  | nil => simp at hy
  | @cons x _ _ _ hx _ ih =>
    rcases List.mem_cons.mp hy with rfl | hy
    · exact ⟨x, List.mem_cons_self, hx⟩
    · obtain ⟨x', hx', hR⟩ := ih hy
      exact ⟨x', List.mem_cons_of_mem _ hx', hR⟩

/-! ### Built-ins from outside -/

/-- The built-ins that depend on the Unicode tables or on foreign classes. -/
structure PyRuntime where
  /-- `str.lower`. -/
  lower : String → String
  /-- `int(text)`, `none` where it raises a `ValueError`. -/
  parseInt : String → Option ℤ
  /-- `str(value)` for a float, a container or a foreign object. -/
  reprOf : PyVal → String

/-! ### Strings -/

/-- The characters for which `str.isspace` holds. -/
def isSpace (c : Char) : Bool :=
  c.toNat ∈ [0x09, 0x0A, 0x0B, 0x0C, 0x0D, 0x1C, 0x1D, 0x1E, 0x1F, 0x20, 0x85, 0xA0, 0x1680,
    0x2000, 0x2001, 0x2002, 0x2003, 0x2004, 0x2005, 0x2006, 0x2007, 0x2008, 0x2009, 0x200A,
    0x2028, 0x2029, 0x202F, 0x205F, 0x3000]

/-- `str.strip()`. -/
def strip (s : String) : String :=
  String.ofList ((s.toList.dropWhile isSpace).reverse.dropWhile isSpace).reverse

/-- `s or default` for a string. -/
def orElse (s default : String) : String := if s = "" then default else s

/-- `s.startswith(prefix)`. -/
def startsWith (s pre : String) : Bool := pre.toList.isPrefixOf s.toList

/-- `needle in s` for strings. -/
def containsStr (s needle : String) : Bool := s.toList.tails.any needle.toList.isPrefixOf

/-- `s.split(sep, 1)[1]` where `sep` is one character that occurs in `s`. -/
def afterFirst (sep : Char) (s : String) : String :=
  String.ofList ((s.toList.dropWhile (· != sep)).drop 1)

/-- `s.partition(sep)[0]` for a separator of one character. -/
def beforeFirst (sep : Char) (s : String) : String :=
  String.ofList (s.toList.takeWhile (· != sep))

/-- `s.split(sep)` for a separator of one character. -/
def splitOn (sep : Char) (s : String) : List String :=
  (s.toList.splitOn sep).map String.ofList

/-! ### A runtime for ASCII text -/

/-- `int(text)` on digits with an optional sign. -/
def decimal? (s : String) : Option ℤ :=
  match s.toList with
  | '-' :: digits => (digitsValue? digits).map fun n => -(n : ℤ)
  | '+' :: digits => (digitsValue? digits).map Nat.cast
  | digits => (digitsValue? digits).map Nat.cast
where
  digitsValue? (digits : List Char) : Option ℕ :=
    if digits.isEmpty || digits.any (!·.isDigit) then none
    else some (digits.foldl (fun n c => 10 * n + (c.toNat - '0'.toNat)) 0)

/-- The built-ins on ASCII text.  It evaluates in the kernel, and the runs evaluated with it
ask for no `repr`. -/
def PyRuntime.ascii : PyRuntime where
  lower s := String.ofList (s.toList.map Char.toLower)
  parseInt s := decimal? (strip s)
  reprOf _ := ""

example : PyRuntime.ascii.parseInt " -12" = some (-12) := by decide

/-! ### Truthiness, `str` and `int` -/

/-- `bool(value)`. -/
def PyVal.truthy : PyVal → Bool
  | .none => false
  | .bool b => b
  | .int n => n != 0
  | .float (.finite q) => q != 0
  | .float _ => true
  | .str s => s != ""
  | .list xs => !xs.isEmpty
  | .tuple xs => !xs.isEmpty
  | .dict kvs => !kvs.isEmpty
  | .object _ => true

/-- `a or b`. -/
def PyVal.or (a b : PyVal) : PyVal := if a.truthy then a else b

/-- `str(value)`. -/
def PyVal.toStr (rt : PyRuntime) : PyVal → String
  | .none => "None"
  | .bool true => "True"
  | .bool false => "False"
  | .int n => toString n
  | .str s => s
  | v => rt.reprOf v

/-- `int(value)`. -/
def PyVal.toInt (rt : PyRuntime) : PyVal → Except PyError ℤ
  | .bool b => .ok (if b then 1 else 0)
  | .int n => .ok n
  | .float (.finite q) => .ok (Int.tdiv q.num q.den)
  | .float .nan => .error (.valueError "cannot convert float NaN to integer")
  | .float _ => .error .overflowError
  | .str s => match rt.parseInt s with
    | some n => .ok n
    | Option.none => .error (.valueError "invalid literal for int() with base 10")
  | _ => .error .typeError

/-- `str(value or default)`. -/
def PyVal.strOr (rt : PyRuntime) (v : PyVal) (default : String) : String :=
  (v.or (.str default)).toStr rt

/-! ### Equality -/

/-- The number a numeric value stands for; `==` compares booleans, integers and floats by
it. -/
def PyVal.number? : PyVal → Option ℚ
  | .bool b => some (if b then 1 else 0)
  | .int n => some n
  | .float (.finite q) => some q
  | _ => Option.none

mutual

/-- `a == b`.  Dictionaries are compared without regard to order, and a NaN is taken for the one
object that `json.loads` gives for it, which the items of two containers may share. -/
def PyVal.pyEq : PyVal → PyVal → Bool
  | .none, .none => true
  | .str a, .str b => a == b
  | .float a, .float b => a == b
  | .list xs, .list ys => pyEqList xs ys
  | .tuple xs, .tuple ys => pyEqList xs ys
  | .dict xs, .dict ys => xs.length == ys.length && pyEqEntries xs ys
  | .object a, .object b => a == b
  | a, b => match a.number?, b.number? with
    | some p, some q => p == q
    | _, _ => false

/-- Equality of sequences, item by item. -/
def PyVal.pyEqList : List PyVal → List PyVal → Bool
  | [], [] => true
  | x :: xs, y :: ys => x.pyEq y && pyEqList xs ys
  | _, _ => false

/-- Every entry of the first dictionary has an equal one in the second. -/
def PyVal.pyEqEntries : List (String × PyVal) → List (String × PyVal) → Bool
  | [], _ => true
  | (k, v) :: xs, ys =>
    (match ys.lookup k with
      | some w => v.pyEq w
      | Option.none => false) && pyEqEntries xs ys

end

/-! ### Dictionaries -/

namespace PyDict

/-- `d.get(key)`, `None` when the key is absent. -/
def get (d : PyDict) (key : String) : PyVal := (d.lookup key).getD .none

/-- `key in d`. -/
def has (d : PyDict) (key : String) : Bool := d.any (·.1 == key)

/-- `d[key] = value`: an existing key keeps its place. -/
def set (d : PyDict) (key : String) (value : PyVal) : PyDict :=
  if has d key then d.map fun e => if e.1 == key then (key, value) else e
  else d ++ [(key, value)]

/-- The dictionary without the given keys. -/
def without (d : PyDict) (keys : List String) : PyDict := d.filter fun e => !keys.contains e.1

lemma get_cons (k : String) (v : PyVal) (d : PyDict) (key : String) :
    get ((k, v) :: d) key = if key = k then v else get d key := by
  unfold get
  rw [List.lookup_cons]
  by_cases hkey : key = k
  · simp [hkey]
  · rw [beq_false_of_ne hkey, if_neg hkey]

/-- The values under the other keys stay. -/
lemma get_without {d : PyDict} {keys : List String} {key : String} (h : key ∉ keys) :
    get (without d keys) key = get d key := by
  unfold get without
  congr 1
  induction d with
  | nil => rfl
  | cons e d ih =>
    obtain ⟨k, v⟩ := e
    by_cases hkey : key = k
    · subst hkey
      simp [h]
    · have hne : (key == k) = false := beq_false_of_ne hkey
      rw [List.filter_cons]
      split
      · simpa only [List.lookup_cons, hne] using ih
      · simpa only [List.lookup_cons, hne] using ih

end PyDict

/-- `isinstance(value, dict)`, with the dictionary. -/
def PyVal.asDict? : PyVal → Option PyDict
  | .dict kvs => some kvs
  | _ => Option.none

/-- `isinstance(value, list)`, with the items. -/
def PyVal.asList? : PyVal → Option (List PyVal)
  | .list xs => some xs
  | _ => Option.none

/-- `value.get(key)`, which raises on anything but a mapping. -/
def PyVal.getAttr (v : PyVal) (key : String) : Except PyError PyVal :=
  match v with
  | .dict kvs => .ok (PyDict.get kvs key)
  | _ => .error .attributeError

/-! ### `json.dumps` -/

/-- A character inside a JSON string, as `ensure_ascii=False` writes it. -/
def jsonEscape (c : Char) : List Char :=
  if c = '"' then ['\\', '"']
  else if c = '\\' then ['\\', '\\']
  else if c = '\n' then ['\\', 'n']
  else if c = '\r' then ['\\', 'r']
  else if c = '\t' then ['\\', 't']
  else if c = '\x0c' then ['\\', 'f']
  else if c = '\x08' then ['\\', 'b']
  else if c.toNat < 0x20 then
    ['\\', 'u', '0', '0', Nat.digitChar (c.toNat / 16), Nat.digitChar (c.toNat % 16)]
  else [c]

/-- A JSON string literal. -/
def jsonString (s : String) : String :=
  "\"" ++ String.ofList (s.toList.flatMap jsonEscape) ++ "\""

/-- Insertion into a list of dictionary rows sorted by key. -/
def insertByKey {α : Type} (e : String × α) : List (String × α) → List (String × α)
  | [] => [e]
  | f :: fs => if f.1 ≤ e.1 then f :: insertByKey e fs else e :: f :: fs

/-- The rows of a dictionary sorted by key, which are distinct. -/
def sortByKey {α : Type} (es : List (String × α)) : List (String × α) :=
  es.foldl (fun acc e => insertByKey e acc) []

mutual

/-- `json.dumps(value, ensure_ascii=False, sort_keys=True)`, `none` where a foreign object
makes it raise. -/
def PyVal.jsonDumps? (rt : PyRuntime) : PyVal → Option String
  | .none => some "null"
  | .bool true => some "true"
  | .bool false => some "false"
  | .int n => some (toString n)
  | .float (.finite q) => some (rt.reprOf (.float (.finite q)))
  | .float .inf => some "Infinity"
  | .float .negInf => some "-Infinity"
  | .float .nan => some "NaN"
  | .str s => some (jsonString s)
  | .list xs => (jsonDumpsList? rt xs).map fun parts => "[" ++ ", ".intercalate parts ++ "]"
  | .tuple xs => (jsonDumpsList? rt xs).map fun parts => "[" ++ ", ".intercalate parts ++ "]"
  | .dict kvs => (jsonDumpsEntries? rt kvs).map fun rows =>
      "\x7b" ++ ", ".intercalate ((sortByKey rows).map fun r => jsonString r.1 ++ ": " ++ r.2)
        ++ "\x7d"
  | .object _ => Option.none

/-- The items of a JSON array. -/
def PyVal.jsonDumpsList? (rt : PyRuntime) : List PyVal → Option (List String)
  | [] => some []
  | x :: xs => do
    let head ← x.jsonDumps? rt
    let tail ← jsonDumpsList? rt xs
    return head :: tail

/-- The rows of a JSON object. -/
def PyVal.jsonDumpsEntries? (rt : PyRuntime) :
    List (String × PyVal) → Option (List (String × String))
  | [] => some []
  | (k, v) :: rest => do
    let head ← v.jsonDumps? rt
    let tail ← jsonDumpsEntries? rt rest
    return (k, head) :: tail

end

end Trion.Python
