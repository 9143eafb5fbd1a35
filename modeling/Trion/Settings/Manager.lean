import Trion.Library.JsonDocuments
import Trion.Library.OperationRun
import Trion.Library.OrderedDict
import Trion.Python.JsonLoads
import Trion.TextUtils.JsonParser

/-!
# Settings

`SettingsManager`: the settings are read from the first candidate file that can be read and
written to the file in use, or, where that fails, to the first other candidate that can be
written.  A restart reads what was set exactly if no candidate before the written one can be
read; so the settings survive as long as the file in use can be written.
-/

namespace Trion.Settings

open JsonText OperationRun

variable {P F : Type}

/-! ### Files -/

/-- What is at a path: no file, one that cannot be read or decoded, or a text. -/
inductive Stored where
  | absent
  | unreadable
  | text (t : Text)
deriving DecidableEq

/-- `_candidate_settings_files` in order, and how Python reads and writes JSON. -/
structure SettingsEnv (P F : Type) where
  first : P
  others : List P
  floats : FloatFormat F
  maxDigits : ℕ
  depth : ℕ

/-- The settings in memory and the file in use. -/
structure Manager (P F : Type) where
  settings : Document F
  path : P

namespace SettingsEnv

variable (env : SettingsEnv P F)

def candidates : List P := env.first :: env.others

def reader : Reader F Empty where
  floats := env.floats.toFloatReader
  maxDigits := env.maxDigits
  hook := dictHook F

/-- `json.dumps` with an indentation of two. -/
def writer : Writer F where
  floats := env.floats
  rule := asciiRule
  layout := .indented 2

/-- What a file is read as, `none` where it does not exist or reading it raises. -/
def read (stored : Stored) : Option (Document F) :=
  match stored with
  | .text t => (loads env.reader env.depth t).toOption
  | _ => none

/-- `_load`. -/
def load (files : P → Stored) : Manager P F :=
  match env.candidates.findSome? fun path => (env.read (files path)).map fun d => (d, path) with
  | some (d, path) => ⟨d, path⟩
  | none => ⟨.obj [], env.first⟩

end SettingsEnv

/-- What becomes of an attempt to write a file: it is written, or the write raises and leaves the
file as it was or with something else in it. -/
inductive WriteResult where
  | done
  | failed (left : Option Stored)

/-- The files after an attempt to write a text. -/
def attempted [DecidableEq P] (files : P → Stored) (path : P) (payload : Text) :
    WriteResult → P → Stored
  | .done => Function.update files path (.text payload)
  | .failed left => Function.update files path (left.getD (files path))

/-- The loop of `_save`: the path that was written, if one was. -/
def saveTo [DecidableEq P] (payload : Text) (write : P → WriteResult) :
    List P → (P → Stored) → Option P × (P → Stored)
  | [], files => (none, files)
  | path :: paths, files =>
    let files' := attempted files path payload (write path)
    match write path with
    | .done => (some path, files')
    | .failed _ => saveTo payload write paths files'

/-- The process and its files. -/
structure SettingsState (P F : Type) where
  manager : Manager P F
  files : P → Stored

/-- What happens to the settings; every set comes with what becomes of its writes. -/
inductive SettingsCall (P F : Type) where
  | set (key : Text) (value : Document F) (write : P → WriteResult)
  | restart

/-- `set`: where the settings are no object, the assignment raises. -/
def setKey [DecidableEq P] (env : SettingsEnv P F) (s : SettingsState P F) (key : Text)
    (value : Document F) (write : P → WriteResult) : SettingsState P F × Option P :=
  match s.manager.settings with
  | .obj rows =>
    let settings := Document.obj (OrderedDict.insert rows key value)
    -- where every write raises, so does the call, with the value in memory
    let saved := saveTo (settings.text env.writer 0) write
      (s.manager.path :: env.candidates.filter fun path => path ≠ s.manager.path) s.files
    (⟨⟨settings, saved.1.getD s.manager.path⟩, saved.2⟩, saved.1)
  | _ => (s, none)

/-- The settings under their calls; the answer to a set is the path that was written. -/
def settingsSystem [DecidableEq P] (env : SettingsEnv P F) :
    System (SettingsState P F) (SettingsCall P F) (Option P) := fun s call =>
  match call with
  | .set key value write => setKey env s key value write
  | .restart => (⟨env.load s.files, s.files⟩, none)

/-- `get`, where the settings are an object. -/
def Manager.get? (m : Manager P F) (key : Text) : Option (Document F) :=
  match m.settings with
  | .obj rows => OrderedDict.get? rows key
  | _ => none

variable {env : SettingsEnv P F} {s : SettingsState P F} {files : P → Stored} {path p : P}
  {rows : List (Text × Document F)} {key : Text} {value d : Document F} {write : P → WriteResult}

/-! ### Writing and reading -/

/-- What is written is read back. -/
lemma read_text (h : Fits env.reader env.writer env.depth d) :
    env.read (.text (d.text env.writer 0)) = some d := by
  have hloads := loads_text h rfl (show ∀ c ∈ ([] : Text), isWhite c = true by simp)
  rw [List.append_nil] at hloads
  rw [SettingsEnv.read, hloads]
  rfl

/-- No candidate before the path can be read. -/
def ReadFirst (env : SettingsEnv P F) (files : P → Stored) (p : P) : Prop :=
  ∃ before after, env.candidates = before ++ p :: after ∧ ∀ c ∈ before, env.read (files c) = none

/-- A restart reads the file that holds the settings exactly if it comes to it first. -/
lemma load_eq_iff (hread : env.read (files p) = some d) :
    env.load files = ⟨d, p⟩ ↔ ReadFirst env files p := by
  unfold SettingsEnv.load
  constructor
  · intro h
    -- the file is the first that is read, or nothing is read and the first candidate is in use
    cases hfound : env.candidates.findSome? fun path =>
        (env.read (files path)).map fun d => (d, path) with
    | none =>
      obtain rfl : env.first = p := by simpa [hfound] using congrArg Manager.path h
      exact ⟨[], env.others, rfl, by simp⟩
    | some found =>
      obtain ⟨before, c, after, hcandidates, hc, hbefore⟩ := List.findSome?_eq_some_iff.mp hfound
      obtain ⟨d', -, rfl⟩ := Option.map_eq_some_iff.mp hc
      obtain rfl : c = p := by simpa [hfound] using congrArg Manager.path h
      exact ⟨before, after, hcandidates, fun x hx => Option.map_eq_none_iff.mp (hbefore x hx)⟩
  · rintro ⟨before, after, hcandidates, hbefore⟩
    have hfound : (env.candidates.findSome? fun path =>
        (env.read (files path)).map fun d => (d, path)) = some (d, p) :=
      List.findSome?_eq_some_iff.mpr ⟨before, p, after, hcandidates, by rw [hread]; rfl,
        fun x hx => by rw [hbefore x hx]; rfl⟩
    rw [hfound]

/-! ### Keys -/

lemma nodup_of_hook (h : env.reader.hook.apply rows = .ok rows) :
    (OrderedDict.keys rows).Nodup := by
  have hrows : OrderedDict.insertAll Prod.fst Prod.snd [] rows = rows := Except.ok.inj h
  rw [← hrows]
  exact OrderedDict.nodup_keys_insertAll List.nodup_nil

/-- A value that can be written under a key leaves the settings such that they can be. -/
lemma fits_insert {depth : ℕ} (h : Fits env.reader env.writer (depth + 1) (.obj rows))
    (hkey : ∀ c ∈ key, IsScalarValue c) (hvalue : Fits env.reader env.writer depth value) :
    Fits env.reader env.writer (depth + 1) (.obj (OrderedDict.insert rows key value)) := by
  cases h with
  | obj _ _ hhook hkeys hvalues =>
    have hnodup := nodup_of_hook hhook
    have hnodup' : (OrderedDict.keys (OrderedDict.insert rows key value)).Nodup :=
      OrderedDict.nodup_keys_insert hnodup
    have hmem : ∀ row ∈ OrderedDict.insert rows key value,
        row = (key, value) ∨ row ∈ rows := by
      rintro ⟨k, v⟩ hrow
      have hget := OrderedDict.get?_of_mem hnodup' hrow
      rw [OrderedDict.get?_insert] at hget
      split at hget
      · rename_i heq
        exact .inl (by rw [heq, Option.some.inj hget])
      · exact .inr (OrderedDict.mem_of_get? hget)
    refine .obj depth _ (congrArg Except.ok (OrderedDict.insertAll_append hnodup')) ?_ ?_
    · rintro row hrow
      rcases hmem row hrow with rfl | hold
      · exact hkey
      · exact hkeys row hold
    · rintro row hrow
      rcases hmem row hrow with rfl | hold
      · exact hvalue
      · exact hvalues row hold

/-! ### One set -/

variable [DecidableEq P]

/-- The path that is written is one of those tried, and holds the text. -/
lemma saveTo_eq_some {payload : Text} {paths : List P}
    (h : (saveTo payload write paths files).1 = some p) :
    p ∈ paths ∧ (saveTo payload write paths files).2 p = .text payload := by
  induction paths generalizing files with
  | nil => cases h
  | cons path paths ih =>
    cases hwrite : write path with
    | done =>
      simp only [saveTo, hwrite, Option.some.injEq] at h ⊢
      subst h
      exact ⟨List.mem_cons_self, by simp [attempted]⟩
    | failed left =>
      simp only [saveTo, hwrite] at h ⊢
      exact (ih h).imp_left (List.mem_cons_of_mem _)

/-- What a set that returns has done: the settings with the value are in memory and in the file
that is now in use. -/
lemma setKey_eq_some (hrows : s.manager.settings = .obj rows)
    (h : (setKey env s key value write).2 = some p) :
    (setKey env s key value write).1.manager = ⟨.obj (OrderedDict.insert rows key value), p⟩ ∧
      (setKey env s key value write).1.files p =
        .text ((Document.obj (OrderedDict.insert rows key value)).text env.writer 0) := by
  simp only [setKey, hrows] at h ⊢
  exact ⟨by rw [h]; rfl, (saveTo_eq_some h).2⟩

/-- A restart would read what is in memory, and that can be written. -/
structure Kept (env : SettingsEnv P F) (s : SettingsState P F) : Prop where
  load : env.load s.files = s.manager
  fits : ∃ rows, s.manager.settings = .obj rows ∧
    Fits env.reader env.writer env.depth (.obj rows)

/-- A set is of a value that can be written, and it returns having written a file that no
readable candidate precedes. -/
def Lands (env : SettingsEnv P F) (s : SettingsState P F) : SettingsCall P F → Prop
  | .set key value write => (∀ c ∈ key, IsScalarValue c) ∧
      (∃ depth, env.depth = depth + 1 ∧ Fits env.reader env.writer depth value) ∧
      ∃ p, (setKey env s key value write).2 = some p ∧
        ReadFirst env (setKey env s key value write).1.files p
  | .restart => True

/-- What a call makes of the value of a key. -/
def setAfter (key : Text) (old : Option (Document F)) : SettingsCall P F → Option (Document F)
  | .set other value _ => if key = other then some value else old
  | .restart => old

lemma Kept.step (h : Kept env s) {call : SettingsCall P F} (hcall : Lands env s call) :
    Kept env (settingsSystem env s call).1 ∧ ∀ key,
      (settingsSystem env s call).1.manager.get? key = setAfter key (s.manager.get? key) call := by
  cases call with
  | restart =>
    -- a restart reads what is in memory
    have hsame : (settingsSystem env s .restart).1 = s := by
      rw [settingsSystem, h.load]
    rw [hsame]
    exact ⟨h, fun key => rfl⟩
  | set other value write =>
    obtain ⟨hkey, ⟨depth, hdepth, hvalue⟩, p, hreturns, hfirst⟩ := hcall
    obtain ⟨rows, hrows, hfits⟩ := h.fits
    have hfits' : Fits env.reader env.writer env.depth
        (.obj (OrderedDict.insert rows other value)) := by
      rw [hdepth] at hfits ⊢
      exact fits_insert hfits hkey hvalue
    obtain ⟨hmanager, hfile⟩ := setKey_eq_some hrows hreturns
    change Kept env (setKey env s other value write).1 ∧ ∀ key,
      (setKey env s other value write).1.manager.get? key = _
    refine ⟨⟨?_, _, by rw [hmanager], hfits'⟩, fun key => ?_⟩
    · rw [hmanager]
      exact (load_eq_iff (by rw [hfile, read_text hfits'])).mpr hfirst
    · rw [hmanager]
      simp only [Manager.get?, hrows, setAfter, OrderedDict.get?_insert]

/-- In every run of sets and restarts in which every set lands, `get` and a restart read for
every key the value that was set last. -/
theorem settings_survive (env : SettingsEnv P F) (s : SettingsState P F) (h : Kept env s)
    (calls : List (SettingsCall P F)) (hcalls : (settingsSystem env).Always (Lands env) s calls)
    (key : Text) :
    ((settingsSystem env).after s calls).manager.get? key =
        calls.foldl (setAfter key) (s.manager.get? key) ∧
      (env.load ((settingsSystem env).after s calls).files).get? key =
        calls.foldl (setAfter key) (s.manager.get? key) := by
  suffices hrun : Kept env ((settingsSystem env).after s calls) ∧
      ((settingsSystem env).after s calls).manager.get? key =
        calls.foldl (setAfter key) (s.manager.get? key) from
    ⟨hrun.2, by rw [hrun.1.load, hrun.2]⟩
  induction calls generalizing s with
  | nil => exact ⟨h, rfl⟩
  | cons call calls ih =>
    obtain ⟨hkept, hget⟩ := h.step hcalls.1
    obtain ⟨hkept', hget'⟩ := ih _ hkept hcalls.2
    exact ⟨hkept', by rw [System.after_cons, hget', hget, List.foldl_cons]⟩

/-! ### Two files -/

/-- The two fixed candidates. -/
def plainEnv : SettingsEnv String Unit where
  first := "/app/data/settings.json"
  others := ["config/settings.json"]
  floats := Python.nanFormat
  maxDigits := 4300
  depth := 900

/-- A process that has found no file. -/
def freshSettings : SettingsState String Unit where
  manager := plainEnv.load fun _ => .absent
  files := fun _ => .absent

/-- The text of the examples. -/
def modelKey : Text := points "MODEL"

lemma isScalarValue_modelKey : ∀ c ∈ modelKey, IsScalarValue c := fun _ hc =>
  Python.isScalarValue_of_mem_points hc

lemma fits_number (depth : ℕ) : Fits plainEnv.reader plainEnv.writer depth (.scalar (.int 1)) :=
  .scalar depth _ (by simp [Scalar.IsShort, plainEnv, SettingsEnv.reader]; decide)

lemma fits_empty : Fits plainEnv.reader plainEnv.writer (899 + 1) (.obj []) :=
  .obj 899 [] rfl (by simp) (by simp)

theorem settings_survive_fresh :
    (plainEnv.load ((settingsSystem plainEnv).after freshSettings
      [.set modelKey (.scalar (.int 1)) fun _ => .done, .restart]).files).get? modelKey =
        some (.scalar (.int 1)) := by
  have hkept : Kept plainEnv freshSettings := ⟨rfl, [], rfl, fits_empty⟩
  have hlands : (settingsSystem plainEnv).Always (Lands plainEnv) freshSettings
      [.set modelKey (.scalar (.int 1)) fun _ => .done, .restart] :=
    ⟨⟨isScalarValue_modelKey, ⟨899, rfl, fits_number 899⟩, "/app/data/settings.json", rfl, [],
      ["config/settings.json"], rfl, by simp⟩, trivial, trivial⟩
  exact (settings_survive plainEnv freshSettings hkept _ hlands modelKey).2

end Trion.Settings
