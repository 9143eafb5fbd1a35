import Mathlib.Data.List.Dedup
import Mathlib.Data.List.Perm.Subperm
import Trion.Blueprints.Store
import Trion.Library.OrderedDict

/-!
# Inheritance

`resolve_blueprint` follows the references from a blueprint to the one it extends and merges
each blueprint over what its parent is resolved to.  The recursion ends if and only if every row
on the way can be read and no id comes again: the stored ids are finitely many.
-/

namespace Trion.Blueprints

open Trion.Python OperationRun System

/-- `list(set(items))`: the items without repetitions, in an order that is not specified. -/
structure SetOrder where
  list : List String → List String
  mem_list : ∀ items item, item ∈ list items ↔ item ∈ items

/-- `(i.resource_id, i.target_type, i.target_id, i.attachment_mode)`. -/
def HardwareIntent.key (i : HardwareIntent) : String × String × String × String :=
  (i.resourceId, i.targetType, i.targetId, i.attachmentMode)

/-- `value if value else default` for a list of texts. -/
def listOr (value default : List String) : List String := if value = [] then default else value

/-- What `resolve_blueprint` merges of a blueprint and its resolved parent. -/
def merge (order : SetOrder) (bp parent : Blueprint) : Blueprint :=
  { parent with
    id := bp.id
    name := bp.name
    icon := bp.icon
    description := orElse bp.description parent.description
    dockerfile := orElse bp.dockerfile parent.dockerfile
    image := if bp.image.getD "" ≠ "" then bp.image else parent.image
    systemPrompt := orElse bp.systemPrompt parent.systemPrompt
    storageScope := orElse bp.storageScope parent.storageScope
    ports := listOr bp.ports parent.ports
    runtime := orElse bp.runtime parent.runtime
    devices := listOr bp.devices parent.devices
    environment := OrderedDict.merge parent.environment bp.environment
    healthcheck := OrderedDict.merge parent.healthcheck bp.healthcheck
    preStartExec := bp.preStartExec.or parent.preStartExec
    capAdd := listOr bp.capAdd parent.capAdd
    securityOpt := listOr bp.securityOpt parent.securityOpt
    capDrop := listOr bp.capDrop parent.capDrop
    privileged := bp.privileged || parent.privileged
    readOnlyRootfs := bp.readOnlyRootfs || parent.readOnlyRootfs
    shmSize := orElse bp.shmSize parent.shmSize
    ipcMode := orElse bp.ipcMode parent.ipcMode
    network := if bp.network ≠ .internal then bp.network else parent.network
    resources := bp.resources
    hardwareIntents := parent.hardwareIntents.filter (fun i =>
      i.key ∉ bp.hardwareIntents.map (·.key)) ++ bp.hardwareIntents
    tags := order.list (parent.tags ++ bp.tags)
    secretsRequired := parent.secretsRequired ++ bp.secretsRequired.filter fun secret =>
      secret.name ∉ parent.secretsRequired.map (·.name)
    mounts := parent.mounts ++ bp.mounts.filter fun mount =>
      mount.container ∉ parent.mounts.map (·.container)
    createdAt := bp.createdAt
    updatedAt := bp.updatedAt }

/-- Why `resolve_blueprint` does not return. -/
inductive ResolveError where
  | raised (error : PyError)
  | recursionError

/-- `resolve_blueprint`; `depth` is how many calls the stack has room for. -/
def resolveBlueprint (rt : PyRuntime) (order : SetOrder) (s : Store) :
    ℕ → String → Except ResolveError (Option Blueprint)
  | 0, _ => .error .recursionError
  | depth + 1, blueprintId =>
    match s.getBlueprint rt blueprintId with
    | .error e => .error (.raised e)
    | .ok none => .ok none
    | .ok (some bp) =>
      if bp.extendsId.getD "" = "" then .ok (some bp)
      else
        match resolveBlueprint rt order s depth (bp.extendsId.getD "") with
        | .error e => .error e
        | .ok none => .ok (some bp)
        | .ok (some parent) => .ok (some (merge order bp parent))

/-- `resolve_blueprint` returns, given a stack that is deep enough. -/
def Resolves (rt : PyRuntime) (order : SetOrder) (s : Store) (blueprintId : String) : Prop :=
  ∃ limit, ∀ depth, limit ≤ depth → ∃ r, resolveBlueprint rt order s depth blueprintId = .ok r

/-! ### Following the references -/

variable {rt : PyRuntime} {order : SetOrder} {s : Store} {i j k : String}

/-- The blueprint `i` extends `j`. -/
def Extends (rt : PyRuntime) (s : Store) (i j : String) : Prop :=
  ∃ bp, s.getBlueprint rt i = .ok (some bp) ∧ bp.extendsId = some j ∧ j ≠ ""

/-- `j` is reached from `i` by a number of references. -/
inductive Reaches (rt : PyRuntime) (s : Store) : ℕ → String → String → Prop
  | refl (i : String) : Reaches rt s 0 i i
  | step {n : ℕ} {i j k : String} : Extends rt s i j → Reaches rt s n j k → Reaches rt s (n + 1) i k

/-- Every row that is reached can be read. -/
def RowsReadable (rt : PyRuntime) (s : Store) (i : String) : Prop :=
  ∀ n j, Reaches rt s n i j → ∃ r, s.getBlueprint rt j = .ok r

/-- No id that is reached is reached again from itself. -/
def NoneAgain (rt : PyRuntime) (s : Store) (i : String) : Prop :=
  ∀ n j, Reaches rt s n i j → ∀ m, ¬ Reaches rt s (m + 1) j j

/-- How many nested calls the resolution of a blueprint makes. -/
inductive Calls (rt : PyRuntime) (s : Store) : ℕ → String → Prop
  | missing {i : String} : s.getBlueprint rt i = .ok none → Calls rt s 1 i
  | root {i : String} {bp : Blueprint} : s.getBlueprint rt i = .ok (some bp) →
      bp.extendsId.getD "" = "" → Calls rt s 1 i
  | link {n : ℕ} {i j : String} : Extends rt s i j → Calls rt s n j → Calls rt s (n + 1) i

lemma Extends.unique (h : Extends rt s i j) (h' : Extends rt s i k) : j = k := by
  obtain ⟨bp, hbp, hj, -⟩ := h
  obtain ⟨bp', hbp', hk, -⟩ := h'
  obtain rfl : bp = bp' := Option.some.inj (Except.ok.inj (hbp.symm.trans hbp'))
  exact Option.some.inj (hj.symm.trans hk)

/-- A blueprint whose reference is not empty extends another one. -/
lemma extends_of_getBlueprint {bp : Blueprint} (hbp : s.getBlueprint rt i = .ok (some bp))
    (h : bp.extendsId.getD "" ≠ "") : Extends rt s i (bp.extendsId.getD "") := by
  cases hextends : bp.extendsId with
  | none => simp [hextends] at h
  | some j =>
    rw [hextends] at h
    exact ⟨bp, hbp, hextends, h⟩

/-- A resolution that returns makes so many calls as the stack has room for at most. -/
lemma calls_of_resolve {depth : ℕ} {r : Option Blueprint}
    (h : resolveBlueprint rt order s depth i = .ok r) : ∃ n ≤ depth, Calls rt s n i := by
  induction depth generalizing i r with
  | zero => simp [resolveBlueprint] at h
  | succ depth ih =>
    unfold resolveBlueprint at h
    split at h
    · simp at h
    · exact ⟨1, by omega, .missing ‹_›⟩
    · rename_i bp hbp
      split at h
      · exact ⟨1, by omega, .root hbp ‹_›⟩
      · rename_i hextends
        split at h
        · simp at h
        all_goals
          obtain ⟨n, hn, hcalls⟩ := ih ‹_›
          exact ⟨n + 1, by omega, .link (extends_of_getBlueprint hbp hextends) hcalls⟩

/-- With room for its calls a resolution returns. -/
lemma resolve_of_calls {n : ℕ} (h : Calls rt s n i) {depth : ℕ} (hdepth : n ≤ depth) :
    ∃ r, resolveBlueprint rt order s depth i = .ok r := by
  induction h generalizing depth with
  | missing hnone =>
    obtain ⟨depth, rfl⟩ : ∃ d, depth = d + 1 := ⟨depth - 1, by omega⟩
    unfold resolveBlueprint
    rw [hnone]
    exact ⟨none, rfl⟩
  | root hbp hextends =>
    obtain ⟨depth, rfl⟩ : ∃ d, depth = d + 1 := ⟨depth - 1, by omega⟩
    unfold resolveBlueprint
    rw [hbp]
    exact ⟨_, if_pos hextends⟩
  | link hextends _ ih =>
    obtain ⟨depth, rfl⟩ : ∃ d, depth = d + 1 := ⟨depth - 1, by omega⟩
    obtain ⟨bp, hbp, hj, hne⟩ := hextends
    obtain ⟨r, hr⟩ := ih (Nat.le_of_succ_le_succ hdepth)
    unfold resolveBlueprint
    rw [hbp]
    dsimp only
    rw [hj, Option.getD_some, if_neg hne, hr]
    cases r with
    | none => exact ⟨_, rfl⟩
    | some parent => exact ⟨_, rfl⟩

/-- What extends another blueprint has a reference. -/
lemma Extends.extendsId_ne {bp : Blueprint} (h : Extends rt s i j)
    (hbp : s.getBlueprint rt i = .ok (some bp)) : bp.extendsId.getD "" ≠ "" := by
  obtain ⟨bp', hbp', hj, hne⟩ := h
  obtain rfl := Option.some.inj (Except.ok.inj (hbp.symm.trans hbp'))
  simpa [hj] using hne

/-- How often the recursion calls itself is determined. -/
lemma Calls.unique {n m : ℕ} (h : Calls rt s n i) (h' : Calls rt s m i) : n = m := by
  induction h generalizing m with
  | missing hnone =>
    cases h' with
    | missing => rfl
    | root hbp => simp [hnone] at hbp
    | link hextends => obtain ⟨bp, hbp, -⟩ := hextends; simp [hnone] at hbp
  | root hbp hroot =>
    cases h' with
    | missing => rfl
    | root => rfl
    | link hextends => exact absurd hroot (hextends.extendsId_ne hbp)
  | link hextends _ ih =>
    cases h' with
    | missing hnone => obtain ⟨bp, hbp, -⟩ := hextends; simp [hnone] at hbp
    | root hbp hroot => exact absurd hroot (hextends.extendsId_ne hbp)
    | link hextends' hcalls =>
      obtain rfl := hextends.unique hextends'
      rw [ih hcalls]

/-- What is reached makes as many calls less as there are references to it. -/
lemma Calls.of_reaches {n m : ℕ} (h : Calls rt s n i) (hreaches : Reaches rt s m i j) :
    ∃ l, Calls rt s l j ∧ l + m = n := by
  induction hreaches generalizing n with
  | refl i => exact ⟨n, h, rfl⟩
  | step hextends _ ih =>
    cases h with
    | missing hnone => obtain ⟨bp, hbp, -⟩ := hextends; simp [hnone] at hbp
    | root hbp hroot => exact absurd hroot (hextends.extendsId_ne hbp)
    | link hextends' hcalls =>
      obtain rfl := hextends'.unique hextends
      obtain ⟨l, hl, hsum⟩ := ih hcalls
      exact ⟨l, hl, by omega⟩

lemma Calls.readable {n : ℕ} (h : Calls rt s n i) : ∃ r, s.getBlueprint rt i = .ok r := by
  cases h with
  | missing hnone => exact ⟨_, hnone⟩
  | root hbp => exact ⟨_, hbp⟩
  | link hextends => exact ⟨_, hextends.choose_spec.1⟩

lemma Reaches.trans {n m : ℕ} (h : Reaches rt s n i j) (h' : Reaches rt s m j k) :
    Reaches rt s (n + m) i k := by
  induction h with
  | refl i => rwa [Nat.zero_add]
  | step hextends _ ih =>
    rw [Nat.add_right_comm]
    exact .step hextends (ih h')

/-- A blueprint that can be read has a row. -/
lemma mem_ids_of_getBlueprint {bp : Blueprint} (h : s.getBlueprint rt i = .ok (some bp)) :
    i ∈ s.rows.map (·.id) := by
  unfold Store.getBlueprint at h
  split at h
  · rename_i row hrow
    have hid := List.find?_some hrow
    simp only [Bool.and_eq_true, beq_iff_eq] at hid
    exact List.mem_map.mpr ⟨row, List.mem_of_find?_eq_some hrow, hid.1⟩
  · simp at h

/-- The ids passed so far are stored and distinct, so that there are at most as many as rows. -/
lemma calls_of_seen (hreadable : RowsReadable rt s i) (hagain : NoneAgain rt s i)
    (seen : List String) (hnodup : seen.Nodup) (hstored : seen ⊆ s.rows.map (·.id))
    (hseen : ∀ k ∈ seen, ∃ m, Reaches rt s (m + 1) k i) (fuel : ℕ)
    (hfuel : s.rows.length ≤ seen.length + fuel) : ∃ n, Calls rt s n i := by
  induction fuel generalizing i seen with
  | zero =>
    obtain ⟨r, hr⟩ := hreadable 0 i (.refl i)
    cases r with
    | none => exact ⟨1, .missing hr⟩
    | some bp =>
      have hnot : i ∉ seen := by
        intro hmem
        obtain ⟨m, hm⟩ := hseen i hmem
        exact hagain 0 i (.refl i) m hm
      have hlength : (i :: seen).length ≤ (s.rows.map (·.id)).length :=
        (List.subperm_of_subset (List.nodup_cons.mpr ⟨hnot, hnodup⟩)
          (List.cons_subset.mpr ⟨mem_ids_of_getBlueprint hr, hstored⟩)).length_le
      simp only [List.length_cons, List.length_map] at hlength
      omega
  | succ fuel ih =>
    obtain ⟨r, hr⟩ := hreadable 0 i (.refl i)
    cases r with
    | none => exact ⟨1, .missing hr⟩
    | some bp =>
      by_cases hroot : bp.extendsId.getD "" = ""
      · exact ⟨1, .root hr hroot⟩
      · have hextends := extends_of_getBlueprint hr hroot
        have hnot : i ∉ seen := by
          intro hmem
          obtain ⟨m, hm⟩ := hseen i hmem
          exact hagain 0 i (.refl i) m hm
        have hpassed : ∀ k ∈ i :: seen, ∃ m, Reaches rt s (m + 1) k (bp.extendsId.getD "") := by
          intro k hk
          rcases List.mem_cons.mp hk with rfl | hk
          · exact ⟨0, .step hextends (.refl _)⟩
          · obtain ⟨m, hm⟩ := hseen k hk
            exact ⟨m + 1, hm.trans (.step hextends (.refl _))⟩
        obtain ⟨n, hn⟩ := ih (fun n j hj => hreadable (n + 1) j (.step hextends hj))
          (fun n j hj => hagain (n + 1) j (.step hextends hj)) (i :: seen)
          (List.nodup_cons.mpr ⟨hnot, hnodup⟩)
          (List.cons_subset.mpr ⟨mem_ids_of_getBlueprint hr, hstored⟩) hpassed
          (by rw [List.length_cons, Nat.add_right_comm]; exact hfuel)
        exact ⟨n + 1, .link hextends hn⟩

/-- The references end if and only if every row on the way can be read and no id comes again. -/
theorem calls_iff : (∃ n, Calls rt s n i) ↔ RowsReadable rt s i ∧ NoneAgain rt s i := by
  constructor
  · rintro ⟨n, hcalls⟩
    refine ⟨fun m j hj => ?_, fun m j hj l hl => ?_⟩
    · obtain ⟨l, hl, -⟩ := hcalls.of_reaches hj
      exact hl.readable
    · obtain ⟨m', hm', -⟩ := hcalls.of_reaches hj
      obtain ⟨l', hl', hsum⟩ := hm'.of_reaches hl
      have heq := hl'.unique hm'
      omega
  · rintro ⟨hreadable, hagain⟩
    exact calls_of_seen hreadable hagain [] List.nodup_nil (by simp) (by simp) s.rows.length
      (by simp)

/-- Given a stack that is deep enough, that the resolution returns means that the references
end. -/
lemma resolves_iff_calls : Resolves rt order s i ↔ ∃ n, Calls rt s n i := by
  constructor
  · rintro ⟨limit, hlimit⟩
    obtain ⟨r, hr⟩ := hlimit limit (Nat.le_refl limit)
    obtain ⟨n, -, hn⟩ := calls_of_resolve hr
    exact ⟨n, hn⟩
  · rintro ⟨n, hn⟩
    exact ⟨n, fun depth hdepth => resolve_of_calls hn hdepth⟩

/-- `resolve_blueprint` ends with a blueprint or `None` if and only if every row on the way can
be read and no id comes again. -/
theorem resolves_iff (rt : PyRuntime) (order : SetOrder) (s : Store) (blueprintId : String) :
    Resolves rt order s blueprintId ↔
      RowsReadable rt s blueprintId ∧ NoneAgain rt s blueprintId := by
  rw [resolves_iff_calls, calls_iff]

/-- The items in the order in which they came in. -/
def SetOrder.dedup : SetOrder := ⟨List.dedup, fun _ _ => List.mem_dedup⟩

/-- A store with a blueprint that extends itself. -/
def selfStore : Store :=
  (blueprintStore .ascii).after {}
    [.create { id := some "a", name := some "a", extendsId := some (some "a") } "now"]

theorem self_extending_unresolved : ¬ Resolves .ascii .dedup selfStore "a" := by
  rw [resolves_iff_calls, calls_iff]
  rintro ⟨-, hagain⟩
  have hself : Extends .ascii selfStore "a" "a" := ⟨_, rfl, rfl, by decide⟩
  exact hagain 0 "a" (.refl "a") 0 (.step hself (.refl "a"))

end Trion.Blueprints
