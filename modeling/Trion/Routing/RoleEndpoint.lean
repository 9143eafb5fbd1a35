import Mathlib.Data.Prod.Lex
import Trion.Routing.LayerRouting

/-!
# The endpoint of a role

`utils/routing/role_endpoint.py`: a snapshot holds the instances, the routing and what the routing
resolves to.  A role that is resolved without an endpoint is looked up among the instances once
more before it is refused or sent to the default endpoint.

A pinned role is kept to its target only as far as nothing else serves: when the target is not
available, the second look picks any other instance that runs and is healthy.
-/

namespace Trion.Routing

open Python Preferred

/-- `normalize_endpoint`. -/
def normalizeEndpoint (endpoint : String) : String :=
  String.ofList ((strip endpoint).toList.reverse.dropWhile (· == '/')).reverse

/-- What `_build_snapshot` puts together. -/
structure Snapshot where
  instances : List Instance
  layerRouting : LayerRouting
  effective : List (String × ResolvedRole)

/-- `_build_snapshot`, from the routing that is stored and the instances that are listed. -/
def buildSnapshot (layerRouting : LayerRouting) (instances : List Instance) : Snapshot where
  instances := instances
  layerRouting := layerRouting
  effective := resolveLayerRouting layerRouting layerRouting instances

/-- What `_recover_endpoint_from_instances` returns. -/
structure Recovered where
  effectiveTarget : String
  endpoint : String
  fallbackReason : String
deriving Repr

/-- `by_id`: the instances that have an id and an endpoint. -/
def reachableById (instances : List Instance) : List (String × Instance) :=
  OrderedDict.insertAll (fun inst => strip inst.id) id []
    (instances.filter fun inst => strip inst.id != "" && normalizeEndpoint inst.endpoint != "")

/-- `_pick`. -/
def pick (byId : List (String × Instance)) (instId reason : String) : Option Recovered :=
  match OrderedDict.get? byId instId with
  | none => none
  | some inst =>
    if !(inst.running && inst.health.ok) then none
    else if normalizeEndpoint inst.endpoint = "" then none
    else some ⟨instId, normalizeEndpoint inst.endpoint, reason⟩

/-- `_rank`. -/
def rank (inst : Instance) : ℕ ×ₗ ℕ ×ₗ String :=
  let availability :=
    if inst.running && inst.health.ok then 3
    else if inst.running then 2
    else if inst.health.ok then 1
    else 0
  let targetPref := if inst.target = .gpu then 1 else 0
  toLex (availability, toLex (targetPref, inst.id))

/-- `_recover_endpoint_from_instances`. -/
def recoverEndpointFromInstances (snapshot : Snapshot) (requestedTarget : String)
    (effectiveTarget : Option String) : Option Recovered :=
  let byId := reachableById snapshot.instances
  let explicit :=
    (effectiveTarget.filter (· != "")).bind fun target =>
      pick byId target "missing_effective_endpoint_recovered"
  let requested :=
    if requestedTarget ≠ "" ∧ requestedTarget ≠ "auto" then
      pick byId requestedTarget "missing_requested_endpoint_recovered"
    else none
  let candidates := (byId.map Prod.snd).filter fun inst => inst.running && inst.health.ok
  let automatic :=
    match preferred (fun a b => decide (rank b ≤ rank a)) candidates with
    | none => none
    | some top => if top.id = "" then none else pick byId top.id "no_target_available_recovered"
  (explicit.or requested).or automatic

/-- Where an endpoint comes from. -/
inductive EndpointSource where
  | default
  | computeManager
  | computeManagerRecovery
deriving DecidableEq, Repr

/-- What `resolve_role_endpoint` returns. -/
structure RoleEndpoint where
  role : String
  requestedTarget : String
  effectiveTarget : Option String
  endpoint : Option String
  endpointSource : EndpointSource
  fallbackReason : Option String
  hardError : Bool
  errorCode : Option ℕ
deriving Repr

/-- `(role or "").strip().lower()`. -/
def normalizeRole (rt : PyRuntime) (role : String) : String := rt.lower (strip role)

/-- `resolve_role_endpoint`, with the default endpoint that is found and the snapshot that there
is. -/
def resolveRoleEndpoint (rt : PyRuntime) (role defaultEp : String) (snapshot : Option Snapshot) :
    RoleEndpoint :=
  let roleNorm := normalizeRole rt role
  if roleNorm ∉ roles then
    ⟨orElse roleNorm "unknown", "auto", none, some defaultEp, .default, some "unknown_role", false,
      none⟩
  else
    match snapshot with
    | none =>
      ⟨roleNorm, "auto", none, some defaultEp, .default, some "compute_snapshot_unavailable", false,
        none⟩
    | some snap =>
      let eff := OrderedDict.get? snap.effective roleNorm
      let requested := orElse ((eff.map ResolvedRole.requestedTarget).getD "") "auto"
      let effectiveTarget := eff.bind ResolvedRole.effectiveTarget
      let endpoint := eff.bind ResolvedRole.effectiveEndpoint
      let fallbackReason := eff.bind ResolvedRole.fallbackReason
      if endpoint.getD "" ≠ "" then
        ⟨roleNorm, requested, effectiveTarget, endpoint, .computeManager, fallbackReason, false,
          none⟩
      else
        match recoverEndpointFromInstances snap requested effectiveTarget with
        | some recovered =>
          ⟨roleNorm, requested, some (orElse recovered.effectiveTarget (effectiveTarget.getD "")),
            some recovered.endpoint, .computeManagerRecovery,
            some (orElse (fallbackReason.getD "") recovered.fallbackReason), false, none⟩
        | none =>
          if requested ≠ "auto" then
            ⟨roleNorm, requested, effectiveTarget, none, .computeManager,
              some (orElse (fallbackReason.getD "") "requested_unavailable"), true, some 503⟩
          else
            ⟨roleNorm, requested, effectiveTarget, some defaultEp, .default,
              some (orElse (fallbackReason.getD "") "no_target_available"), false, none⟩

section Recovery

variable {snapshot : Snapshot} {instances : List Instance} {inst : Instance}
  {byId : List (String × Instance)} {requested target reason : String}
  {effective : Option String} {recovered : Recovered}

lemma nodup_reachableById : (OrderedDict.keys (reachableById instances)).Nodup :=
  OrderedDict.nodup_keys_insertAll List.nodup_nil

/-- An instance that is reachable under an id is one of the list, with this id and an endpoint. -/
lemma get?_reachableById (h : OrderedDict.get? (reachableById instances) target = some inst) :
    inst ∈ instances ∧ strip inst.id = target ∧ target ≠ "" ∧
      normalizeEndpoint inst.endpoint ≠ "" := by
  rcases OrderedDict.get?_insertAll h with ⟨inst', hlast, hid, hinst⟩ | ⟨-, hnone⟩
  · obtain rfl : inst' = inst := hinst
    obtain ⟨hmem, hreach⟩ := List.mem_filter.mp (OrderedDict.mem_of_mem_lastOfKey hlast)
    rw [Bool.and_eq_true, bne_iff_ne, bne_iff_ne] at hreach
    exact ⟨hmem, hid, hid ▸ hreach.1, hreach.2⟩
  · exact nomatch hnone

/-- What is picked is found under its id, serves, and has its own endpoint. -/
lemma pick_eq_some_iff : pick byId target reason = some recovered ↔
    ∃ inst, OrderedDict.get? byId target = some inst ∧ inst.serves = true ∧
      normalizeEndpoint inst.endpoint ≠ "" ∧
      recovered = ⟨target, normalizeEndpoint inst.endpoint, reason⟩ := by
  unfold pick Instance.serves
  cases OrderedDict.get? byId target with
  | none => simp
  | some inst =>
    simp only [Option.some.injEq, exists_eq_left']
    cases inst.running && inst.health.ok with
    | false => simp
    | true =>
      by_cases hendpoint : normalizeEndpoint inst.endpoint = ""
      · simp [hendpoint]
      · simp [hendpoint, eq_comm (a := recovered)]

/-- What is recovered was picked. -/
lemma recover_cases (h : recoverEndpointFromInstances snapshot requested effective =
      some recovered) :
    ∃ target reason, pick (reachableById snapshot.instances) target reason = some recovered := by
  unfold recoverEndpointFromInstances at h
  dsimp only at h
  rcases Option.or_eq_some_iff.mp h with h | ⟨-, h⟩
  · rcases Option.or_eq_some_iff.mp h with h | ⟨-, h⟩
    · obtain ⟨target, -, hpick⟩ := Option.bind_eq_some_iff.mp h
      exact ⟨_, _, hpick⟩
    · split_ifs at h
      exact ⟨_, _, h⟩
  · split at h
    · cases h
    · split_ifs at h
      exact ⟨_, _, h⟩

/-- What is recovered is an instance of the list that serves, and its endpoint. -/
lemma recover_serves (h : recoverEndpointFromInstances snapshot requested effective =
      some recovered) :
    ∃ inst ∈ snapshot.instances, inst.serves = true ∧
      strip inst.id = recovered.effectiveTarget ∧ recovered.effectiveTarget ≠ "" ∧
      recovered.endpoint = normalizeEndpoint inst.endpoint ∧ recovered.endpoint ≠ "" := by
  obtain ⟨target, reason, hpick⟩ := recover_cases h
  obtain ⟨inst, hget, hserves, hendpoint, rfl⟩ := pick_eq_some_iff.mp hpick
  obtain ⟨hmem, hid, hne, -⟩ := get?_reachableById hget
  exact ⟨inst, hmem, hserves, hid, hne, rfl, hendpoint⟩

/-- Nothing is recovered only when no instance serves: where ids have no blanks around them, the
first of the candidates is found under its id. -/
theorem recover_eq_none_iff (hbare : ∀ inst ∈ snapshot.instances, strip inst.id = inst.id) :
    recoverEndpointFromInstances snapshot requested effective = none ↔
      ∀ e ∈ reachableById snapshot.instances, e.2.serves = false := by
  constructor
  · intro hnone e he
    by_contra hserves
    have hmem : e.2 ∈ ((reachableById snapshot.instances).map Prod.snd).filter
        fun inst => inst.running && inst.health.ok :=
      List.mem_filter.mpr ⟨List.mem_map_of_mem he, Bool.of_not_eq_false hserves⟩
    obtain ⟨top, htop⟩ := @exists_preferred _ (fun a b => decide (rank b ≤ rank a)) _ _ hmem
    obtain ⟨hin, htopServes⟩ := List.mem_filter.mp (mem_of_preferred htop)
    obtain ⟨⟨key, top'⟩, hentry, rfl⟩ := List.mem_map.mp hin
    have hget := OrderedDict.get?_of_mem nodup_reachableById hentry
    obtain ⟨hlisted, hid, hne, hendpoint⟩ := get?_reachableById hget
    rw [hbare _ hlisted] at hid
    have hpick : pick (reachableById snapshot.instances) top'.id "no_target_available_recovered" =
        some ⟨top'.id, normalizeEndpoint top'.endpoint, "no_target_available_recovered"⟩ :=
      pick_eq_some_iff.mpr ⟨top', hid ▸ hget, htopServes, hendpoint, rfl⟩
    unfold recoverEndpointFromInstances at hnone
    dsimp only at hnone
    rw [htop, Option.or_eq_none_iff] at hnone
    have hlast := hnone.2
    simp only [hid, hne, if_false] at hlast hpick
    exact nomatch hlast.symm.trans hpick
  · intro hnone
    rw [Option.eq_none_iff_forall_ne_some]
    intro recovered hrecovered
    obtain ⟨target, reason, hpick⟩ := recover_cases hrecovered
    obtain ⟨inst, hget, hserves, -⟩ := pick_eq_some_iff.mp hpick
    exact absurd hserves (by simp [hnone _ (OrderedDict.mem_of_get? hget)])

end Recovery

/-! ### Pinned roles -/

/-- A list of instances as `list_instances` gives it: ids have no blanks around them. -/
structure Inventory where
  instances : List Instance
  bare : ∀ inst ∈ instances, strip inst.id = inst.id

/-- The inventory of a host. -/
def ComputeHost.inventory (host : ComputeHost) : Inventory :=
  ⟨listInstances host, fun _ h => strip_id_of_mem h⟩

/-- The routing pins the role to the target. -/
def Pins (layerRouting : LayerRouting) (role target : String) : Prop :=
  requestedTarget layerRouting role = target ∧ target ≠ "auto" ∧ target ≠ ""

/-- The instance that a pin is decided on: the pinned one when it runs and is healthy, and for a
GPU that is not available the CPU when that one is. -/
inductive Decides (instances : List Instance) (target : String) : Instance → Prop where
  | pinned {inst : Instance} (hget : OrderedDict.get? (instancesById instances) target = some inst)
      (hserves : inst.serves = true) : Decides instances target inst
  | cpu {pinned inst : Instance}
      (hpinned : OrderedDict.get? (instancesById instances) target = some pinned)
      (haway : pinned.serves = false) (hgpu : startsWith target "gpu" = true)
      (hget : OrderedDict.get? (instancesById instances) "cpu" = some inst)
      (hserves : inst.serves = true) : Decides instances target inst

/-- The role gets the endpoint of the instance its pin is decided on, or it is refused. -/
def KeepsPin (instances : List Instance) (target : String) (result : RoleEndpoint) : Prop :=
  (∃ inst, Decides instances target inst ∧ result.effectiveTarget = some inst.id ∧
      result.endpoint = some inst.endpoint ∧ result.hardError = false) ∨
    (result.hardError = true ∧ result.endpoint = none)

section Pinned

variable {instances : List Instance} {inst : Instance} {layerRouting : LayerRouting}
  {role target : String}

/-- The effective target of a pin names the instance the pin is decided on. -/
lemma decides_iff (hauto : target ≠ "auto") (hne : target ≠ "") :
    Decides instances target inst ↔
      effMeta (instancesById instances) (decideTarget (instancesById instances) target).1 =
        some inst := by
  unfold decideTarget effMeta
  rw [if_neg hauto]
  constructor
  · rintro (⟨hget, hserves⟩ | ⟨hpinned, haway, hgpu, hget, hserves⟩)
    · have hserves' : (inst.running && inst.health.ok) = true := hserves
      simp [hget, hserves', hne]
    · have haway' := Bool.eq_false_iff.mp haway
      unfold Instance.serves at haway' hserves
      simp [hpinned, haway', hgpu, hget, hserves]
  · intro h
    cases hpinned : OrderedDict.get? (instancesById instances) target with
    | none => simp [hpinned] at h
    | some pinned =>
      simp only [hpinned] at h
      split_ifs at h with hserves hcpu
      · simp only [Option.bind_some, if_neg hne, hpinned, Option.some.injEq] at h
        subst h
        exact .pinned hpinned hserves
      · rw [Bool.and_eq_true] at hcpu
        obtain ⟨cpuMeta, hget, hcpuServes⟩ := Option.any_eq_true _ _ |>.mp hcpu.2
        rw [Option.bind_some, if_neg (by decide), hget, Option.some.injEq] at h
        subst h
        exact .cpu hpinned (Bool.of_not_eq_true hserves) hcpu.1 hget hcpuServes
      · exact nomatch h

/-- The effective target of a pin that is decided is the id of the instance. -/
lemma Decides.effectiveTarget (h : Decides instances target inst) (hauto : target ≠ "auto") :
    (decideTarget (instancesById instances) target).1 = some inst.id := by
  unfold decideTarget
  rw [if_neg hauto]
  cases h with
  | pinned hget hserves =>
    have hserves' : (inst.running && inst.health.ok) = true := hserves
    simp [hget, hserves', (get?_instancesById hget).2]
  | cpu hpinned haway hgpu hget hserves =>
    have haway' := Bool.eq_false_iff.mp haway
    unfold Instance.serves at haway' hserves
    simp [hpinned, haway', hgpu, hget, hserves, (get?_instancesById hget).2]

/-- What a pinned role is sent to: the endpoint it is resolved to, or else the one that is
recovered, and when there is none it is refused. -/
structure SentTo (snapshot : Snapshot) (target : String) (eff : ResolvedRole)
    (result : RoleEndpoint) : Prop where
  resolved : eff.effectiveEndpoint.getD "" ≠ "" →
    result.effectiveTarget = eff.effectiveTarget ∧ result.endpoint = eff.effectiveEndpoint ∧
      result.hardError = false
  recovered : eff.effectiveEndpoint.getD "" = "" → ∀ recovered,
    recoverEndpointFromInstances snapshot target eff.effectiveTarget = some recovered →
      result.endpoint = some recovered.endpoint ∧ result.hardError = false
  refused : eff.effectiveEndpoint.getD "" = "" →
    recoverEndpointFromInstances snapshot target eff.effectiveTarget = none →
      result.hardError = true ∧ result.endpoint = none

lemma resolveRoleEndpoint_sentTo {rt : PyRuntime} {defaultEp : String} {eff : ResolvedRole}
    {snapshot : Snapshot} (hrole : normalizeRole rt role ∈ roles)
    (heff : OrderedDict.get? snapshot.effective (normalizeRole rt role) = some eff)
    (hrequested : eff.requestedTarget = target) (hauto : target ≠ "auto") (hne : target ≠ "") :
    SentTo snapshot target eff (resolveRoleEndpoint rt role defaultEp (some snapshot)) := by
  have htarget : orElse target "auto" = target := if_neg hne
  have hresult : resolveRoleEndpoint rt role defaultEp (some snapshot) =
      if eff.effectiveEndpoint.getD "" ≠ "" then
        ⟨normalizeRole rt role, target, eff.effectiveTarget, eff.effectiveEndpoint,
          .computeManager, eff.fallbackReason, false, none⟩
      else
        match recoverEndpointFromInstances snapshot target eff.effectiveTarget with
        | some recovered =>
          ⟨normalizeRole rt role, target,
            some (orElse recovered.effectiveTarget (eff.effectiveTarget.getD "")),
            some recovered.endpoint, .computeManagerRecovery,
            some (orElse (eff.fallbackReason.getD "") recovered.fallbackReason), false, none⟩
        | none =>
          ⟨normalizeRole rt role, target, eff.effectiveTarget, none, .computeManager,
            some (orElse (eff.fallbackReason.getD "") "requested_unavailable"), true,
            some 503⟩ := by
    unfold resolveRoleEndpoint
    simp only [hrole, not_true_eq_false, if_false, heff, Option.map_some, Option.getD_some,
      Option.bind_some, hrequested, htarget, if_pos hauto]
  rw [hresult]
  constructor
  · intro hendpoint
    rw [if_pos hendpoint]
    exact ⟨rfl, rfl, rfl⟩
  · intro hendpoint recovered hrecovered
    rw [if_neg (not_not.mpr hendpoint), hrecovered]
    exact ⟨rfl, rfl⟩
  · intro hendpoint hnone
    rw [if_neg (not_not.mpr hendpoint), hnone]
    exact ⟨rfl, rfl⟩

/-- A role is kept to its pin when that is decided on an instance with an endpoint, and otherwise
exactly when nothing is recovered. -/
lemma SentTo.keepsPin_iff {snapshot : Snapshot} {eff : ResolvedRole} {result : RoleEndpoint}
    (h : SentTo snapshot target eff result)
    (hdecides : ∀ inst, Decides instances target inst ↔
      effMeta (instancesById instances) eff.effectiveTarget = some inst)
    (hname : ∀ inst, Decides instances target inst → eff.effectiveTarget = some inst.id)
    (hendpoint : eff.effectiveEndpoint =
      (effMeta (instancesById instances) eff.effectiveTarget).map Instance.endpoint) :
    KeepsPin instances target result ↔
      (∃ inst, Decides instances target inst ∧ inst.endpoint ≠ "") ∨
        recoverEndpointFromInstances snapshot target eff.effectiveTarget = none := by
  by_cases hempty : eff.effectiveEndpoint.getD "" = ""
  · -- without an endpoint the instances are looked through once more
    have hbare : ∀ inst, Decides instances target inst → inst.endpoint = "" := by
      intro inst hinst
      rw [hendpoint, (hdecides inst).mp hinst] at hempty
      exact hempty
    rw [or_iff_right fun ⟨inst, hinst, hne⟩ => hne (hbare inst hinst)]
    refine ⟨fun hkeeps => ?_, fun hnone => .inr (h.refused hempty hnone)⟩
    rw [Option.eq_none_iff_forall_ne_some]
    intro recovered hrecover
    obtain ⟨hfound, hsoft⟩ := h.recovered hempty recovered hrecover
    obtain ⟨-, -, -, -, -, -, hsome⟩ := recover_serves hrecover
    rcases hkeeps with ⟨inst, hinst, -, hown, -⟩ | ⟨hhard, -⟩
    · rw [hown, hbare inst hinst, Option.some.injEq] at hfound
      exact hsome hfound.symm
    · rw [hsoft] at hhard
      cases hhard
  · obtain ⟨htarget, hfound, hsoft⟩ := h.resolved hempty
    rw [hendpoint] at hempty hfound
    cases hmeta : effMeta (instancesById instances) eff.effectiveTarget with
    | none =>
      rw [hmeta] at hempty
      exact absurd rfl hempty
    | some inst =>
      rw [hmeta] at hempty hfound
      have hinst := (hdecides inst).mpr hmeta
      exact iff_of_true (.inl ⟨inst, hinst, htarget.trans (hname inst hinst), hfound, hsoft⟩)
        (.inl ⟨inst, hinst, hempty⟩)

end Pinned

/-- The routing keeps a pinned role to its target exactly when the pin is decided on an instance
with an endpoint, or when no instance that can be reached runs and is healthy. -/
theorem resolveRoleEndpoint_keepsPin_iff (rt : PyRuntime) (inventory : Inventory)
    (layerRouting : LayerRouting) (role defaultEp : String) {target : String}
    (hrole : normalizeRole rt role ∈ roles)
    (hpins : Pins layerRouting (normalizeRole rt role) target) :
    KeepsPin inventory.instances target (resolveRoleEndpoint rt role defaultEp
        (some (buildSnapshot layerRouting inventory.instances))) ↔
      (∃ inst, Decides inventory.instances target inst ∧ inst.endpoint ≠ "") ∨
        ∀ e ∈ reachableById inventory.instances, e.2.serves = false := by
  obtain ⟨hrequested, hauto, hne⟩ := hpins
  have heff := @get?_resolveLayerRouting inventory.instances layerRouting layerRouting _ hrole
  rw [routingInForce, ite_self] at heff
  have hsent := @resolveRoleEndpoint_sentTo role target rt defaultEp _
    (buildSnapshot layerRouting inventory.instances) hrole heff
    (resolveRole_requestedTarget.trans hrequested) hauto hne
  rw [@SentTo.keepsPin_iff inventory.instances _ _ _ _ hsent ?_ ?_ resolveRole_effectiveEndpoint,
    recover_eq_none_iff inventory.bare]
  · rfl
  · intro inst
    rw [resolveRole_effectiveTarget, hrequested]
    exact decides_iff hauto hne
  · intro inst hinst
    rw [resolveRole_effectiveTarget, hrequested]
    exact hinst.effectiveTarget hauto

/-- A host on which of all instances only `gpu1` was ever started. -/
def oneGpuHost : ComputeHost where
  getenv _ := none
  lower s := s
  isDigit := Char.isDigit
  nvidiaRuntime := true
  amdRuntime := false
  container name :=
    if name = "trion-ollama-gpu1" then
      some ⟨"4f1c", [(labelManager, "true"), (labelInstance, "gpu1")], "running", []⟩
    else none
  now := 0
  cachedHealth _ := none
  probe _ := .ok 200
  gpuName _ _ := none
  hostGpuName _ := none
  isSpace_of_isDigit _ := isSpace_of_isDigit

theorem resolveRoleEndpoint_keepsPin_gpu1 :
    KeepsPin oneGpuHost.inventory.instances "gpu1" (resolveRoleEndpoint .ascii "thinking"
        "http://ollama:11434"
        (some (buildSnapshot [("thinking", "gpu1")] oneGpuHost.inventory.instances))) ↔
      (∃ inst, Decides oneGpuHost.inventory.instances "gpu1" inst ∧ inst.endpoint ≠ "") ∨
        ∀ e ∈ reachableById oneGpuHost.inventory.instances, e.2.serves = false :=
  resolveRoleEndpoint_keepsPin_iff .ascii oneGpuHost.inventory [("thinking", "gpu1")] "thinking"
    "http://ollama:11434" (by decide +kernel) ⟨by decide +kernel, by decide, by decide⟩

/-- A role that is pinned to `gpu0`, which is not there, is sent to `gpu1`. -/
theorem not_keepsPin_gpu0 :
    ¬KeepsPin oneGpuHost.inventory.instances "gpu0" (resolveRoleEndpoint .ascii "thinking"
        "http://ollama:11434"
        (some (buildSnapshot [("thinking", "gpu0")] oneGpuHost.inventory.instances))) := by
  rintro (⟨inst, hdecides, -⟩ | ⟨-, hnone⟩)
  · have hundecided :
        (decideTarget (instancesById oneGpuHost.inventory.instances) "gpu0").1 = none := by
      decide +kernel
    have hmeta := (decides_iff (by decide) (by decide)).mp hdecides
    rw [hundecided] at hmeta
    cases hmeta
  · have hsent : (resolveRoleEndpoint .ascii "thinking" "http://ollama:11434"
        (some (buildSnapshot [("thinking", "gpu0")] oneGpuHost.inventory.instances))).endpoint =
          some "http://trion-ollama-gpu1:11434" := by
      decide +kernel
    rw [hsent] at hnone
    cases hnone

end Trion.Routing
