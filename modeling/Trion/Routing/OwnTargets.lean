import Trion.Routing.RoleEndpoint

/-!
# The targets a role is sent to

Whether the targets that `resolve_layer_routing` and the recovery of `resolve_role_endpoint` give
are containers of the manager.  A target that serves is, since only a container of the manager is
asked for its health.  When nothing serves, `_choose_auto_target` takes the first container that
runs under the name of an instance, whoever started it.
-/

namespace Trion.Routing

open Python Preferred

/-- The container of the instance carries the labels of the manager, and runs. -/
def Owned (host : ComputeHost) (target : String) : Prop :=
  ∃ template container, OrderedDict.get? host.buildTemplates target = some template ∧
    host.container template.containerName = some container ∧
    isManagedInstanceContainer container target = true ∧ container.status = "running"

/-- What a role is sent to is the manager's. -/
structure RoutesToOwn (host : ComputeHost) (stored layerRouting : LayerRouting) : Prop where
  resolved : ∀ role ∈ roles, ∀ eff, OrderedDict.get?
      (resolveLayerRouting stored layerRouting (listInstances host)) role = some eff →
    ∀ target endpoint, eff.effectiveTarget = some target →
      eff.effectiveEndpoint = some endpoint → Owned host target
  recovered : ∀ snapshot : Snapshot, snapshot.instances = listInstances host →
    ∀ requested effective found,
      recoverEndpointFromInstances snapshot requested effective = some found →
        Owned host found.effectiveTarget

/-- The instance that an automatic choice comes to when none serves: the first GPU that runs, or
the CPU when it runs and no GPU does. -/
inductive FirstRunning (instances : List Instance) (target : String) : Prop where
  | gpu (inst : Instance) (hmem : inst ∈ instances) (hid : inst.id = target)
      (hgpu : inst.target = .gpu) (hrunning : inst.running = true)
      (hfirst : ∀ other ∈ instances, other.target = .gpu → other.running = true →
        targetLe target other.id = true)
  | cpu (inst : Instance) (hmem : inst ∈ instances) (hid : inst.id = target)
      (hcpu : target = "cpu") (hrunning : inst.running = true)
      (hnone : ∀ other ∈ instances, other.target = .gpu → other.running = false)

section Choice

variable {host : ComputeHost} {inst : Instance} {target : String}

lemma nodup_listInstances : ((listInstances host).map Instance.id).Nodup := by
  have hkeys : (listInstances host).map Instance.id =
      OrderedDict.keys (sortByKey host.buildTemplates) := by
    unfold listInstances OrderedDict.keys
    rw [List.map_map]
    refine List.map_congr_left fun e he => ?_
    have hmem := (sortByKey_perm host.buildTemplates).mem_iff.mp he
    exact instanceId_of_get? (OrderedDict.get?_of_mem nodup_buildTemplates hmem)
  rw [hkeys]
  exact ((sortByKey_perm host.buildTemplates).map Prod.fst).nodup_iff.mpr nodup_buildTemplates

lemma get?_listed : OrderedDict.get? (instancesById (listInstances host)) target = some inst ↔
    inst ∈ listInstances host ∧ inst.id = target := by
  refine ⟨get?_instancesById, ?_⟩
  rintro ⟨hmem, rfl⟩
  exact get?_instancesById_of_mem nodup_listInstances hmem

lemma mem_listed {e : String × Instance} : e ∈ instancesById (listInstances host) ↔
    e.2 ∈ listInstances host ∧ e.2.id = e.1 := by
  rw [← get?_listed]
  exact OrderedDict.mem_iff_get? nodup_instancesById

/-- The ids that a filter of the instances leaves. -/
lemma mem_filtered (p : Instance → Bool) :
    target ∈ ((instancesById (listInstances host)).filter fun e => p e.2).map Prod.fst ↔
      ∃ inst ∈ listInstances host, inst.id = target ∧ p inst = true := by
  constructor
  · intro h
    obtain ⟨e, he, rfl⟩ := List.mem_map.mp h
    obtain ⟨hlisted, hp⟩ := List.mem_filter.mp he
    exact ⟨e.2, (mem_listed.mp hlisted).1, (mem_listed.mp hlisted).2, hp⟩
  · rintro ⟨inst, hmem, rfl, hp⟩
    exact List.mem_map.mpr ⟨(inst.id, inst),
      List.mem_filter.mpr ⟨mem_listed.mpr ⟨hmem, rfl⟩, hp⟩, rfl⟩

lemma cpu_or_gpu (h : inst ∈ listInstances host) : inst.target = .gpu ∨ inst.id = "cpu" := by
  obtain ⟨template, hget, hinst⟩ := mem_listInstances.mp h
  rcases target_of_get? hget with hgpu | ⟨hcpu, -⟩
  · rw [hinst]
    exact .inl hgpu
  · exact .inr hcpu

lemma id_ne_empty (h : inst ∈ listInstances host) : inst.id ≠ "" := by
  obtain ⟨template, hget, -⟩ := mem_listInstances.mp h
  obtain ⟨hid, -⟩ | ⟨gpuId, -, hid, -⟩ := get?_buildTemplates hget
  · rw [hid]
    decide
  · rw [hid]
    intro hempty
    have hlist := congrArg String.toList hempty
    rw [String.toList_append] at hlist
    cases hlist

/-- An instance of the list is the manager's when its container is managed and runs. -/
lemma owned_iff (h : inst ∈ listInstances host) :
    Owned host inst.id ↔ inst.running = true ∧ inst.managed = true := by
  obtain ⟨template, hget, hinst⟩ := mem_listInstances.mp h
  have hid : template.instanceId = inst.id := instanceId_of_get? hget
  have hrunning : inst.running = true ↔ _ := hinst ▸ describeInstance_running
  have hmanaged : inst.managed = true ↔ _ := hinst ▸ describeInstance_managed
  rw [hrunning, hmanaged, hid]
  constructor
  · rintro ⟨template', c, hget', hc, hlabels, hstatus⟩
    obtain rfl : template' = template := Option.some.inj (hget'.symm.trans hget)
    exact ⟨⟨c, hc, hstatus⟩, c, hc, hlabels⟩
  · rintro ⟨⟨c, hc, hstatus⟩, c', hc', hlabels⟩
    obtain rfl : c' = c := Option.some.inj (hc'.symm.trans hc)
    exact ⟨template, c', hget, hc', hlabels, hstatus⟩

/-- An instance that serves is the manager's. -/
lemma owned_of_serves (h : inst ∈ listInstances host) (hserves : inst.serves = true) :
    Owned host inst.id := by
  refine (owned_iff h).mpr ?_
  obtain ⟨template, -, rfl⟩ := mem_listInstances.mp h
  unfold Instance.serves at hserves
  rw [Bool.and_eq_true] at hserves
  exact describeInstance_healthy hserves.2

/-- The CPU is an instance of the list, and the predicate holds of it. -/
lemma any_cpu_iff (p : Instance → Bool) :
    (OrderedDict.get? (instancesById (listInstances host)) "cpu").any p = true ↔
      ∃ inst ∈ listInstances host, inst.id = "cpu" ∧ p inst = true := by
  rw [Option.any_eq_true]
  simp only [get?_listed, and_assoc]

/-- When something serves, an automatic choice serves. -/
lemma chooseAutoTarget_serves (hserves : ∃ inst ∈ listInstances host, inst.serves = true)
    (h : chooseAutoTarget (instancesById (listInstances host)) = some target) :
    ∃ inst ∈ listInstances host, inst.id = target ∧ inst.serves = true := by
  unfold chooseAutoTarget at h
  dsimp only at h
  split at h
  · rename_i found hfound
    obtain rfl : found = target := Option.some.inj h
    obtain ⟨inst, hmem, hid, hp⟩ := (mem_filtered fun inst =>
      inst.target == .gpu && inst.running && inst.health.ok).mp (mem_of_preferred hfound)
    rw [Bool.and_assoc, Bool.and_eq_true] at hp
    exact ⟨inst, hmem, hid, hp.2⟩
  · rename_i hnone
    obtain ⟨inst, hmem, hinst⟩ := hserves
    have hcpu : inst.id = "cpu" := by
      refine (cpu_or_gpu hmem).resolve_left fun hgpu => ?_
      have hlisted : inst.id ∈ _ := (mem_filtered fun inst =>
        inst.target == .gpu && inst.running && inst.health.ok).mpr
          ⟨inst, hmem, rfl, by rw [hgpu, Bool.and_assoc]; exact hinst⟩
      rw [preferred_eq_none_iff.mp hnone] at hlisted
      exact List.not_mem_nil hlisted
    have hany := (any_cpu_iff fun inst => inst.running && inst.health.ok).mpr
      ⟨inst, hmem, hcpu, hinst⟩
    rw [if_pos hany, Option.some.injEq] at h
    exact ⟨inst, hmem, hcpu.trans h, hinst⟩

/-- When nothing serves, an automatic choice is the first container that runs. -/
lemma chooseAutoTarget_eq_some_iff (hnone : ∀ inst ∈ listInstances host, inst.serves = false) :
    chooseAutoTarget (instancesById (listInstances host)) = some target ↔
      FirstRunning (listInstances host) target := by
  have hunserved : ((instancesById (listInstances host)).filter fun e =>
      e.2.target == .gpu && e.2.running && e.2.health.ok) = [] := by
    refine List.filter_eq_nil_iff.mpr fun e he => ?_
    have haway := hnone e.2 (mem_listed.mp he).1
    unfold Instance.serves at haway
    rw [Bool.and_assoc, haway, Bool.and_false]
    exact Bool.false_ne_true
  have hcpu : (OrderedDict.get? (instancesById (listInstances host)) "cpu").any
      (fun inst => inst.running && inst.health.ok) = false := by
    refine Bool.eq_false_iff.mpr fun hany => ?_
    obtain ⟨inst, hmem, -, hserves⟩ := (any_cpu_iff _).mp hany
    exact Bool.false_ne_true ((hnone inst hmem).symm.trans hserves)
  have hrunning : ∀ name, name ∈ ((instancesById (listInstances host)).filter fun e =>
      e.2.target == .gpu && e.2.running).map Prod.fst ↔
      ∃ inst ∈ listInstances host, inst.id = name ∧ inst.target = .gpu ∧ inst.running = true := by
    intro name
    rw [mem_filtered fun inst => inst.target == .gpu && inst.running]
    simp only [Bool.and_eq_true, beq_iff_eq]
  have hchoice : chooseAutoTarget (instancesById (listInstances host)) =
      (preferred targetLe (((instancesById (listInstances host)).filter fun e =>
        e.2.target == .gpu && e.2.running).map Prod.fst)).or
          (if (OrderedDict.get? (instancesById (listInstances host)) "cpu").any Instance.running
            then some "cpu" else none) := by
    unfold chooseAutoTarget
    simp only [hunserved, hcpu, List.map_nil, preferred_nil, Bool.false_eq_true, if_false]
    cases preferred targetLe _ <;> rfl
  rw [hchoice]
  cases hfound : preferred targetLe (((instancesById (listInstances host)).filter fun e =>
      e.2.target == .gpu && e.2.running).map Prod.fst) with
  | some found =>
    rw [Option.some_or]
    obtain ⟨inst, hmem, hid, hgpu, hrun⟩ := (hrunning found).mp (mem_of_preferred hfound)
    constructor
    · intro h
      obtain rfl : found = target := Option.some.inj h
      exact .gpu inst hmem hid hgpu hrun fun other hother hgpu' hrun' =>
        preferred_le targetLe_trans targetLe_total hfound
          ((hrunning _).mpr ⟨other, hother, rfl, hgpu', hrun'⟩)
    · rintro (⟨inst', hmem', rfl, hgpu', hrun', hfirst⟩ | ⟨-, -, -, -, -, haway⟩)
      · have hle := preferred_le targetLe_trans targetLe_total hfound
          ((hrunning _).mpr ⟨inst', hmem', rfl, hgpu', hrun'⟩)
        exact congrArg some (targetLe_antisymm hle (hid ▸ hfirst inst hmem hgpu hrun))
      · exact absurd (haway inst hmem hgpu) (by simp [hrun])
  | none =>
    rw [Option.none_or]
    have haway : ∀ other ∈ listInstances host, other.target = .gpu → other.running = false := by
      intro other hother hgpu
      refine Bool.eq_false_iff.mpr fun hrun => ?_
      have hin := (hrunning _).mpr ⟨other, hother, rfl, hgpu, hrun⟩
      rw [preferred_eq_none_iff.mp hfound] at hin
      exact List.not_mem_nil hin
    constructor
    · intro h
      split_ifs at h with hany
      obtain ⟨inst, hmem, hid, hrun⟩ := (any_cpu_iff _).mp hany
      exact .cpu inst hmem (hid.trans (Option.some.inj h)) (Option.some.inj h).symm hrun haway
    · rintro (⟨inst, hmem, -, hgpu, hrun, -⟩ | ⟨inst, hmem, hid, rfl, hrun, -⟩)
      · exact absurd (haway inst hmem hgpu) (by simp [hrun])
      · exact if_pos ((any_cpu_iff _).mpr ⟨inst, hmem, hid, hrun⟩)

/-- A pin is only ever decided on an instance that serves. -/
lemma decideTarget_serves {requested : String} (hauto : requested ≠ "auto")
    (h : (decideTarget (instancesById (listInstances host)) requested).1 = some target) :
    ∃ inst ∈ listInstances host, inst.id = target ∧ inst.serves = true := by
  unfold decideTarget at h
  rw [if_neg hauto] at h
  cases hpinned : OrderedDict.get? (instancesById (listInstances host)) requested with
  | none =>
    simp only [hpinned] at h
    cases h
  | some pinned =>
    simp only [hpinned] at h
    split_ifs at h with hserves hcpu
    · obtain rfl : requested = target := Option.some.inj h
      obtain ⟨hmem, hid⟩ := get?_listed.mp hpinned
      exact ⟨pinned, hmem, hid, hserves⟩
    · obtain rfl : "cpu" = target := Option.some.inj h
      rw [Bool.and_eq_true] at hcpu
      exact (any_cpu_iff _).mp hcpu.2

/-- What an automatic choice falls back on is an instance of the list. -/
lemma FirstRunning.mem (h : FirstRunning (listInstances host) target) :
    ∃ inst ∈ listInstances host, inst.id = target := by
  rcases h with ⟨inst, hmem, hid, -, -, -⟩ | ⟨inst, hmem, hid, -, -, -⟩
  · exact ⟨inst, hmem, hid⟩
  · exact ⟨inst, hmem, hid⟩

end Choice

/-- Every target with an endpoint is the manager's exactly when no role is left to an automatic
choice, or something serves, or the container that the choice falls back on is the manager's. -/
theorem routesToOwn_iff (host : ComputeHost) (stored layerRouting : LayerRouting) :
    RoutesToOwn host stored layerRouting ↔
      (∀ role ∈ roles, requestedTarget (routingInForce stored layerRouting) role ≠ "auto") ∨
        (∃ inst ∈ listInstances host, inst.serves = true) ∨
          ∀ target, FirstRunning (listInstances host) target → Owned host target := by
  constructor
  · intro h
    by_contra hnot
    push Not at hnot
    obtain ⟨⟨role, hrole, hauto⟩, hserves, target, hfirst, hforeign⟩ := hnot
    refine hforeign ?_
    have hnone : ∀ inst ∈ listInstances host, inst.serves = false := fun inst hinst =>
      Bool.eq_false_iff.mpr (hserves inst hinst)
    have htarget : (resolveRole (instancesById (listInstances host))
        (routingInForce stored layerRouting) role).effectiveTarget = some target := by
      rw [resolveRole_effectiveTarget, hauto, decideTarget, if_pos rfl]
      exact (chooseAutoTarget_eq_some_iff hnone).mpr hfirst
    obtain ⟨inst, hmem, hid⟩ := hfirst.mem
    refine h.resolved role hrole _ (get?_resolveLayerRouting hrole) target inst.endpoint htarget ?_
    have hne : target ≠ "" := hid ▸ id_ne_empty hmem
    rw [resolveRole_effectiveEndpoint, htarget, effMeta, Option.bind_some, if_neg hne,
      get?_listed.mpr ⟨hmem, hid⟩, Option.map_some]
  · intro h
    constructor
    · intro role hrole eff heff target endpoint htarget _
      rw [get?_resolveLayerRouting hrole, Option.some.injEq] at heff
      subst heff
      rw [resolveRole_effectiveTarget] at htarget
      by_cases hauto : requestedTarget (routingInForce stored layerRouting) role = "auto"
      · rw [hauto, decideTarget, if_pos rfl] at htarget
        rcases h with hpinned | hserves | hfirst
        · exact absurd hauto (hpinned role hrole)
        · obtain ⟨inst, hmem, rfl, hinst⟩ := chooseAutoTarget_serves hserves htarget
          exact owned_of_serves hmem hinst
        · by_cases hserves : ∃ inst ∈ listInstances host, inst.serves = true
          · obtain ⟨inst, hmem, rfl, hinst⟩ := chooseAutoTarget_serves hserves htarget
            exact owned_of_serves hmem hinst
          · push Not at hserves
            exact hfirst target ((chooseAutoTarget_eq_some_iff fun inst hinst =>
              Bool.eq_false_iff.mpr (hserves inst hinst)).mp htarget)
      · obtain ⟨inst, hmem, rfl, hinst⟩ := decideTarget_serves hauto htarget
        exact owned_of_serves hmem hinst
    · intro snapshot hinstances requested effective found hfound
      obtain ⟨inst, hmem, hserves, hid, -⟩ := recover_serves hfound
      rw [hinstances] at hmem
      rw [← hid, strip_id_of_mem hmem]
      exact owned_of_serves hmem hserves

/-- A host on which somebody else runs a container under the name of an instance. -/
def foreignHost : ComputeHost where
  getenv _ := none
  lower s := s
  isDigit := Char.isDigit
  nvidiaRuntime := true
  amdRuntime := false
  container name :=
    if name = "trion-ollama-gpu0" then some ⟨"77ab", [], "running", []⟩ else none
  now := 0
  cachedHealth _ := none
  probe _ := .ok 200
  gpuName _ _ := none
  hostGpuName _ := none
  isSpace_of_isDigit _ := isSpace_of_isDigit

/-- The foreign container is what a role without a pin is sent to. -/
theorem not_routesToOwn_foreign : ¬RoutesToOwn foreignHost [] [("thinking", "auto")] := by
  intro h
  obtain ⟨template, container, htemplate, hcontainer, hlabels, -⟩ :=
    h.resolved "thinking" (by decide) _ (get?_resolveLayerRouting (by decide)) "gpu0"
      "http://trion-ollama-gpu0:11434" (by decide +kernel) (by decide +kernel)
  have hname : template.containerName = "trion-ollama-gpu0" := by
    have hnames : (OrderedDict.get? foreignHost.buildTemplates "gpu0").map
        InstanceTemplate.containerName = some "trion-ollama-gpu0" := by
      decide +kernel
    rw [htemplate] at hnames
    exact Option.some.inj hnames
  rw [hname] at hcontainer
  obtain rfl : (⟨"77ab", [], "running", []⟩ : Container) = container :=
    Option.some.inj hcontainer
  exact absurd hlabels (by decide +kernel)

end Trion.Routing
