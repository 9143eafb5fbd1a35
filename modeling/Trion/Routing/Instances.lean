import Trion.Library.OrderedDict
import Trion.Python.SameJson

/-!
# The managed instances

`utils/routing/ollama_manager.py`: the instance templates that the environment gives, what the
host says of the container of a template, and the list of instances that routing goes by.
-/

namespace Trion.Routing

open Python

/-- What a template is for. -/
inductive Target where
  | cpu
  | gpu
deriving DecidableEq, Repr

structure InstanceTemplate where
  instanceId : String
  target : Target
  containerName : String
  endpoint : String
  image : String
  network : String
  modelVolume : String
  gpuDeviceId : Option String
  gpuBackend : Option String
deriving Repr

/-- What the Docker client says of a container. -/
structure Container where
  id : String
  labels : List (String × String)
  status : String
  networks : List String
deriving Repr

/-- The outcome of a health check. -/
structure Health where
  ok : Bool
  statusCode : Option ℤ
  error : Option String
  checkedAt : ℕ
deriving Repr

/-- The host as the manager sees it: the environment, the containers by name or id, and what its
endpoints and GPUs answer. -/
structure ComputeHost where
  getenv : String → Option String
  /-- `str.lower`. -/
  lower : String → String
  /-- The characters for which `str.isdigit` holds. -/
  isDigit : Char → Bool
  nvidiaRuntime : Bool
  amdRuntime : Bool
  /-- `client.containers.get`, `none` where it raises `NotFound`. -/
  container : String → Option Container
  now : ℕ
  cachedHealth : String → Option Health
  /-- The status of `GET /api/version` of an endpoint, or the text of the exception. -/
  probe : String → Except String ℤ
  gpuName : Container → InstanceTemplate → Option String
  hostGpuName : InstanceTemplate → Option String
  isSpace_of_isDigit : ∀ c, isDigit c = true → isSpace c = false

/-- `_LABEL_MANAGER`. -/
def labelManager : String := "trion.ollama.endpoint_manager"

/-- `_LABEL_INSTANCE`. -/
def labelInstance : String := "trion.ollama.instance_id"

namespace ComputeHost

variable (host : ComputeHost)

/-- `os.getenv(name, default).strip()`. -/
def setting (name default : String) : String := strip ((host.getenv name).getD default)

/-- `text.isdigit()`. -/
def isDigits (text : String) : Bool := text != "" && text.toList.all host.isDigit

/-- `_parse_gpu_device_ids`. -/
def parseGpuDeviceIds : List String :=
  if host.lower (host.setting "TRION_OLLAMA_ENABLE_GPU" "true") ∈ ["0", "false", "no", "off"] then
    []
  else
    let raw := host.setting "TRION_OLLAMA_GPU_IDS" "0,1,2"
    if raw = "" then []
    else
      let ids := ((splitOn ',' raw).map strip).filter (· != "")
      (ids.filter host.isDigits).eraseDups

/-- `_resolve_gpu_backend`. -/
def resolveGpuBackend : String :=
  let raw := host.lower (host.setting "TRION_OLLAMA_GPU_BACKEND" "auto")
  if raw ∈ ["nvidia", "amd"] then raw
  else if host.nvidiaRuntime then "nvidia"
  else if host.amdRuntime then "amd"
  else "nvidia"

/-- `_detect_network`. -/
def detectNetwork : String :=
  let forced := host.setting "TRION_COMPUTE_NETWORK" ""
  if forced ≠ "" then forced
  else
    let thisContainerId := host.setting "HOSTNAME" ""
    let networks :=
      if thisContainerId = "" then [] else
        match host.container thisContainerId with
        | some container => container.networks
        | none => []
    networks.head?.getD "big-bear-lobe-chat_default"

/-- The name that container names begin with. -/
def instancePrefix : String :=
  orElse (host.setting "TRION_OLLAMA_INSTANCE_PREFIX" "trion-ollama") "trion-ollama"

/-- The template `cpu`. -/
def cpuTemplate : InstanceTemplate where
  instanceId := "cpu"
  target := .cpu
  containerName := host.instancePrefix ++ "-cpu"
  endpoint := "http://" ++ host.instancePrefix ++ "-cpu:11434"
  image := orElse (host.setting "TRION_OLLAMA_IMAGE" "ollama/ollama:latest") "ollama/ollama:latest"
  network := host.detectNetwork
  modelVolume :=
    orElse (host.setting "TRION_OLLAMA_MODELS_VOLUME" "trion-ollama-models") "trion-ollama-models"
  gpuDeviceId := none
  gpuBackend := none

/-- The template of a GPU. -/
def gpuTemplate (gpuId : String) : InstanceTemplate where
  instanceId := "gpu" ++ gpuId
  target := .gpu
  containerName := host.instancePrefix ++ "-" ++ ("gpu" ++ gpuId)
  endpoint := "http://" ++ (host.instancePrefix ++ "-" ++ ("gpu" ++ gpuId)) ++ ":11434"
  image := host.cpuTemplate.image
  network := host.cpuTemplate.network
  modelVolume := host.cpuTemplate.modelVolume
  gpuDeviceId := some gpuId
  gpuBackend := some host.resolveGpuBackend

/-- `_build_templates`. -/
def buildTemplates : List (String × InstanceTemplate) :=
  OrderedDict.insertAll ("gpu" ++ ·) host.gpuTemplate [("cpu", host.cpuTemplate)]
    host.parseGpuDeviceIds

/-- `_check_endpoint_health`. -/
def checkEndpointHealth (endpoint : String) : Health :=
  match host.cachedHealth endpoint with
  | some health => health
  | none =>
    match host.probe endpoint with
    | .ok code =>
      ⟨code < 500, some code, if code < 500 then none else some ("http_" ++ toString code),
        host.now⟩
    | .error text => ⟨false, none, some text, host.now⟩

end ComputeHost

/-- `_is_managed_instance_container`. -/
def isManagedInstanceContainer (container : Container) (expectedInstanceId : String) : Bool :=
  OrderedDict.get? container.labels labelManager == some "true" &&
    OrderedDict.get? container.labels labelInstance == some expectedInstanceId

/-- The states of an instance. -/
inductive InstanceStatus where
  | notCreated
  | foreign
  | running
  | stopped
deriving DecidableEq, Repr

/-- The entry of an instance in the list of `list_instances`. -/
structure Instance where
  id : String
  target : Target
  endpoint : String
  containerName : String
  containerId : Option String
  status : InstanceStatus
  existing : Bool
  managed : Bool
  running : Bool
  health : Health
  gpuName : Option String
  template : InstanceTemplate
deriving Repr

/-- `_describe_instance`. -/
def describeInstance (host : ComputeHost) (template : InstanceTemplate) : Instance :=
  let container := host.container template.containerName
  let running := container.any fun c => c.status == "running"
  let managed := container.any fun c => isManagedInstanceContainer c template.instanceId
  let gpuName :=
    if running && managed && template.target == .gpu then
      container.bind fun c => host.gpuName c template
    else none
  { id := template.instanceId
    target := template.target
    endpoint := template.endpoint
    containerName := template.containerName
    containerId := container.map Container.id
    status :=
      if container.isNone then .notCreated
      else if !managed then .foreign
      else if running then .running
      else .stopped
    existing := container.isSome
    managed := managed
    running := running
    health :=
      if running && managed then host.checkEndpointHealth template.endpoint
      else ⟨false, none, some "not_running", host.now⟩
    gpuName :=
      if template.target == .gpu && (gpuName.getD "" == "") then host.hostGpuName template
      else gpuName
    template := template }

/-- The instances of `list_instances`. -/
def listInstances (host : ComputeHost) : List Instance :=
  (sortByKey host.buildTemplates).map fun e => describeInstance host e.2

section Describe

variable {host : ComputeHost} {template : InstanceTemplate} {inst : Instance}

@[simp] lemma describeInstance_id : (describeInstance host template).id = template.instanceId := rfl

/-- An instance runs when its container does, whoever owns it. -/
lemma describeInstance_running : (describeInstance host template).running = true ↔
    ∃ c, host.container template.containerName = some c ∧ c.status = "running" := by
  simp [describeInstance, Option.any_eq_true]

lemma describeInstance_managed : (describeInstance host template).managed = true ↔
    ∃ c, host.container template.containerName = some c ∧
      isManagedInstanceContainer c template.instanceId = true := by
  simp [describeInstance, Option.any_eq_true]

/-- Only a container of the manager that runs is asked for its health. -/
lemma describeInstance_healthy (h : (describeInstance host template).health.ok = true) :
    (describeInstance host template).running = true ∧
      (describeInstance host template).managed = true := by
  by_cases hasked : ((describeInstance host template).running &&
      (describeInstance host template).managed) = true
  · simpa using hasked
  · have hnone : (describeInstance host template).health =
        ⟨false, none, some "not_running", host.now⟩ := if_neg hasked
    rw [hnone] at h
    exact nomatch h

end Describe

section Templates

variable {host : ComputeHost} {id : String} {template : InstanceTemplate} {inst : Instance}

lemma nodup_buildTemplates : (OrderedDict.keys host.buildTemplates).Nodup :=
  OrderedDict.nodup_keys_insertAll (List.nodup_singleton _)

/-- The template of an id is the one of the CPU or of a GPU of the environment. -/
lemma get?_buildTemplates (h : OrderedDict.get? host.buildTemplates id = some template) :
    (id = "cpu" ∧ template = host.cpuTemplate) ∨
      ∃ gpuId ∈ host.parseGpuDeviceIds, id = "gpu" ++ gpuId ∧ template = host.gpuTemplate gpuId := by
  rcases OrderedDict.get?_insertAll h with ⟨gpuId, hlast, hid, htemplate⟩ | ⟨-, hcpu⟩
  · exact .inr ⟨gpuId, OrderedDict.mem_of_mem_lastOfKey hlast, hid.symm, htemplate.symm⟩
  · rw [OrderedDict.get?_cons] at hcpu
    split at hcpu
    · rename_i hid
      exact .inl ⟨hid, (Option.some.inj hcpu).symm⟩
    · exact nomatch hcpu

lemma instanceId_of_get? (h : OrderedDict.get? host.buildTemplates id = some template) :
    template.instanceId = id := by
  obtain ⟨rfl, rfl⟩ | ⟨gpuId, -, rfl, rfl⟩ := get?_buildTemplates h
  · rfl
  · rfl

/-- The one instance that is not for a GPU is `cpu`. -/
lemma target_of_get? (h : OrderedDict.get? host.buildTemplates id = some template) :
    template.target = .gpu ∨ id = "cpu" ∧ template.target = .cpu := by
  obtain ⟨rfl, rfl⟩ | ⟨gpuId, -, rfl, rfl⟩ := get?_buildTemplates h
  · exact .inr ⟨rfl, rfl⟩
  · exact .inl rfl

/-- The list has the description of every template and nothing else. -/
lemma mem_listInstances : inst ∈ listInstances host ↔
    ∃ template, OrderedDict.get? host.buildTemplates inst.id = some template ∧
      inst = describeInstance host template := by
  unfold listInstances
  simp only [List.mem_map, (sortByKey_perm host.buildTemplates).mem_iff, Prod.exists]
  constructor
  · rintro ⟨id, template, hmem, rfl⟩
    have hget := OrderedDict.get?_of_mem nodup_buildTemplates hmem
    refine ⟨template, ?_, rfl⟩
    rw [describeInstance_id, instanceId_of_get? hget]
    exact hget
  · rintro ⟨template, hget, hinst⟩
    exact ⟨inst.id, template, OrderedDict.mem_of_get? hget, hinst.symm⟩

lemma isDigits_of_mem {gpuId : String} (h : gpuId ∈ host.parseGpuDeviceIds) :
    host.isDigits gpuId = true := by
  unfold ComputeHost.parseGpuDeviceIds at h
  split at h
  · exact absurd h List.not_mem_nil
  · dsimp only at h
    split at h
    · exact absurd h List.not_mem_nil
    · exact (List.mem_filter.mp (List.mem_eraseDups.mp h)).2

/-- The ids of the list have no blanks around them. -/
lemma strip_id_of_mem (h : inst ∈ listInstances host) : strip inst.id = inst.id := by
  obtain ⟨template, hget, -⟩ := mem_listInstances.mp h
  obtain ⟨hid, -⟩ | ⟨gpuId, hmem, hid, -⟩ := get?_buildTemplates hget
  · rw [hid]
    decide +kernel
  · rw [hid]
    have hdigits := isDigits_of_mem hmem
    unfold ComputeHost.isDigits at hdigits
    rw [Bool.and_eq_true, List.all_eq_true] at hdigits
    have hlist : ("gpu" ++ gpuId).toList = 'g' :: 'p' :: 'u' :: gpuId.toList := by
      rw [String.toList_append]
      rfl
    refine strip_eq_self (fun c hc => ?_) (fun c hc => ?_)
    · rw [hlist, List.head?_cons, Option.mem_some_iff] at hc
      exact hc ▸ by decide
    · rw [hlist] at hc
      have hlast := List.mem_of_mem_getLast? hc
      simp only [List.mem_cons] at hlast
      rcases hlast with rfl | rfl | rfl | hdigit
      · decide
      · decide
      · decide
      · exact host.isSpace_of_isDigit c (hdigits.2 c hdigit)

end Templates

end Trion.Routing
