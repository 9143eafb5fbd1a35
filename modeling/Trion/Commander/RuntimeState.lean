import Trion.Library.OperationRun
import Trion.Library.OrderedDict
import Trion.Python.Value

/-!
# The state of deployments

`commander_deploy_runtime_state.py` keeps the running containers and three counters of what is
reserved for containers that are being started.  `start_container` reserves with a copy of the
counters, which it takes with `build_refs` and writes back with `apply_refs`; the lock that
`reserve_quota`, `commit_quota_reservation` and `release_quota_reservation` hold protects the
copy.  The running containers and the quota are shared.

Memory and CPU are counted in floats.  How these are rounded is a parameter.
-/

namespace Trion.Commander

open Trion.Python OrderedDict OperationRun

/-! ### Floats -/

/-- `a > b`. -/
def gtFloat : PyFloat → PyFloat → Bool
  | .finite a, .finite b => decide (b < a)
  | .finite _, .negInf => true
  | .inf, .finite _ => true
  | .inf, .negInf => true
  | _, _ => false

/-- `max(0.0, x)`. -/
def maxZero (x : PyFloat) : PyFloat := if gtFloat x (.finite 0) then x else .finite 0

/-- The operations on floats and the texts they are read from and written as. -/
structure FloatRuntime where
  /-- `float(text)`, or the exception it raises. -/
  parseFloat : String → Except String PyFloat
  /-- `int(text)`, or the exception it raises. -/
  parseInt : String → Except String ℤ
  /-- `int(x)`, or the exception it raises. -/
  truncate : PyFloat → Except String ℤ
  /-- `n / m` for integers, or the exception it raises. -/
  divide : ℤ → ℤ → Except String PyFloat
  add : PyFloat → PyFloat → PyFloat
  sub : PyFloat → PyFloat → PyFloat
  mul : PyFloat → PyFloat → PyFloat
  /-- `sum` of floats. -/
  sum : List PyFloat → PyFloat
  /-- `str(x)`. -/
  text : PyFloat → String

/-! ### The data -/

/-- The fields of `ResourceLimits` that are counted. -/
structure ResourceLimits where
  cpuLimit : String := "1.0"
  memoryLimit : String := "512m"

/-- The fields of `ContainerInstance` that are counted. -/
structure ContainerInstance where
  containerId : String
  memoryLimitMb : PyFloat
  cpuLimitAlloc : PyFloat

/-- `SessionQuota`. -/
structure SessionQuota where
  maxContainers : ℤ := 2
  maxTotalMemoryMb : ℤ := 2048
  maxTotalCpu : PyFloat := .finite 2
  containersUsed : ℕ := 0
  memoryUsedMb : PyFloat := .finite 0
  cpuUsed : PyFloat := .finite 0

/-- The counters of what is reserved. -/
structure PendingCounters where
  pendingStarts : ℤ := 0
  pendingMemoryMb : PyFloat := .finite 0
  pendingCpu : PyFloat := .finite 0

/-- How the start of a container ends: it runs, or an exception is raised. -/
inductive StartEnd where
  | commit (containerId : String)
  | release

/-- Where a deployment is in `start_container`, with its copy of the counters. -/
inductive Deployment where
  /-- At the first `build_refs`. -/
  | requested (resources : ResourceLimits)
  /-- At `reserve_quota`. -/
  | built (resources : ResourceLimits) (copy : PendingCounters)
  /-- At the first `apply_refs`. -/
  | reserved (memMb cpu : PyFloat) (copy : PendingCounters)
  /-- The container is being started. -/
  | starting (memMb cpu : PyFloat)
  /-- At `commit_quota_reservation` or `release_quota_reservation`. -/
  | ending (how : StartEnd) (memMb cpu : PyFloat) (copy : PendingCounters)
  /-- At the second `apply_refs`. -/
  | ended (memMb cpu : PyFloat) (copy : PendingCounters)
  | done

/-- The running containers, the quota, the counters and the deployments. -/
structure RuntimeState where
  active : List (String × ContainerInstance) := []
  quota : SessionQuota := {}
  pending : PendingCounters := {}
  deployments : List Deployment := []

/-! ### The functions -/

/-- `s[:-1]`. -/
def dropLastChar (s : String) : String := String.ofList s.toList.dropLast

/-- `parse_memory`. -/
def parseMemory (rt : PyRuntime) (fl : FloatRuntime) (memStr : String) : Except String ℤ :=
  let s := rt.lower (strip memStr)
  let kilo : PyFloat := .finite 1024
  match s.toList.getLast? with
  | some 'g' => do
    fl.truncate (fl.mul (fl.mul (fl.mul (← fl.parseFloat (dropLastChar s)) kilo) kilo) kilo)
  | some 'm' => do fl.truncate (fl.mul (fl.mul (← fl.parseFloat (dropLastChar s)) kilo) kilo)
  | some 'k' => do fl.truncate (fl.mul (← fl.parseFloat (dropLastChar s)) kilo)
  | _ => fl.parseInt s

/-- What `reserve_quota` reserves for the resources. -/
def requestedAmounts (rt : PyRuntime) (fl : FloatRuntime) (resources : ResourceLimits) :
    Except String (PyFloat × PyFloat) := do
  let memMb ← fl.divide (← parseMemory rt fl resources.memoryLimit) (1024 * 1024)
  let cpu ← fl.parseFloat resources.cpuLimit
  return (memMb, cpu)

/-- `update_quota_used_unlocked`. -/
def updateQuotaUsed (fl : FloatRuntime) (s : RuntimeState) : RuntimeState :=
  { s with
    quota := { s.quota with
      containersUsed := s.active.length
      memoryUsedMb := fl.sum (s.active.map fun item => item.2.memoryLimitMb)
      cpuUsed := fl.sum (s.active.map fun item => item.2.cpuLimitAlloc) } }

/-- What is in use and reserved with the requested amount. -/
def totalWith (fl : FloatRuntime) (used pending amount : PyFloat) : PyFloat :=
  fl.add (fl.add used pending) amount

/-- `reserve_quota`: what is reserved, and the counters with it. -/
def reserveQuota (rt : PyRuntime) (fl : FloatRuntime) (s : RuntimeState)
    (resources : ResourceLimits) (copy : PendingCounters) :
    Except String ((PyFloat × PyFloat) × PendingCounters) := do
  let (memMb, cpu) ← requestedAmounts rt fl resources
  let containersTotal := (s.active.length : ℤ) + copy.pendingStarts
  if containersTotal ≥ s.quota.maxContainers then
    throw s!"Container quota exceeded: {containersTotal}/{s.quota.maxContainers} running_or_pending"
  let memTotal := totalWith fl s.quota.memoryUsedMb copy.pendingMemoryMb memMb
  if gtFloat memTotal (.finite s.quota.maxTotalMemoryMb) then
    let whole ← fl.truncate memTotal
    throw s!"Memory quota exceeded: {whole} > {s.quota.maxTotalMemoryMb} MB"
  let cpuTotal := totalWith fl s.quota.cpuUsed copy.pendingCpu cpu
  if gtFloat cpuTotal s.quota.maxTotalCpu then
    throw s!"CPU quota exceeded: {fl.text cpuTotal} > {fl.text s.quota.maxTotalCpu}"
  return ((memMb, cpu),
    { pendingStarts := copy.pendingStarts + 1
      pendingMemoryMb := fl.add copy.pendingMemoryMb memMb
      pendingCpu := fl.add copy.pendingCpu cpu })

/-- The counters without a reservation. -/
def PendingCounters.without (fl : FloatRuntime) (copy : PendingCounters) (memMb cpu : PyFloat) :
    PendingCounters where
  pendingStarts := max 0 (copy.pendingStarts - 1)
  pendingMemoryMb := maxZero (fl.sub copy.pendingMemoryMb memMb)
  pendingCpu := maxZero (fl.sub copy.pendingCpu cpu)

/-- `release_quota_reservation`. -/
def releaseQuotaReservation (fl : FloatRuntime) (memMb cpu : PyFloat) (copy : PendingCounters) :
    PendingCounters := copy.without fl memMb cpu

/-- `commit_quota_reservation`. -/
def commitQuotaReservation (fl : FloatRuntime) (s : RuntimeState) (inst : ContainerInstance)
    (memMb cpu : PyFloat) (copy : PendingCounters) : RuntimeState × PendingCounters :=
  (updateQuotaUsed fl { s with active := insert s.active inst.containerId inst },
    copy.without fl memMb cpu)

/-! ### Deployments -/

/-- An operation: `start_container` is called and gets as far as its first `build_refs`, or a
deployment goes on; `how` is how the start of its container ends, where this is what comes next.
-/
inductive DeployOp where
  | deploy (resources : ResourceLimits)
  | advance (deployment : ℕ) (how : StartEnd)

/-- The deployment goes on to another step. -/
def RuntimeState.setDeployment (s : RuntimeState) (i : ℕ) (deployment : Deployment) :
    RuntimeState := { s with deployments := s.deployments.set i deployment }

/-- A deployment goes on; the answer is the exception it ends with.  The instance of a container
that runs has the memory and the CPU that were reserved for it: they are read from the same
`ResourceLimits`. -/
def RuntimeState.advance (rt : PyRuntime) (fl : FloatRuntime) (s : RuntimeState) (i : ℕ)
    (how : StartEnd) : RuntimeState × Option String :=
  match s.deployments[i]? with
  | some (.requested resources) => (s.setDeployment i (.built resources s.pending), none)
  | some (.built resources copy) =>
    match reserveQuota rt fl s resources copy with
    | .error text => (s.setDeployment i .done, some text)
    | .ok ((memMb, cpu), copy') => (s.setDeployment i (.reserved memMb cpu copy'), none)
  | some (.reserved memMb cpu copy) =>
    ({ s with pending := copy }.setDeployment i (.starting memMb cpu), none)
  | some (.starting memMb cpu) => (s.setDeployment i (.ending how memMb cpu s.pending), none)
  | some (.ending (.commit containerId) memMb cpu copy) =>
    let (s', copy') := commitQuotaReservation fl s ⟨containerId, memMb, cpu⟩ memMb cpu copy
    (s'.setDeployment i (.ended memMb cpu copy'), none)
  | some (.ending .release memMb cpu copy) =>
    (s.setDeployment i (.ended memMb cpu (releaseQuotaReservation fl memMb cpu copy)), none)
  | some (.ended _ _ copy) => ({ s with pending := copy }.setDeployment i .done, none)
  | _ => (s, none)

/-- Deployments, in any order of their steps. -/
def deployments (rt : PyRuntime) (fl : FloatRuntime) :
    System RuntimeState DeployOp (Option String) := fun s op =>
  match op with
  | .deploy resources =>
    ({ s with deployments := s.deployments ++ [.requested resources] }, none)
  | .advance i how => s.advance rt fl i how

end Trion.Commander
