import Mathlib.Algebra.BigOperators.Group.List.Basic
import Mathlib.Algebra.Order.BigOperators.Group.List
import Mathlib.Algebra.Order.Ring.Rat
import Mathlib.Tactic.Linarith
import Trion.Library.Slots
import Trion.Commander.RuntimeState

/-!
# The quota of containers

`build_refs` copies the counters and `apply_refs` writes the whole copy back, so what another
deployment wrote in between is lost.  Where no deployment takes a copy while another one has
one, where no amount is negative or no number, and where no sum is rounded, the containers that
run and those that are reserved stay within the quota, and the counters are the sums over the
reservations.
-/

namespace Trion.Commander

open Trion.Python OrderedDict OperationRun System Slots

variable {rt : PyRuntime} {fl : FloatRuntime} {s : RuntimeState}

/-! ### Amounts -/

/-- What is counted besides the containers. -/
inductive Resource where
  | memory
  | cpu

instance (p : Resource → Prop) [DecidablePred p] : Decidable (∀ r, p r) :=
  decidable_of_iff (p .memory ∧ p .cpu)
    ⟨fun h r => Resource.casesOn r h.1 h.2, fun h => ⟨h .memory, h .cpu⟩⟩

/-- The amount of one of memory and CPU. -/
def Resource.of : Resource → PyFloat × PyFloat → PyFloat
  | .memory, amounts => amounts.1
  | .cpu, amounts => amounts.2

/-- The value of a float that is a number. -/
def value : PyFloat → ℚ
  | .finite q => q
  | _ => 0

/-- The float is a number that is not negative. -/
def isAmount : PyFloat → Bool
  | .finite q => decide (0 ≤ q)
  | _ => false

/-- The exact sum of floats that are numbers. -/
def exactSum (xs : List PyFloat) : Option ℚ :=
  if xs.all isAmount then some (xs.map value).sum else none

lemma value_nonneg {x : PyFloat} (h : isAmount x = true) : 0 ≤ value x := by
  cases x <;> simp_all [isAmount, value]

/-- How much of the resource the reservations or containers take. -/
def load (r : Resource) (amounts : List (PyFloat × PyFloat)) : ℚ :=
  (amounts.map fun a => value (r.of a)).sum

/-- All of the amounts are numbers that are not negative. -/
def AllAmounts (amounts : List (PyFloat × PyFloat)) : Prop :=
  ∀ a ∈ amounts, ∀ r : Resource, isAmount (r.of a) = true

instance (amounts : List (PyFloat × PyFloat)) : Decidable (AllAmounts amounts) :=
  inferInstanceAs (Decidable (∀ a ∈ amounts, ∀ r : Resource, isAmount (r.of a) = true))

section Load

variable {r : Resource} {xs ys : List (PyFloat × PyFloat)} {a : PyFloat × PyFloat}

@[simp] lemma load_nil : load r [] = 0 := rfl

@[simp] lemma load_append : load r (xs ++ ys) = load r xs + load r ys := by
  simp [load]

@[simp] lemma load_singleton : load r [a] = value (r.of a) := by
  simp [load]

lemma load_perm (h : xs.Perm ys) : load r xs = load r ys := (h.map _).sum_eq

lemma load_le_of_sublist (h : xs.Sublist ys) (hys : AllAmounts ys) : load r xs ≤ load r ys := by
  refine List.Sublist.sum_le_sum (h.map _) fun x hx => ?_
  obtain ⟨a, ha, rfl⟩ := List.mem_map.mp hx
  exact value_nonneg (hys a ha r)

lemma exactSum_eq (h : AllAmounts xs) : exactSum (xs.map r.of) = some (load r xs) := by
  unfold exactSum
  rw [if_pos]
  · simp [load, Function.comp_def]
  · refine List.all_eq_true.mpr fun x hx => ?_
    obtain ⟨a, ha, rfl⟩ := List.mem_map.mp hx
    exact h a ha r

end Load

/-! ### What is in use and what is reserved -/

/-- The amounts of a container. -/
def ContainerInstance.amounts (inst : ContainerInstance) : PyFloat × PyFloat :=
  (inst.memoryLimitMb, inst.cpuLimitAlloc)

/-- The counters of memory and CPU. -/
def PendingCounters.amounts (pending : PendingCounters) : PyFloat × PyFloat :=
  (pending.pendingMemoryMb, pending.pendingCpu)

/-- The limits of memory and CPU. -/
def SessionQuota.limits (quota : SessionQuota) : PyFloat × PyFloat :=
  (.finite quota.maxTotalMemoryMb, quota.maxTotalCpu)

/-- The memory and the CPU in use. -/
def SessionQuota.used (quota : SessionQuota) : PyFloat × PyFloat :=
  (quota.memoryUsedMb, quota.cpuUsed)

/-- The reservation the deployment holds: from `reserve_quota` on, until it is committed or
released. -/
def Deployment.holds : Deployment → List (PyFloat × PyFloat)
  | .reserved memMb cpu _ => [(memMb, cpu)]
  | .starting memMb cpu => [(memMb, cpu)]
  | .ending _ memMb cpu _ => [(memMb, cpu)]
  | _ => []

/-- The reservation of the deployment the counters tell of: from the first `apply_refs` to the
second. -/
def Deployment.recorded : Deployment → List (PyFloat × PyFloat)
  | .starting memMb cpu => [(memMb, cpu)]
  | .ending _ memMb cpu _ => [(memMb, cpu)]
  | .ended memMb cpu _ => [(memMb, cpu)]
  | _ => []

/-- The deployment has a copy of the counters. -/
def Deployment.hasCopy : Deployment → Bool
  | .built .. => true
  | .reserved .. => true
  | .ending .. => true
  | .ended .. => true
  | _ => false

/-- The next step of the deployment is a `build_refs`. -/
def Deployment.takesCopy : Deployment → Bool
  | .requested _ => true
  | .starting .. => true
  | _ => false

/-- The deployment has ended. -/
def Deployment.isDone : Deployment → Bool
  | .done => true
  | _ => false

namespace RuntimeState

/-- The amounts of the containers that run. -/
def inUse (s : RuntimeState) : List (PyFloat × PyFloat) := s.active.map fun item => item.2.amounts

/-- The reservations. -/
def held (s : RuntimeState) : List (PyFloat × PyFloat) := s.deployments.flatMap Deployment.holds

/-- The reservations the counters tell of. -/
def recorded (s : RuntimeState) : List (PyFloat × PyFloat) :=
  s.deployments.flatMap Deployment.recorded

end RuntimeState

/-- The containers that run and those that are reserved are within the quota, the counters are
the sums over the reservations, and they are zero where no deployment is in progress. -/
structure QuotaKept (s : RuntimeState) : Prop where
  containers : (s.active.length + s.held.length : ℤ) ≤ s.quota.maxContainers
  amounts : ∀ r : Resource, ∃ total, exactSum ((s.inUse ++ s.held).map r.of) = some total ∧
    gtFloat (.finite total) (r.of s.quota.limits) = false
  pendingStarts : s.pending.pendingStarts = s.recorded.length
  pending : ∀ r : Resource, ∃ total, exactSum (s.recorded.map r.of) = some total ∧
    r.of s.pending.amounts = .finite total
  idle : (∀ deployment ∈ s.deployments, deployment.isDone = true) → s.pending = {}

/-! ### The condition -/

/-- The deployment that goes on. -/
def DeployOp.advanced? : DeployOp → Option ℕ
  | .advance i _ => some i
  | .deploy _ => none

/-- The resources that are asked for. -/
def DeployOp.requested? : DeployOp → Option ResourceLimits
  | .deploy resources => some resources
  | .advance .. => none

/-- The container that runs at the end of the start. -/
def StartEnd.containerId? : StartEnd → Option String
  | .commit containerId => some containerId
  | .release => none

/-- A deployment takes a copy of the counters only while no other one has one. -/
def OneCopy (s : RuntimeState) (op : DeployOp) : Prop :=
  ∀ i ∈ op.advanced?, ∀ deployment ∈ s.deployments[i]?, deployment.takesCopy = true →
    ∀ other ∈ s.deployments, other.hasCopy = false

/-- The memory and the CPU that are asked for are numbers that are not negative. -/
def SoundRequest (rt : PyRuntime) (fl : FloatRuntime) (op : DeployOp) : Prop :=
  ∀ resources ∈ op.requested?, ∀ amounts ∈ (requestedAmounts rt fl resources).toOption,
    AllAmounts [amounts]

/-- Reserving the amount rounds nothing. -/
def ExactReserve (fl : FloatRuntime) (used pending amount : PyFloat) : Prop :=
  totalWith fl used pending amount = .finite (value used + value pending + value amount) ∧
    fl.add pending amount = .finite (value pending + value amount)

/-- Taking the amount off rounds nothing. -/
def ExactRelease (fl : FloatRuntime) (pending amount : PyFloat) : Prop :=
  fl.sub pending amount = .finite (value pending - value amount)

/-- What is in use is added up exactly. -/
def ExactUsed (s : RuntimeState) : Prop :=
  ∀ r : Resource, r.of s.quota.used = .finite (load r s.inUse)

/-- The next step of the deployment rounds nothing. -/
def ExactStepOf (rt : PyRuntime) (fl : FloatRuntime) (s : RuntimeState) : Deployment → Prop
  | .built resources copy => ∀ amounts ∈ (requestedAmounts rt fl resources).toOption,
      ∀ r : Resource, ExactReserve fl (r.of s.quota.used) (r.of copy.amounts) (r.of amounts)
  | .ending how memMb cpu copy =>
      (∀ r : Resource, ExactRelease fl (r.of copy.amounts) (r.of (memMb, cpu))) ∧
        ∀ containerId ∈ how.containerId?,
          ExactUsed (commitQuotaReservation fl s ⟨containerId, memMb, cpu⟩ memMb cpu copy).1
  | _ => True

/-- The step rounds nothing. -/
def ExactStep (rt : PyRuntime) (fl : FloatRuntime) (s : RuntimeState) (op : DeployOp) : Prop :=
  ∀ i ∈ op.advanced?, ∀ deployment ∈ s.deployments[i]?, ExactStepOf rt fl s deployment

instance (s : RuntimeState) : DecidablePred (OneCopy s) := fun op =>
  inferInstanceAs (Decidable (∀ i ∈ op.advanced?, ∀ deployment ∈ s.deployments[i]?, _ → _))

instance (rt : PyRuntime) (fl : FloatRuntime) : DecidablePred (SoundRequest rt fl) := fun op =>
  inferInstanceAs (Decidable (∀ resources ∈ op.requested?,
    ∀ amounts ∈ (requestedAmounts rt fl resources).toOption, AllAmounts [amounts]))

instance (fl : FloatRuntime) (used pending amount : PyFloat) :
    Decidable (ExactReserve fl used pending amount) := inferInstanceAs (Decidable (_ ∧ _))

instance (fl : FloatRuntime) (pending amount : PyFloat) :
    Decidable (ExactRelease fl pending amount) := inferInstanceAs (Decidable (_ = _))

instance (s : RuntimeState) : Decidable (ExactUsed s) :=
  inferInstanceAs (Decidable (∀ r : Resource, r.of s.quota.used = .finite (load r s.inUse)))

instance (rt : PyRuntime) (fl : FloatRuntime) (s : RuntimeState) :
    DecidablePred (ExactStepOf rt fl s)
  | .built resources copy => inferInstanceAs (Decidable
      (∀ amounts ∈ (requestedAmounts rt fl resources).toOption, ∀ r : Resource,
        ExactReserve fl (r.of s.quota.used) (r.of copy.amounts) (r.of amounts)))
  | .ending how memMb cpu copy => inferInstanceAs (Decidable
      ((∀ r : Resource, ExactRelease fl (r.of copy.amounts) (r.of (memMb, cpu))) ∧
        ∀ containerId ∈ how.containerId?,
          ExactUsed (commitQuotaReservation fl s ⟨containerId, memMb, cpu⟩ memMb cpu copy).1))
  | .requested _ => isTrue trivial
  | .reserved .. => isTrue trivial
  | .starting .. => isTrue trivial
  | .ended .. => isTrue trivial
  | .done => isTrue trivial

instance (rt : PyRuntime) (fl : FloatRuntime) (s : RuntimeState) :
    DecidablePred (ExactStep rt fl s) := fun op =>
  inferInstanceAs (Decidable (∀ i ∈ op.advanced?, ∀ deployment ∈ s.deployments[i]?,
    ExactStepOf rt fl s deployment))

/-- A state in which no deployment has begun, the counters are zero and what is in use is known
and within the quota. -/
structure Ready (s : RuntimeState) : Prop where
  deployments : s.deployments = []
  pending : s.pending = {}
  keys : (keys s.active).Nodup
  inUse : AllAmounts s.inUse
  used : ∀ r : Resource, r.of s.quota.used = .finite (load r s.inUse)
  containers : (s.active.length : ℤ) ≤ s.quota.maxContainers
  amounts : ∀ r : Resource, gtFloat (.finite (load r s.inUse)) (r.of s.quota.limits) = false

/-! ### The invariant -/

/-- What is known where the deployment is: its amounts, and how its copy differs from the
counters. -/
def Deployment.Sound (rt : PyRuntime) (fl : FloatRuntime) (pending : PendingCounters) :
    Deployment → Prop
  | .requested resources => ∀ amounts ∈ (requestedAmounts rt fl resources).toOption,
      AllAmounts [amounts]
  | .built resources copy => copy = pending ∧
      ∀ amounts ∈ (requestedAmounts rt fl resources).toOption, AllAmounts [amounts]
  | .reserved memMb cpu copy => AllAmounts [(memMb, cpu)] ∧
      copy.pendingStarts = pending.pendingStarts + 1 ∧
      ∀ r : Resource, r.of copy.amounts =
        .finite (value (r.of pending.amounts) + value (r.of (memMb, cpu)))
  | .starting memMb cpu => AllAmounts [(memMb, cpu)]
  | .ending _ memMb cpu copy => copy = pending ∧ AllAmounts [(memMb, cpu)]
  | .ended memMb cpu copy => AllAmounts [(memMb, cpu)] ∧
      copy.pendingStarts = pending.pendingStarts - 1 ∧
      ∀ r : Resource, r.of copy.amounts =
        .finite (value (r.of pending.amounts) - value (r.of (memMb, cpu)))
  | .done => True

/-- One deployment at most has a copy of the counters, the counters are the sums over the
reservations they tell of, and everything is within the quota. -/
structure Kept (rt : PyRuntime) (fl : FloatRuntime) (s : RuntimeState) : Prop where
  oneCopy : s.deployments.countP Deployment.hasCopy ≤ 1
  sound : ∀ deployment ∈ s.deployments, deployment.Sound rt fl s.pending
  keys : (keys s.active).Nodup
  inUse : AllAmounts s.inUse
  used : ∀ r : Resource, r.of s.quota.used = .finite (load r s.inUse)
  containers : (s.active.length + s.held.length : ℤ) ≤ s.quota.maxContainers
  amounts : ∀ r : Resource,
    gtFloat (.finite (load r s.inUse + load r s.held)) (r.of s.quota.limits) = false
  pendingStarts : s.pending.pendingStarts = s.recorded.length
  pending : ∀ r : Resource, r.of s.pending.amounts = .finite (load r s.recorded)

lemma kept_of_ready (h : Ready s) : Kept rt fl s := by
  have hheld : s.held = [] := by
    unfold RuntimeState.held
    rw [h.deployments, List.flatMap_nil]
  have hrecorded : s.recorded = [] := by
    unfold RuntimeState.recorded
    rw [h.deployments, List.flatMap_nil]
  constructor
  case oneCopy =>
    rw [h.deployments]
    exact Nat.zero_le 1
  case sound =>
    rw [h.deployments]
    simp
  case keys => exact h.keys
  case inUse => exact h.inUse
  case used => exact h.used
  case containers =>
    rw [hheld]
    simpa using h.containers
  case amounts =>
    rw [hheld]
    simpa using h.amounts
  case pendingStarts =>
    rw [hrecorded, h.pending]
    rfl
  case pending =>
    rw [hrecorded, h.pending]
    rintro (_ | _) <;> rfl

lemma Deployment.Sound.amounts {pending : PendingCounters} {deployment : Deployment}
    (h : deployment.Sound rt fl pending) :
    AllAmounts deployment.holds ∧ AllAmounts deployment.recorded := by
  have hnone : AllAmounts [] := fun a ha => absurd ha List.not_mem_nil
  cases deployment with
  | requested resources => exact ⟨hnone, hnone⟩
  | built resources copy => exact ⟨hnone, hnone⟩
  | reserved memMb cpu copy => exact ⟨h.1, hnone⟩
  | starting memMb cpu => exact ⟨h, h⟩
  | ending how memMb cpu copy => exact ⟨h.2, h.2⟩
  | ended memMb cpu copy => exact ⟨hnone, h.1⟩
  | done => exact ⟨hnone, hnone⟩

/-- Without a copy the counters are nothing the deployment knows about. -/
lemma Deployment.Sound.of_no_copy {pending pending' : PendingCounters} {deployment : Deployment}
    (h : deployment.Sound rt fl pending) (hcopy : deployment.hasCopy = false) :
    deployment.Sound rt fl pending' := by
  cases deployment with
  | requested resources => exact h
  | starting memMb cpu => exact h
  | done => trivial
  | _ => simp [Deployment.hasCopy] at hcopy

lemma Kept.held_amounts (h : Kept rt fl s) : AllAmounts s.held := by
  intro a ha
  obtain ⟨deployment, hmem, hholds⟩ := List.mem_flatMap.mp ha
  exact (h.sound deployment hmem).amounts.1 a hholds

lemma Kept.recorded_amounts (h : Kept rt fl s) : AllAmounts s.recorded := by
  intro a ha
  obtain ⟨deployment, hmem, hrecorded⟩ := List.mem_flatMap.mp ha
  exact (h.sound deployment hmem).amounts.2 a hrecorded

/-- What the invariant is for. -/
lemma Kept.quotaKept (h : Kept rt fl s) : QuotaKept s := by
  constructor
  case containers => exact h.containers
  case amounts =>
    intro r
    have hall : AllAmounts (s.inUse ++ s.held) := fun a ha =>
      (List.mem_append.mp ha).elim (h.inUse a) (h.held_amounts a)
    refine ⟨_, exactSum_eq hall, ?_⟩
    rw [load_append]
    exact h.amounts r
  case pendingStarts => exact h.pendingStarts
  case pending => exact fun r => ⟨_, exactSum_eq h.recorded_amounts, h.pending r⟩
  case idle =>
    intro hdone
    have hnone : s.recorded = [] := by
      refine List.flatMap_eq_nil_iff.mpr fun deployment hmem => ?_
      have := hdone deployment hmem
      cases deployment <;> simp_all [Deployment.isDone, Deployment.recorded]
    have hstarts := h.pendingStarts
    have hmemory := h.pending .memory
    have hcpu := h.pending .cpu
    rw [hnone] at hstarts hmemory hcpu
    cases hpending : s.pending with
    | mk starts memMb cpu =>
      rw [hpending] at hstarts hmemory hcpu
      obtain rfl : starts = 0 := hstarts
      obtain rfl : memMb = .finite 0 := hmemory
      obtain rfl : cpu = .finite 0 := hcpu
      rfl

/-! ### One deployment goes on -/

/-- How reservations come and go. -/
lemma moved {i : ℕ} {deployment deployment' : Deployment} {s' : RuntimeState}
    (hi : s.deployments[i]? = some deployment)
    (hdeployments : s'.deployments = s.deployments.set i deployment') :
    s'.held.length + deployment.holds.length = s.held.length + deployment'.holds.length ∧
      s'.recorded.length + deployment.recorded.length =
        s.recorded.length + deployment'.recorded.length ∧
      (∀ r, load r s'.held + load r deployment.holds =
        load r s.held + load r deployment'.holds) ∧
      ∀ r, load r s'.recorded + load r deployment.recorded =
        load r s.recorded + load r deployment'.recorded := by
  have hheld := perm_flatMap_set hi Deployment.holds deployment'
  have hrecorded := perm_flatMap_set hi Deployment.recorded deployment'
  unfold RuntimeState.held RuntimeState.recorded
  rw [hdeployments]
  refine ⟨?_, ?_, fun r => ?_, fun r => ?_⟩
  · simpa using hheld.length_eq
  · simpa using hrecorded.length_eq
  · simpa using load_perm (r := r) hheld
  · simpa using load_perm (r := r) hrecorded

/-- The deployment goes on; if it writes the counters, no other deployment has a copy of them. -/
lemma Kept.move (h : Kept rt fl s) {i : ℕ} {deployment deployment' : Deployment}
    {s' : RuntimeState} (hi : s.deployments[i]? = some deployment)
    (hdeployments : s'.deployments = s.deployments.set i deployment')
    (hcopy : deployment'.hasCopy = true → deployment.hasCopy = true ∨
      ∀ other ∈ s.deployments, other.hasCopy = false)
    (hpending : s'.pending = s.pending ∨ deployment.hasCopy = true)
    (hsound : deployment'.Sound rt fl s'.pending) (hkeys : (OrderedDict.keys s'.active).Nodup)
    (hinUse : AllAmounts s'.inUse) (hused : ∀ r : Resource, r.of s'.quota.used =
      .finite (load r s'.inUse))
    (hcontainers : (s'.active.length + s'.held.length : ℤ) ≤ s'.quota.maxContainers)
    (hamounts : ∀ r : Resource,
      gtFloat (.finite (load r s'.inUse + load r s'.held)) (r.of s'.quota.limits) = false)
    (hstarts : s'.pending.pendingStarts = s'.recorded.length)
    (hcounters : ∀ r : Resource, r.of s'.pending.amounts = .finite (load r s'.recorded)) :
    Kept rt fl s' := by
  constructor
  case oneCopy =>
    have hmoved := countP_set hi Deployment.hasCopy deployment'
    have hone := h.oneCopy
    rw [hdeployments]
    cases hcopy' : deployment'.hasCopy with
    | false =>
      rw [contribution_of_false hcopy'] at hmoved
      omega
    | true =>
      rw [contribution_of_true hcopy'] at hmoved
      rcases hcopy hcopy' with hhad | hnone
      · rw [contribution_of_true hhad] at hmoved
        omega
      · have hzero : s.deployments.countP Deployment.hasCopy = 0 :=
          List.countP_eq_zero.mpr fun other hother => by simp [hnone other hother]
        omega
  case sound =>
    rw [hdeployments]
    intro other hother
    obtain ⟨j, hj⟩ := List.mem_iff_getElem?.mp hother
    rw [List.getElem?_set] at hj
    split at hj
    · split at hj
      · exact Option.some.inj hj ▸ hsound
      · simp at hj
    · rename_i hne
      have hold := h.sound other (List.mem_of_getElem? hj)
      rcases hpending with hsame | hhad
      · exact hsame ▸ hold
      · refine hold.of_no_copy ?_
        by_contra hhas
        exact hne (eq_of_countP_le_one h.oneCopy hi hhad hj (by simpa using hhas))
  case keys => exact hkeys
  case inUse => exact hinUse
  case used => exact hused
  case containers => exact hcontainers
  case amounts => exact hamounts
  case pendingStarts => exact hstarts
  case pending => exact hcounters

lemma gtFloat_mono {a b : ℚ} {limit : PyFloat} (hle : b ≤ a)
    (h : gtFloat (.finite a) limit = false) : gtFloat (.finite b) limit = false := by
  cases limit with
  | finite q =>
    have hle' : a ≤ q := by simpa [gtFloat] using h
    simpa [gtFloat] using hle.trans hle'
  | _ => exact h

/-- The containers stay as they are, and no reservation is added. -/
lemma Kept.move_counters (h : Kept rt fl s) {i : ℕ} {deployment deployment' : Deployment}
    {pending : PendingCounters} (hi : s.deployments[i]? = some deployment)
    (hcopy : deployment'.hasCopy = true → deployment.hasCopy = true ∨
      ∀ other ∈ s.deployments, other.hasCopy = false)
    (hpending : pending = s.pending ∨ deployment.hasCopy = true)
    (hsound : deployment'.Sound rt fl pending)
    (hholds : deployment'.holds.Sublist deployment.holds)
    (hstarts : pending.pendingStarts + deployment.recorded.length =
      s.pending.pendingStarts + deployment'.recorded.length)
    (hcounters : ∀ r : Resource, r.of pending.amounts =
      .finite (value (r.of s.pending.amounts) + load r deployment'.recorded -
        load r deployment.recorded)) :
    Kept rt fl ({ s with pending := pending }.setDeployment i deployment') := by
  have hdeployment := h.sound deployment (List.mem_of_getElem? hi)
  obtain ⟨hheldLength, hrecordedLength, hheld, hrecorded⟩ := moved hi
    (rfl : ({ s with pending := pending }.setDeployment i deployment').deployments = _)
  have hlength := hholds.length_le
  refine h.move hi rfl hcopy hpending hsound h.keys h.inUse h.used ?_ (fun r => ?_) ?_ fun r => ?_
  · have hcontainers := h.containers
    change (s.active.length + _ : ℤ) ≤ s.quota.maxContainers
    omega
  · refine gtFloat_mono ?_ (h.amounts r)
    have hless := load_le_of_sublist (r := r) hholds hdeployment.amounts.1
    have hmoved := hheld r
    change load r s.inUse + _ ≤ _
    linarith
  · have hold := h.pendingStarts
    change pending.pendingStarts = _
    omega
  · have hold := h.pending r
    have hmoved := hrecorded r
    change r.of pending.amounts = _
    rw [hcounters r, hold]
    simp only [value]
    congr 1
    linarith

/-! ### Steps -/

/-- A reservation that is made passes the checks. -/
lemma reserveQuota_ok {resources : ResourceLimits} {copy copy' : PendingCounters}
    {memMb cpu : PyFloat} (h : reserveQuota rt fl s resources copy = .ok ((memMb, cpu), copy')) :
    requestedAmounts rt fl resources = .ok (memMb, cpu) ∧
      (s.active.length : ℤ) + copy.pendingStarts < s.quota.maxContainers ∧
      (∀ r : Resource, gtFloat (totalWith fl (r.of s.quota.used) (r.of copy.amounts)
        (r.of (memMb, cpu))) (r.of s.quota.limits) = false) ∧
      copy'.pendingStarts = copy.pendingStarts + 1 ∧
      ∀ r : Resource, r.of copy'.amounts = fl.add (r.of copy.amounts) (r.of (memMb, cpu)) := by
  unfold reserveQuota at h
  obtain ⟨⟨memMb', cpu'⟩, hamounts, h⟩ := ok_of_bind h
  dsimp only at h
  split at h
  · simp [throw, throwThe, MonadExceptOf.throw, bind, Except.bind] at h
  · rename_i hcontainers
    split at h
    · obtain ⟨whole, -, h⟩ := ok_of_bind h
      simp [throw, throwThe, MonadExceptOf.throw, bind, Except.bind] at h
    · rename_i hmemory
      split at h
      · simp [throw, throwThe, MonadExceptOf.throw, bind, Except.bind] at h
      · rename_i hcpu
        obtain ⟨hsame, rfl⟩ := Prod.mk.inj (Except.ok.inj h)
        obtain ⟨rfl, rfl⟩ := Prod.mk.inj hsame
        refine ⟨hamounts, by omega, ?_, rfl, ?_⟩
        · rintro (_ | _)
          · exact Bool.eq_false_iff.mpr hmemory
          · exact Bool.eq_false_iff.mpr hcpu
        · rintro (_ | _) <;> rfl

/-- What a deployment takes its copy of the counters for is still to come. -/
lemma kept_takesCopy (h : Kept rt fl s) {i : ℕ} {deployment deployment' : Deployment}
    (hi : s.deployments[i]? = some deployment)
    (hnone : ∀ other ∈ s.deployments, other.hasCopy = false)
    (hsound : deployment'.Sound rt fl s.pending) (hholds : deployment'.holds = deployment.holds)
    (hrecorded : deployment'.recorded = deployment.recorded) :
    Kept rt fl (s.setDeployment i deployment') := by
  refine h.move_counters hi (fun _ => .inr hnone) (.inl rfl) hsound
    (hholds ▸ List.Sublist.refl _) (by rw [hrecorded]) fun r => ?_
  have hold := h.pending r
  rw [hrecorded, hold]
  simp [value]

/-- While a deployment is at `reserve_quota`, the counters tell of every reservation. -/
lemma Kept.recorded_eq_held (h : Kept rt fl s) {i : ℕ} {resources : ResourceLimits}
    {copy : PendingCounters} (hi : s.deployments[i]? = some (.built resources copy)) :
    s.recorded = s.held := by
  refine List.flatMap_congr fun other hother => ?_
  obtain ⟨j, hj⟩ := List.mem_iff_getElem?.mp hother
  have hsame : other.hasCopy = true → other = .built resources copy := by
    intro hhas
    obtain rfl := eq_of_countP_le_one h.oneCopy hi rfl hj hhas
    exact Option.some.inj (hj.symm.trans hi)
  cases other with
  | reserved memMb cpu copy' => exact absurd (hsame rfl) Deployment.noConfusion
  | ended memMb cpu copy' => exact absurd (hsame rfl) Deployment.noConfusion
  | _ => rfl

/-- A reservation within the quota is made. -/
lemma kept_reserve (h : Kept rt fl s) {i : ℕ} {resources : ResourceLimits}
    {copy copy' : PendingCounters} {memMb cpu : PyFloat} {how : StartEnd}
    (hi : s.deployments[i]? = some (.built resources copy))
    (hok : reserveQuota rt fl s resources copy = .ok ((memMb, cpu), copy'))
    (hexact : ExactStep rt fl s (.advance i how)) :
    Kept rt fl (s.setDeployment i (.reserved memMb cpu copy')) := by
  obtain ⟨hrequested, hcontainers, hwithin, hstarts', hadded⟩ := reserveQuota_ok hok
  obtain ⟨rfl, hamounts⟩ := h.sound _ (List.mem_of_getElem? hi)
  have hmem : (memMb, cpu) ∈ (requestedAmounts rt fl resources).toOption := by
    rw [hrequested]
    rfl
  have hexact := hexact i rfl _ hi (memMb, cpu) hmem
  have hall := hamounts (memMb, cpu) hmem
  have hsame := h.recorded_eq_held hi
  obtain ⟨hheldLength, hrecordedLength, hheld, hrecorded⟩ := moved hi
    (rfl : (s.setDeployment i (.reserved memMb cpu copy')).deployments = _)
  simp only [Deployment.holds, Deployment.recorded, List.length_nil, List.length_singleton,
    load_nil, load_singleton, add_zero] at hheldLength hrecordedLength hheld hrecorded
  refine h.move hi rfl (fun _ => .inl rfl) (.inl rfl) ⟨hall, hstarts', fun r => ?_⟩ h.keys h.inUse
    h.used ?_ (fun r => ?_) ?_ fun r => ?_
  · rw [hadded r]
    exact (hexact r).2
  · have hold := h.pendingStarts
    rw [hsame] at hold
    change (s.active.length + _ : ℤ) ≤ s.quota.maxContainers
    omega
  · have hlimit := hwithin r
    rw [(hexact r).1, h.used r, h.pending r, hsame] at hlimit
    simp only [value] at hlimit
    refine gtFloat_mono ?_ hlimit
    change load r s.inUse + _ ≤ _
    rw [hheld r, add_assoc]
    exact le_refl _
  · rw [hrecordedLength]
    exact h.pendingStarts
  · rw [hrecorded r]
    exact h.pending r

lemma maxZero_of_nonneg {q : ℚ} (h : 0 ≤ q) : maxZero (.finite q) = .finite q := by
  have hcases : maxZero (.finite q) = if decide (0 < q) = true then .finite q else .finite 0 := rfl
  rw [hcases]
  split
  · rfl
  · rename_i hle
    exact congrArg PyFloat.finite (le_antisymm h (by simpa using hle))

/-- A recorded reservation can be taken off the counters. -/
lemma Kept.without (h : Kept rt fl s) {i : ℕ} {how : StartEnd} {memMb cpu : PyFloat}
    {copy : PendingCounters} (hi : s.deployments[i]? = some (.ending how memMb cpu copy))
    (hexact : ∀ r : Resource, ExactRelease fl (r.of copy.amounts) (r.of (memMb, cpu))) :
    (copy.without fl memMb cpu).pendingStarts = s.pending.pendingStarts - 1 ∧
      ∀ r : Resource, r.of (copy.without fl memMb cpu).amounts =
        .finite (value (r.of s.pending.amounts) - value (r.of (memMb, cpu))) := by
  obtain ⟨rfl, -⟩ := h.sound _ (List.mem_of_getElem? hi)
  have hmem : (memMb, cpu) ∈ s.recorded :=
    List.mem_flatMap.mpr ⟨_, List.mem_of_getElem? hi, List.mem_singleton_self _⟩
  constructor
  · have hpos : 0 < s.recorded.length := List.length_pos_of_mem hmem
    have hstarts := h.pendingStarts
    show max 0 (s.pending.pendingStarts - 1) = _
    omega
  · intro r
    have hform : r.of (s.pending.without fl memMb cpu).amounts =
        maxZero (fl.sub (r.of s.pending.amounts) (r.of (memMb, cpu))) := by
      cases r <;> rfl
    rw [hform, hexact r]
    refine maxZero_of_nonneg ?_
    have hle := load_le_of_sublist (r := r) (List.singleton_sublist.mpr hmem) h.recorded_amounts
    rw [h.pending r]
    simp only [value, load_singleton] at hle ⊢
    linarith

/-- A container that runs takes over its reservation. -/
lemma kept_commit (h : Kept rt fl s) {i : ℕ} {containerId : String} {memMb cpu : PyFloat}
    {copy : PendingCounters} {how : StartEnd}
    (hi : s.deployments[i]? = some (.ending (.commit containerId) memMb cpu copy))
    (hexact : ExactStep rt fl s (.advance i how)) : Kept rt fl (s.advance rt fl i how).1 := by
  obtain ⟨hsub, hsum⟩ := hexact i rfl _ hi
  obtain ⟨hstarts, hcounters⟩ := h.without hi hsub
  obtain ⟨-, hall⟩ := h.sound _ (List.mem_of_getElem? hi)
  have hinsert := insert_perm containerId (⟨containerId, memMb, cpu⟩ : ContainerInstance) h.keys
  have hsmaller : (OrderedDict.erase s.active containerId).Sublist s.active := List.filter_sublist
  -- what is in use afterwards: the new container, and of the others all but one of its name
  have hinUse : ((insert s.active containerId ⟨containerId, memMb, cpu⟩).map
      fun item => item.2.amounts).Perm ((memMb, cpu) ::
        (OrderedDict.erase s.active containerId).map fun item => item.2.amounts) := by
    exact hinsert.map fun item : String × ContainerInstance => item.2.amounts
  have hless : ((OrderedDict.erase s.active containerId).map
      fun item : String × ContainerInstance => item.2.amounts).Sublist s.inUse := hsmaller.map _
  have hload : ∀ r, load r ((insert s.active containerId ⟨containerId, memMb, cpu⟩).map
      fun item => item.2.amounts) ≤ load r s.inUse + value (r.of (memMb, cpu)) := by
    intro r
    rw [load_perm hinUse, ← List.singleton_append, load_append, load_singleton, add_comm]
    exact add_le_add_left (load_le_of_sublist hless h.inUse) _
  simp only [RuntimeState.advance, hi]
  show Kept rt fl ((commitQuotaReservation fl s ⟨containerId, memMb, cpu⟩ memMb cpu
    copy).1.setDeployment i (.ended memMb cpu (copy.without fl memMb cpu)))
  obtain ⟨hheldLength, hrecordedLength, hheld, hrecorded⟩ := moved hi (rfl :
    ((commitQuotaReservation fl s ⟨containerId, memMb, cpu⟩ memMb cpu copy).1.setDeployment i
      (.ended memMb cpu (copy.without fl memMb cpu))).deployments = _)
  simp only [Deployment.holds, Deployment.recorded, List.length_nil, List.length_singleton,
    load_nil, load_singleton, add_zero] at hheldLength hrecordedLength hheld hrecorded
  refine h.move hi rfl (fun _ => .inl rfl) (.inl rfl) ⟨hall, hstarts, hcounters⟩
    (nodup_keys_insert h.keys) ?_ (hsum containerId rfl) ?_ (fun r => ?_) ?_ fun r => ?_
  · intro a ha
    rcases List.mem_cons.mp (hinUse.mem_iff.mp ha) with rfl | hold
    · exact hall (memMb, cpu) (List.mem_singleton_self _)
    · exact h.inUse a (hless.subset hold)
  · have hcontainers := h.containers
    have hlength : (insert s.active containerId ⟨containerId, memMb, cpu⟩).length ≤
        s.active.length + 1 := by
      rw [hinsert.length_eq, List.length_cons]
      exact Nat.succ_le_succ hsmaller.length_le
    change ((insert s.active containerId _).length + _ : ℤ) ≤ s.quota.maxContainers
    omega
  · refine gtFloat_mono ?_ (h.amounts r)
    have hmoved := hheld r
    have hmore := hload r
    change load r ((insert s.active containerId _).map _) + _ ≤ _
    linarith
  · have hold := h.pendingStarts
    change s.pending.pendingStarts = _
    omega
  · have hmoved := hrecorded r
    change r.of s.pending.amounts = _
    rw [h.pending r]
    congr 1
    linarith

/-- A deployment goes on. -/
lemma kept_advance (h : Kept rt fl s) {i : ℕ} {how : StartEnd}
    (hone : OneCopy s (.advance i how)) (hexact : ExactStep rt fl s (.advance i how)) :
    Kept rt fl (s.advance rt fl i how).1 := by
  cases hi : s.deployments[i]? with
  | none =>
    simp only [RuntimeState.advance, hi]
    exact h
  | some deployment =>
    have hsound := h.sound deployment (List.mem_of_getElem? hi)
    cases deployment with
    | requested resources =>
      simp only [RuntimeState.advance, hi]
      exact kept_takesCopy h hi (hone i rfl _ hi rfl) ⟨rfl, hsound⟩ rfl rfl
    | built resources copy =>
      simp only [RuntimeState.advance, hi]
      split
      · refine h.move_counters hi (by simp [Deployment.hasCopy]) (.inl rfl) trivial
          (List.Sublist.refl _) rfl fun r => ?_
        rw [h.pending r]
        simp [value, Deployment.recorded]
      · rename_i hok
        exact kept_reserve h hi hok hexact
    | reserved memMb cpu copy =>
      obtain ⟨hall, hstarts, hcounters⟩ := hsound
      simp only [RuntimeState.advance, hi]
      refine h.move_counters hi (by simp [Deployment.hasCopy]) (.inr rfl) hall
        (List.Sublist.refl _) (by simp [Deployment.recorded, hstarts]) fun r => ?_
      rw [hcounters r]
      simp [Deployment.recorded]
    | starting memMb cpu =>
      simp only [RuntimeState.advance, hi]
      exact kept_takesCopy h hi (hone i rfl _ hi rfl) ⟨rfl, hsound⟩ rfl rfl
    | ending end_ memMb cpu copy =>
      obtain ⟨rfl, hall⟩ := hsound
      cases end_ with
      | commit containerId => exact kept_commit h hi hexact
      | release =>
        obtain ⟨hstarts, hcounters⟩ := h.without hi (hexact i rfl _ hi).1
        simp only [RuntimeState.advance, hi]
        refine h.move_counters hi (fun _ => .inl rfl) (.inl rfl) ⟨hall, hstarts, hcounters⟩
          (List.nil_sublist _) rfl fun r => ?_
        rw [h.pending r]
        simp [value, Deployment.recorded]
    | ended memMb cpu copy =>
      obtain ⟨hall, hstarts, hcounters⟩ := hsound
      simp only [RuntimeState.advance, hi]
      refine h.move_counters hi (by simp [Deployment.hasCopy]) (.inr rfl) trivial
        (List.nil_sublist _) (by simp [Deployment.recorded, hstarts]) fun r => ?_
      rw [hcounters r]
      simp [Deployment.recorded]
    | done =>
      simp only [RuntimeState.advance, hi]
      exact h

lemma kept_deploy (h : Kept rt fl s) {resources : ResourceLimits}
    (hrequest : SoundRequest rt fl (.deploy resources)) :
    Kept rt fl { s with deployments := s.deployments ++ [.requested resources] } := by
  have hheld : RuntimeState.held { s with deployments := s.deployments ++ [.requested resources] } =
      s.held := by
    unfold RuntimeState.held
    rw [List.flatMap_append]
    exact List.append_nil _
  have hrecorded : RuntimeState.recorded
      { s with deployments := s.deployments ++ [.requested resources] } = s.recorded := by
    unfold RuntimeState.recorded
    rw [List.flatMap_append]
    exact List.append_nil _
  constructor
  case oneCopy =>
    dsimp only
    rw [List.countP_append]
    exact h.oneCopy
  case sound =>
    intro deployment hdeployment
    rcases List.mem_append.mp hdeployment with hold | hnew
    · exact h.sound deployment hold
    · rw [List.mem_singleton.mp hnew]
      exact hrequest resources rfl
  case keys => exact h.keys
  case inUse => exact h.inUse
  case used => exact h.used
  case containers => exact hheld ▸ h.containers
  case amounts => exact hheld ▸ h.amounts
  case pendingStarts => exact hrecorded ▸ h.pendingStarts
  case pending => exact hrecorded ▸ h.pending

/-- One step. -/
theorem kept_step (h : Kept rt fl s) {op : DeployOp} (hone : OneCopy s op)
    (hrequest : SoundRequest rt fl op) (hexact : ExactStep rt fl s op) :
    Kept rt fl (deployments rt fl s op).1 := by
  cases op with
  | deploy resources => exact kept_deploy h hrequest
  | advance i how => exact kept_advance h hone hexact

/-! ### Runs -/

/-- Where no deployment takes a copy of the counters while another one has one, no amount is
negative or no number, and nothing is rounded, the quota is kept. -/
theorem quota_kept (rt : PyRuntime) (fl : FloatRuntime) (s : RuntimeState) (hready : Ready s)
    (ops : List DeployOp) (hone : (deployments rt fl).Always OneCopy s ops)
    (hrequests : ∀ op ∈ ops, SoundRequest rt fl op)
    (hexact : (deployments rt fl).Always (ExactStep rt fl) s ops) :
    QuotaKept ((deployments rt fl).after s ops) := by
  refine (invariant (I := Kept rt fl) ?_ ((hone.and hexact).and (always_of_mem hrequests))
    (kept_of_ready hready)).quotaKept
  exact fun s op h hop => kept_step h hop.1.1 hop.2 hop.1.2

/-- Floats that are never rounded, read from and written as whole numbers. -/
def exactFloats : FloatRuntime where
  parseFloat text := match decimal? text with
    | some n => .ok (.finite n)
    | none => .error ("could not convert string to float: '" ++ text ++ "'")
  parseInt text := match decimal? text with
    | some n => .ok n
    | none => .error ("invalid literal for int() with base 10: '" ++ text ++ "'")
  truncate x := match x with
    | .finite q => .ok (q.num.tdiv q.den)
    | _ => .error "cannot convert float to integer"
  divide n m := if m = 0 then .error "division by zero" else .ok (.finite (n / m))
  add x y := .finite (value x + value y)
  sub x y := .finite (value x - value y)
  mul x y := .finite (value x * value y)
  sum xs := .finite (xs.map value).sum
  text x := toString (value x).num

/-- One container may run. -/
def oneContainer : RuntimeState := { quota := { maxContainers := 1 } }

/-- The resources of the deployments below. -/
def smallResources : ResourceLimits := { cpuLimit := "1", memoryLimit := "512m" }

lemma ready_oneContainer : Ready oneContainer := by
  constructor
  case deployments => rfl
  case pending => rfl
  case keys => exact List.nodup_nil
  case inUse => exact fun a ha => absurd ha List.not_mem_nil
  case used => rintro (_ | _) <;> rfl
  case containers => decide
  case amounts => rintro (_ | _) <;> decide +kernel

/-- One deployment runs and another one is refused. -/
theorem quota_kept_one : QuotaKept ((deployments .ascii exactFloats).after oneContainer
    [.deploy smallResources, .advance 0 .release, .advance 0 .release, .advance 0 .release,
      .advance 0 (.commit "a"), .advance 0 .release, .advance 0 .release,
      .deploy smallResources, .advance 1 .release, .advance 1 .release]) :=
  quota_kept .ascii exactFloats oneContainer ready_oneContainer _ (by decide +kernel)
    (by decide +kernel) (by decide +kernel)

/-- Two deployments take their copies before either writes its own back: both reserve where one
container may run. -/
theorem quota_exceeded : ¬ ∀ ops,
    QuotaKept ((deployments .ascii exactFloats).after oneContainer ops) := by
  intro h
  have hkept := (h [.deploy smallResources, .deploy smallResources, .advance 0 .release,
    .advance 1 .release, .advance 0 .release, .advance 1 .release]).containers
  revert hkept
  decide +kernel

end Trion.Commander
