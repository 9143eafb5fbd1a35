import Mathlib.Data.String.Basic
import Trion.Library.Preferred
import Trion.Routing.Instances

/-!
# The layer routing

`resolve_layer_routing` of `utils/routing/ollama_manager.py` decides, from the routing that is
stored and the list of instances, which instance each role is sent to.
-/

namespace Trion.Routing

open Python Preferred

/-- `ROLES`. -/
def roles : List String := ["thinking", "control", "output", "tool_selector", "embedding"]

/-- A routing: the target of a role. -/
abbrev LayerRouting := List (String × String)

/-- It runs and its health check went well. -/
def Instance.serves (inst : Instance) : Bool := inst.running && inst.health.ok

/-- `instances_by_id`. -/
def instancesById (instances : List Instance) : List (String × Instance) :=
  OrderedDict.insertAll Instance.id id [] instances

/-- The order of the key `(len(x), x)`. -/
def targetLe (a b : String) : Bool := a.length < b.length || (a.length == b.length && a ≤ b)

/-- `_choose_auto_target`. -/
def chooseAutoTarget (byId : List (String × Instance)) : Option String :=
  let healthyGpu := (byId.filter fun e => e.2.target == .gpu && e.2.running && e.2.health.ok).map
    Prod.fst
  let cpuMeta := OrderedDict.get? byId "cpu"
  let runningGpu := (byId.filter fun e => e.2.target == .gpu && e.2.running).map Prod.fst
  match preferred targetLe healthyGpu with
  | some target => some target
  | none =>
    if cpuMeta.any fun inst => inst.running && inst.health.ok then some "cpu"
    else
      match preferred targetLe runningGpu with
      | some target => some target
      | none => if cpuMeta.any Instance.running then some "cpu" else none

/-- What is resolved for a role. -/
structure ResolvedRole where
  requestedTarget : String
  effectiveTarget : Option String
  effectiveEndpoint : Option String
  effectiveHealth : Option Health
  fallbackReason : Option String
deriving Repr

/-- `(layer_routing.get(role) or "auto").strip()`. -/
def requestedTarget (layerRouting : LayerRouting) (role : String) : String :=
  strip (orElse ((OrderedDict.get? layerRouting role).getD "") "auto")

/-- The effective target of a request and the reason when it is another one. -/
def decideTarget (byId : List (String × Instance)) (requested : String) :
    Option String × Option String :=
  if requested = "auto" then
    let effective := chooseAutoTarget byId
    (effective, if effective.isSome then none else some "no_target_available")
  else
    match OrderedDict.get? byId requested with
    | none => (none, some "unknown_target")
    | some reqMeta =>
      if reqMeta.running && reqMeta.health.ok then (some requested, none)
      else if startsWith requested "gpu" &&
          (OrderedDict.get? byId "cpu").any fun inst => inst.running && inst.health.ok then
        (some "cpu", some "requested_unavailable")
      else (none, some "requested_unavailable")

/-- `eff_meta`: the instance that the effective target names. -/
def effMeta (byId : List (String × Instance)) (effective : Option String) : Option Instance :=
  effective.bind fun target => if target = "" then none else OrderedDict.get? byId target

/-- The turn of the loop of `resolve_layer_routing` for one role. -/
def resolveRole (byId : List (String × Instance)) (layerRouting : LayerRouting) (role : String) :
    ResolvedRole :=
  let requested := requestedTarget layerRouting role
  let decided := decideTarget byId requested
  { requestedTarget := requested
    effectiveTarget := decided.1
    effectiveEndpoint := (effMeta byId decided.1).map Instance.endpoint
    effectiveHealth := (effMeta byId decided.1).map Instance.health
    fallbackReason := decided.2 }

/-- The routing that is resolved: `layer_routing or get_layer_routing()`. -/
def routingInForce (stored layerRouting : LayerRouting) : LayerRouting :=
  if layerRouting = [] then stored else layerRouting

/-- `resolve_layer_routing`. -/
def resolveLayerRouting (stored layerRouting : LayerRouting) (instances : List Instance) :
    List (String × ResolvedRole) :=
  roles.map fun role =>
    (role, resolveRole (instancesById instances) (routingInForce stored layerRouting) role)

section ResolveRole

variable {byId : List (String × Instance)} {layerRouting : LayerRouting} {role : String}

lemma resolveRole_requestedTarget :
    (resolveRole byId layerRouting role).requestedTarget = requestedTarget layerRouting role := by
  simp only [resolveRole]

lemma resolveRole_effectiveTarget : (resolveRole byId layerRouting role).effectiveTarget =
    (decideTarget byId (requestedTarget layerRouting role)).1 := by
  simp only [resolveRole]

lemma resolveRole_effectiveEndpoint : (resolveRole byId layerRouting role).effectiveEndpoint =
    (effMeta byId (resolveRole byId layerRouting role).effectiveTarget).map Instance.endpoint := by
  simp only [resolveRole]

end ResolveRole

section Lookup

variable {instances : List Instance} {inst : Instance} {target : String}

lemma nodup_instancesById : (OrderedDict.keys (instancesById instances)).Nodup :=
  OrderedDict.nodup_keys_insertAll List.nodup_nil

/-- An instance that is found under an id is one of the list and has the id. -/
lemma get?_instancesById (h : OrderedDict.get? (instancesById instances) target = some inst) :
    inst ∈ instances ∧ inst.id = target := by
  rcases OrderedDict.get?_insertAll h with ⟨inst', hlast, hid, hinst⟩ | ⟨-, hnone⟩
  · obtain rfl : inst' = inst := hinst
    exact ⟨OrderedDict.mem_of_mem_lastOfKey hlast, hid⟩
  · exact nomatch hnone

/-- Among distinct ids every instance is found. -/
lemma get?_instancesById_of_mem (hnodup : (instances.map Instance.id).Nodup)
    (h : inst ∈ instances) : OrderedDict.get? (instancesById instances) inst.id = some inst :=
  OrderedDict.get?_insertAll_of_mem (OrderedDict.mem_lastOfKey hnodup h)

@[simp] lemma get?_resolveLayerRouting {stored layerRouting : LayerRouting} {role : String}
    (h : role ∈ roles) :
    OrderedDict.get? (resolveLayerRouting stored layerRouting instances) role =
      some (resolveRole (instancesById instances) (routingInForce stored layerRouting) role) := by
  refine OrderedDict.get?_of_mem ?_ (List.mem_map.mpr ⟨role, h, rfl⟩)
  unfold OrderedDict.keys resolveLayerRouting
  rw [List.map_map]
  exact (by decide : (roles.map id).Nodup)

end Lookup

section Order

lemma targetLe_iff {a b : String} :
    targetLe a b = true ↔ a.length < b.length ∨ a.length = b.length ∧ a ≤ b := by
  simp [targetLe]

lemma targetLe_trans (a b c : String) (hab : targetLe a b = true) (hbc : targetLe b c = true) :
    targetLe a c = true := by
  rw [targetLe_iff] at *
  rcases hab with hab | ⟨hab, hab'⟩ <;> rcases hbc with hbc | ⟨hbc, hbc'⟩
  · exact .inl (by omega)
  · exact .inl (by omega)
  · exact .inl (by omega)
  · exact .inr ⟨by omega, le_trans hab' hbc'⟩

lemma targetLe_total (a b : String) : (targetLe a b || targetLe b a) = true := by
  rw [Bool.or_eq_true, targetLe_iff, targetLe_iff]
  rcases Nat.lt_trichotomy a.length b.length with h | h | h
  · exact .inl (.inl h)
  · exact (le_total a b).imp (fun hle => .inr ⟨h, hle⟩) fun hle => .inr ⟨h.symm, hle⟩
  · exact .inr (.inl h)

lemma targetLe_antisymm {a b : String} (hab : targetLe a b = true) (hba : targetLe b a = true) :
    a = b := by
  rw [targetLe_iff] at hab hba
  rcases hab with hab | ⟨hlen, hab⟩ <;> rcases hba with hba | ⟨hlen', hba⟩
  · omega
  · omega
  · omega
  · exact le_antisymm hab hba

end Order

end Trion.Routing
