import Trion.Library.OperationRun
import Trion.Library.OrderedDict
import Trion.Python.Value

/-!
# The catalog of MCP routes

A catalog snapshot binds tools to transports.  Callers take a token for a route of the published
snapshot and give it back through the lease of the token; a revocation stops new tokens, waits
until the last one has been given back, replaces the snapshot, and then retires the transports
of the old one.  All of this runs in many threads.  Every section under the lock is an operation
of its own, and so is every call of `retire_transport`, so that operations of other threads come
in between; a run is the list of operations in the order in which they took place.

The type of the transports stands for their identities.
-/

namespace Trion.Mcp

open Trion.Python OrderedDict OperationRun

variable {τ : Type} [DecidableEq τ]

/-! ### Snapshots -/

/-- `MCPTransportBindingOutcome`, of which the lifecycle reads the transport. -/
structure MCPTransportBindingOutcome (τ : Type) where
  transport : Option τ

/-- A route, as `make_route` makes it. -/
structure Route (τ : Type) where
  mcpName : String
  transport : τ
  toolDefinition : PyDict

/-- `MCPToolCatalogSnapshot`, of which the lifecycle reads the bindings and the routes. -/
structure MCPToolCatalogSnapshot (τ : Type) where
  bindingsByMcp : List (String × Option (MCPTransportBindingOutcome τ))
  routesByTool : List (String × Route τ)

/-- Appends a transport that is not there. -/
def addTransport (transports : List τ) (transport : τ) : List τ :=
  if transport ∈ transports then transports else transports ++ [transport]

/-- `_snapshot_transports`. -/
def snapshotTransports : Option (MCPToolCatalogSnapshot τ) → List τ
  | none => []
  | some snapshot =>
    let bound := snapshot.bindingsByMcp.foldl (fun transports binding =>
      match binding.2.bind MCPTransportBindingOutcome.transport with
      | none => transports
      | some transport => addTransport transports transport) []
    snapshot.routesByTool.foldl
      (fun transports route => addTransport transports route.2.transport) bound

/-! ### The state -/

/-- How far the release of a lease has come. -/
inductive LeasePhase where
  | held
  /-- `release_once` has set its flag and not yet given the token back. -/
  | releasing
  | released
deriving DecidableEq

/-- A lease, with the transport its token is for. -/
structure CatalogLease (τ : Type) where
  transport : τ
  phase : LeasePhase

/-- The lease's token has not been given back. -/
def CatalogLease.isUnreleased (lease : CatalogLease τ) : Bool := lease.phase != .released

/-- `MCPCallToken`; the lease is the number it has among the leases. -/
structure MCPCallToken (τ : Type) where
  toolName : String
  mcpName : String
  transport : τ
  toolDefinition : PyDict
  lease : ℕ

/-- How far a call of `revoke_catalog_routes` has come. -/
inductive Revocation (τ : Type) where
  /-- It waits on the condition. -/
  | waiting (replacement : Option (MCPToolCatalogSnapshot τ))
  /-- It has been notified and has yet to take the lock. -/
  | notified (replacement : Option (MCPToolCatalogSnapshot τ))
  /-- It retires the transports of the old snapshot. -/
  | retiring (transports retiredTransports : List τ) (retired : ℕ) (retirementErrors : List String)
  /-- It has returned the number of retired transports, or raised the errors. -/
  | done (outcome : Except (List String) ℕ)

/-- The state of the module. -/
structure Catalog (τ : Type) where
  publishedSnapshot : Option (MCPToolCatalogSnapshot τ) := none
  acquiresStopped : Bool := true
  activeTokens : ℕ := 0
  leases : List (CatalogLease τ) := []
  revocations : List (Revocation τ) := []

/-- An operation. -/
inductive CatalogOp (τ : Type) where
  | publish (snapshot : MCPToolCatalogSnapshot τ)
  | acquire (toolName : String)
  /-- The first section of the lease's `release_once`. -/
  | release (lease : ℕ)
  /-- `_release_token`, which `release_once` calls after its own section. -/
  | giveBack (lease : ℕ)
  /-- A call of `revoke_catalog_routes`, up to the point where it waits or leaves its section. -/
  | revoke (replacement : Option (MCPToolCatalogSnapshot τ))
  /-- A notified revocation takes the lock. -/
  | wake (revocation : ℕ)
  /-- A turn of a revocation's loop; the text is of the exception `retire_transport` raises. -/
  | retire (revocation : ℕ) (error : Option String)

/-- What `acquire_route` raises. -/
inductive AcquireError where
  | runtimeError (message : String)
  | keyError (toolName : String)
deriving DecidableEq

/-- What happens to snapshots, tokens and transports. -/
inductive CatalogEvent (τ : Type) where
  | published (snapshot : MCPToolCatalogSnapshot τ)
  /-- `publish_catalog` has put another snapshot in the place of this one. -/
  | overwritten (snapshot : MCPToolCatalogSnapshot τ)
  /-- A revocation has taken this snapshot out. -/
  | revoked (snapshot : MCPToolCatalogSnapshot τ)
  | acquired (token : MCPCallToken τ)
  | refused (error : AcquireError)
  /-- `retire_transport` is called. -/
  | retired (transport : τ)
  | finished (outcome : Except (List String) ℕ)

/-- A revocation that waits is notified. -/
def Revocation.notify : Revocation τ → Revocation τ
  | .waiting replacement => .notified replacement
  | revocation => revocation

namespace Catalog

/-- `publish_catalog`. -/
def publish (c : Catalog τ) (snapshot : MCPToolCatalogSnapshot τ) : Catalog τ :=
  { c with publishedSnapshot := some snapshot, acquiresStopped := false }

/-- `acquire_route`. -/
def acquire (c : Catalog τ) (toolName : String) :
    Catalog τ × Except AcquireError (MCPCallToken τ) :=
  if c.acquiresStopped then (c, .error (.runtimeError "catalog routes are revoked"))
  else match c.publishedSnapshot.bind fun snapshot => get? snapshot.routesByTool toolName with
    | none => (c, .error (.keyError toolName))
    | some route =>
      ({ c with
          activeTokens := c.activeTokens + 1
          leases := c.leases ++ [⟨route.transport, .held⟩] },
        .ok ⟨toolName, route.mcpName, route.transport, route.toolDefinition, c.leases.length⟩)

/-- The section of `release_once`: it does nothing if the flag is set. -/
def release (c : Catalog τ) (lease : ℕ) : Catalog τ :=
  match c.leases[lease]? with
  | some ⟨transport, .held⟩ => { c with leases := c.leases.set lease ⟨transport, .releasing⟩ }
  | _ => c

/-- `_release_token`. -/
def releaseToken (c : Catalog τ) : Catalog τ :=
  if c.activeTokens = 0 then c
  else
    { c with
      activeTokens := c.activeTokens - 1
      revocations := if c.activeTokens - 1 = 0 then c.revocations.map Revocation.notify
        else c.revocations }

/-- The call of `_release_token` of a lease whose flag has just been set. -/
def giveBack (c : Catalog τ) (lease : ℕ) : Catalog τ :=
  match c.leases[lease]? with
  | some ⟨transport, .releasing⟩ =>
    { c with leases := c.leases.set lease ⟨transport, .released⟩ }.releaseToken
  | _ => c

/-- The end of the section of `revoke_catalog_routes`: no token is active. -/
def replace (c : Catalog τ) (replacement : Option (MCPToolCatalogSnapshot τ)) : Catalog τ :=
  match replacement with
  | none => { c with publishedSnapshot := none }
  | some snapshot => c.publish snapshot

/-- The loop of a revocation at its start. -/
def retiringOld (c : Catalog τ) : Revocation τ :=
  .retiring (snapshotTransports c.publishedSnapshot) [] 0 []

/-- The section of `revoke_catalog_routes` up to `wait`. -/
def revoke (c : Catalog τ) (replacement : Option (MCPToolCatalogSnapshot τ)) : Catalog τ :=
  let stopped := { c with acquiresStopped := true }
  if stopped.activeTokens = 0 then
    { stopped.replace replacement with revocations := c.revocations ++ [c.retiringOld] }
  else { stopped with revocations := c.revocations ++ [.waiting replacement] }

/-- A notified revocation goes on with its section: it waits again if a token is active. -/
def wake (c : Catalog τ) (revocation : ℕ) (replacement : Option (MCPToolCatalogSnapshot τ)) :
    Catalog τ :=
  if c.activeTokens = 0 then
    { c.replace replacement with revocations := c.revocations.set revocation c.retiringOld }
  else { c with revocations := c.revocations.set revocation (.waiting replacement) }

end Catalog

/-- A turn of the loop of a revocation. -/
def Revocation.retireNext (error : Option String) :
    Revocation τ → Revocation τ × List (CatalogEvent τ)
  | .retiring [] _ retired errors =>
    let outcome := if errors = [] then .ok retired else .error errors
    (.done outcome, [.finished outcome])
  | .retiring (transport :: transports) retiredTransports retired errors =>
    if transport ∈ retiredTransports then
      (.retiring transports retiredTransports retired errors, [])
    else
      (match error with
        | none => .retiring transports (retiredTransports ++ [transport]) (retired + 1) errors
        | some text =>
          .retiring transports (retiredTransports ++ [transport]) retired (errors ++ [text]),
        [.retired transport])
  | revocation => (revocation, [])

/-- The snapshots that leave and come where a revocation leaves its section. -/
def replaceEvents (c : Catalog τ) (replacement : Option (MCPToolCatalogSnapshot τ)) :
    List (CatalogEvent τ) :=
  (c.publishedSnapshot.map .revoked).toList ++ (replacement.map .published).toList

/-- The module under the operations of all threads. -/
def catalogLifecycle : System (Catalog τ) (CatalogOp τ) (List (CatalogEvent τ)) := fun c op =>
  match op with
  | .publish snapshot =>
    (c.publish snapshot, (c.publishedSnapshot.map .overwritten).toList ++ [.published snapshot])
  | .acquire toolName =>
    match c.acquire toolName with
    | (c', .ok token) => (c', [.acquired token])
    | (c', .error error) => (c', [.refused error])
  | .release lease => (c.release lease, [])
  | .giveBack lease => (c.giveBack lease, [])
  | .revoke replacement =>
    (c.revoke replacement, if c.activeTokens = 0 then replaceEvents c replacement else [])
  | .wake revocation =>
    match c.revocations[revocation]? with
    | some (.notified replacement) =>
      (c.wake revocation replacement,
        if c.activeTokens = 0 then replaceEvents c replacement else [])
    | _ => (c, [])
  | .retire revocation error =>
    match c.revocations[revocation]? with
    | some phase =>
      ({ c with revocations := c.revocations.set revocation (phase.retireNext error).1 },
        (phase.retireNext error).2)
    | none => (c, [])

end Trion.Mcp
