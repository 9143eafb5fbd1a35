import Trion.Library.Grouping
import Trion.Mcp.CatalogLifecycle
import Trion.Python.Text

/-!
# The routes of a catalog

What the bound servers have answered to `tools/list` is turned into routes.  A name with one
definition is routed to the server that gave it; a name with more than one is quarantined,
whether they come from several servers or from one that lists the name twice.  The order of the
answers shows only in the order of the owners of a quarantined name.
-/

namespace Trion.Mcp

open Trion.Python OrderedDict Grouping

/-! ### Outcomes -/

/-- The outcome of binding a server: `BOUND` comes with the one transport that every other
status forbids. -/
inductive BindingOutcome (τ : Type) where
  | bound (transport : τ)
  | disabled
  | constructionFailed (diagnostic : String)
  | missing (diagnostic : Option String)

/-- `MCPToolsListProtocolResult`: only `SUCCESS_WITH_TOOLS` carries tools, one at least. -/
inductive MCPToolsListProtocolResult where
  | successWithTools (tools : List PyDict) (nonempty : tools ≠ [])
  | successEmpty
  | protocolFailure
  | transportFailure

/-- `MCPDiscoveryOutcome`: only `PROTOCOL_RESULT` carries a result. -/
inductive MCPDiscoveryOutcome where
  | protocolResult (result : MCPToolsListProtocolResult)
  | disabled
  | transportBindingFailed (diagnostic : Option String)
  | transportMissing
  | discoveryNotRun

/-! ### Routes -/

/-- A definition of a tool, with the server that gave it. -/
structure ToolOwner (τ : Type) where
  mcpName : String
  transport : τ
  definition : PyDict

/-- `str(tool.get("name", "")).strip()`. -/
def toolName (rt : PyRuntime) (tool : PyDict) : String :=
  strip (((get? tool "name").getD (.str "")).toStr rt)

variable {τ : Type} (rt : PyRuntime) (bindings : List (String × BindingOutcome τ))

/-- The tools of a server that is bound and has answered with tools.  The error is the key that
`bindings` lacks. -/
def offeredTools (mcpName : String) (outcome : MCPDiscoveryOutcome) :
    Except String (List (String × ToolOwner τ)) :=
  match outcome with
  | .protocolResult (.successWithTools tools _) =>
    match get? bindings mcpName with
    | none => .error mcpName
    | some (.bound transport) =>
      .ok ((tools.filter fun tool => toolName rt tool != "").map fun tool =>
        (toolName rt tool, ⟨mcpName, transport, tool⟩))
    | some _ => .ok []
  | _ => .ok []

/-- The loop of `_routes` over the discovery results. -/
def collectCandidates : List (String × MCPDiscoveryOutcome) →
    List (String × List (ToolOwner τ)) → Except String (List (String × List (ToolOwner τ)))
  | [], candidates => .ok candidates
  | (mcpName, outcome) :: discovery, candidates => do
    let offered ← offeredTools rt bindings mcpName outcome
    collectCandidates discovery (appendAll candidates offered)

/-- `make_route`, where the name of the tool is the key of the route. -/
def makeRoute (owner : ToolOwner τ) : Route τ where
  mcpName := owner.mcpName
  transport := owner.transport
  toolDefinition := owner.definition

/-- Routes and quarantine while the candidates are gone through. -/
structure RoutingTables (τ : Type) where
  routes : List (String × Route τ) := []
  quarantined : List (String × List String) := []

/-- The turn for one name. -/
def RoutingTables.add (tables : RoutingTables τ) (name : String) (owners : List (ToolOwner τ)) :
    RoutingTables τ :=
  match owners with
  | [owner] => { tables with routes := insert tables.routes name (makeRoute owner) }
  | owners =>
    { tables with quarantined := insert tables.quarantined name (owners.map ToolOwner.mcpName) }

/-- The second loop of `_routes`. -/
def RoutingTables.addAll (tables : RoutingTables τ)
    (candidates : List (String × List (ToolOwner τ))) : RoutingTables τ :=
  candidates.foldl (fun tables e => tables.add e.1 e.2) tables

/-- `_routes`. -/
def catalogRoutes (discovery : List (String × MCPDiscoveryOutcome)) :
    Except String (RoutingTables τ) := do
  let candidates ← collectCandidates rt bindings discovery []
  return RoutingTables.addAll {} candidates

/-! ### Offers -/

/-- What all the servers offer, in the order of the discovery results. -/
def offers (discovery : List (String × MCPDiscoveryOutcome)) : List (String × ToolOwner τ) :=
  discovery.flatMap fun e => ((offeredTools rt bindings e.1 e.2).toOption.getD [])

variable {rt bindings} {discovery discovery' : List (String × MCPDiscoveryOutcome)}
  {candidates candidates' : List (String × List (ToolOwner τ))}

/-- The candidates are what is offered, grouped by name. -/
lemma collectCandidates_eq (h : collectCandidates rt bindings discovery candidates =
    .ok candidates') : candidates' = appendAll candidates (offers rt bindings discovery) := by
  induction discovery generalizing candidates with
  | nil => exact (Except.ok.inj h).symm
  | cons e discovery ih =>
    obtain ⟨offered, hoffered, hrest⟩ := ok_of_bind h
    have hoffers : offers rt bindings (e :: discovery) =
        offered ++ offers rt bindings discovery := by
      unfold offers
      rw [List.flatMap_cons, hoffered]
      rfl
    rw [hoffers, appendAll_append]
    exact ih hrest

/-- Where every server that has answered has a binding, nothing is raised. -/
lemma exists_collectCandidates (rt : PyRuntime) (h : ∀ e ∈ discovery, ∃ offered,
      offeredTools rt bindings e.1 e.2 = .ok offered)
    (candidates : List (String × List (ToolOwner τ))) :
    ∃ candidates', collectCandidates rt bindings discovery candidates = .ok candidates' := by
  induction discovery generalizing candidates with
  | nil => exact ⟨candidates, rfl⟩
  | cons e discovery ih =>
    obtain ⟨offered, hoffered⟩ := h e List.mem_cons_self
    obtain ⟨candidates', hrest⟩ := ih (fun e' he' => h e' (List.mem_cons_of_mem e he'))
      (appendAll candidates offered)
    refine ⟨candidates', ?_⟩
    unfold collectCandidates
    rw [hoffered]
    exact hrest

lemma offeredTools_ok (rt : PyRuntime) {mcpName : String} (outcome : MCPDiscoveryOutcome)
    (h : mcpName ∈ keys bindings) :
    ∃ offered, offeredTools rt bindings mcpName outcome = .ok offered := by
  obtain ⟨binding, hget⟩ := Option.isSome_iff_exists.mp (mem_keys_iff.mp h)
  unfold offeredTools
  rw [hget]
  cases outcome with
  | protocolResult result =>
    cases result with
    | successWithTools tools => cases binding <;> exact ⟨_, rfl⟩
    | _ => exact ⟨_, rfl⟩
  | _ => exact ⟨_, rfl⟩

/-- A name is offered by a server that is bound, has answered with tools and lists it. -/
lemma mem_offers {name : String} {owner : ToolOwner τ} :
    (name, owner) ∈ offers rt bindings discovery ↔
      name ≠ "" ∧ toolName rt owner.definition = name ∧
        get? bindings owner.mcpName = some (.bound owner.transport) ∧
        ∃ tools nonempty, owner.definition ∈ tools ∧
          (owner.mcpName, .protocolResult (.successWithTools tools nonempty)) ∈ discovery := by
  unfold offers
  rw [List.mem_flatMap]
  constructor
  · rintro ⟨⟨mcpName, outcome⟩, hmem, hoffered⟩
    unfold offeredTools at hoffered
    split at hoffered
    next tools nonempty heq =>
      obtain rfl : outcome = .protocolResult (.successWithTools tools nonempty) := heq
      split at hoffered
      next => simp [Except.toOption] at hoffered
      next transport hbound =>
        obtain ⟨tool, htool, heq⟩ := List.mem_map.mp hoffered
        obtain ⟨hlisted, hname⟩ := List.mem_filter.mp htool
        cases heq
        exact ⟨by simpa using hname, rfl, hbound, tools, nonempty, hlisted, hmem⟩
      next => simp [Except.toOption] at hoffered
    next => simp [Except.toOption] at hoffered
  · rintro ⟨hname, rfl, hbound, tools, nonempty, htool, hmem⟩
    refine ⟨_, hmem, ?_⟩
    unfold offeredTools
    simp only [hbound]
    exact List.mem_map.mpr ⟨owner.definition,
      List.mem_filter.mpr ⟨htool, by simpa using hname⟩, rfl⟩

lemma offers_perm (h : discovery.Perm discovery') :
    (offers rt bindings discovery).Perm (offers rt bindings discovery') :=
  h.flatMap_right _

/-! ### What the tables say -/

/-- What becomes of a name with these owners. -/
inductive NameSettled : List (ToolOwner τ) → Option (Route τ) → Option (List String) → Prop
  | unknown : NameSettled [] none none
  | routed (owner : ToolOwner τ) : NameSettled [owner] (some (makeRoute owner)) none
  | quarantined (owner owner' : ToolOwner τ) (owners : List (ToolOwner τ)) :
      NameSettled (owner :: owner' :: owners) none
        (some ((owner :: owner' :: owners).map ToolOwner.mcpName))

variable {tables : RoutingTables τ} {name name' : String} {owners : List (ToolOwner τ)}

/-- The turn for a name does not touch the others. -/
lemma RoutingTables.add_other (tables : RoutingTables τ) (owners : List (ToolOwner τ))
    (h : name ≠ name') :
    get? (tables.add name' owners).routes name = get? tables.routes name ∧
      get? (tables.add name' owners).quarantined name = get? tables.quarantined name := by
  unfold RoutingTables.add
  split
  · exact ⟨by rw [get?_insert, if_neg h], rfl⟩
  · exact ⟨rfl, by rw [get?_insert, if_neg h]⟩

/-- The turn for a name that is in no table yet settles it. -/
lemma RoutingTables.add_self (howners : owners ≠ []) (hroutes : get? tables.routes name = none)
    (hquarantined : get? tables.quarantined name = none) :
    NameSettled owners (get? (tables.add name owners).routes name)
      (get? (tables.add name owners).quarantined name) := by
  match owners, howners with
  | [owner], _ =>
    have hadd : tables.add name [owner] =
        { tables with routes := insert tables.routes name (makeRoute owner) } := rfl
    rw [hadd, get?_insert, if_pos rfl, hquarantined]
    exact .routed owner
  | owner :: owner' :: owners, _ =>
    have hadd : (tables.add name (owner :: owner' :: owners)).quarantined =
        insert tables.quarantined name ((owner :: owner' :: owners).map ToolOwner.mcpName) := rfl
    have hsame : (tables.add name (owner :: owner' :: owners)).routes = tables.routes := rfl
    rw [hadd, hsame, get?_insert, if_pos rfl, hroutes]
    exact .quarantined owner owner' owners

/-- A name that is no candidate stays what it is. -/
lemma RoutingTables.addAll_other (tables : RoutingTables τ) (h : name ∉ keys candidates) :
    get? (tables.addAll candidates).routes name = get? tables.routes name ∧
      get? (tables.addAll candidates).quarantined name = get? tables.quarantined name := by
  induction candidates generalizing tables with
  | nil => exact ⟨rfl, rfl⟩
  | cons e candidates ih =>
    obtain ⟨hne, hrest⟩ := not_or.mp (mt List.mem_cons.mpr h)
    obtain ⟨hroutes, hquarantined⟩ := RoutingTables.add_other tables e.2 hne
    obtain ⟨hroutes', hquarantined'⟩ := ih (tables.add e.1 e.2) hrest
    exact ⟨hroutes'.trans hroutes, hquarantined'.trans hquarantined⟩

/-- With distinct names every candidate is settled. -/
lemma RoutingTables.settled_addAll {e : String × List (ToolOwner τ)} (hmem : e ∈ candidates)
    (howners : ∀ e ∈ candidates, e.2 ≠ []) (hnodup : (keys candidates).Nodup)
    (hroutes : ∀ name ∈ keys candidates, get? tables.routes name = none)
    (hquarantined : ∀ name ∈ keys candidates, get? tables.quarantined name = none) :
    NameSettled e.2 (get? (tables.addAll candidates).routes e.1)
      (get? (tables.addAll candidates).quarantined e.1) := by
  -- by induction on the candidates: the names to come are in no table yet
  induction candidates generalizing tables with
  | nil => exact absurd hmem List.not_mem_nil
  | cons head candidates ih =>
    obtain ⟨hnotin, hrest⟩ := List.nodup_cons.mp hnodup
    have hstep : tables.addAll (head :: candidates) =
        (tables.add head.1 head.2).addAll candidates := rfl
    rw [hstep]
    rcases List.mem_cons.mp hmem with rfl | hmem
    · obtain ⟨hsame, hsame'⟩ := RoutingTables.addAll_other
        (tables.add e.1 e.2) hnotin
      rw [hsame, hsame']
      exact RoutingTables.add_self (howners e List.mem_cons_self)
        (hroutes e.1 List.mem_cons_self) (hquarantined e.1 List.mem_cons_self)
    · have hother : ∀ name ∈ keys candidates,
          get? (tables.add head.1 head.2).routes name = get? tables.routes name ∧
            get? (tables.add head.1 head.2).quarantined name = get? tables.quarantined name := by
        intro name hname
        refine RoutingTables.add_other _ _ ?_
        rintro rfl
        exact hnotin hname
      refine ih hmem (fun e he => howners e (List.mem_cons_of_mem _ he)) hrest ?_ ?_
      · intro name hname
        rw [(hother name hname).1]
        exact hroutes name (List.mem_cons_of_mem _ hname)
      · intro name hname
        rw [(hother name hname).2]
        exact hquarantined name (List.mem_cons_of_mem _ hname)

/-- Every name is settled with the owners that offer it. -/
lemma settled_catalogRoutes (h : catalogRoutes rt bindings discovery = .ok tables)
    (name : String) :
    NameSettled (itemsOf name (offers rt bindings discovery)) (get? tables.routes name)
      (get? tables.quarantined name) := by
  obtain ⟨candidates, hcollect, hreturn⟩ := ok_of_bind h
  obtain rfl : RoutingTables.addAll {} candidates = tables := Except.ok.inj hreturn
  obtain rfl : candidates = appendAll [] (offers rt bindings discovery) :=
    collectCandidates_eq hcollect
  have hnodup : (keys (appendAll [] (offers rt bindings discovery))).Nodup := nodup_keys_appendAll
  have hget : get? (appendAll [] (offers rt bindings discovery)) name = _ := get?_appendAll
  by_cases hnone : itemsOf name (offers rt bindings discovery) = []
  · rw [if_pos hnone] at hget
    have hnotin : name ∉ keys (appendAll [] (offers rt bindings discovery)) := by
      rw [mem_keys_iff, hget]
      exact Bool.false_ne_true
    obtain ⟨hroutes, hquarantined⟩ := RoutingTables.addAll_other
      ({} : RoutingTables τ) hnotin
    rw [hroutes, hquarantined, hnone]
    exact .unknown
  · rw [if_neg hnone] at hget
    refine RoutingTables.settled_addAll (mem_of_get? hget) ?_ hnodup
      (fun _ _ => rfl) (fun _ _ => rfl)
    rintro ⟨key, owners⟩ hmem hnil
    have hkey := get?_of_mem hnodup hmem
    rw [get?_appendAll] at hkey
    split at hkey
    next => simp at hkey
    next hne => exact hne ((Option.some.inj hkey).trans hnil)

/-- Where every server that was asked has a binding, the routes are computed. -/
lemma exists_catalogRoutes (rt : PyRuntime) (h : ∀ e ∈ discovery, e.1 ∈ keys bindings) :
    ∃ tables, catalogRoutes rt bindings discovery = .ok tables := by
  obtain ⟨candidates, hcandidates⟩ := exists_collectCandidates rt
    (fun e he => offeredTools_ok rt e.2 (h e he)) []
  refine ⟨RoutingTables.addAll {} candidates, ?_⟩
  unfold catalogRoutes
  rw [hcandidates]
  rfl

/-- Permuted owners of a name settle it in the same way, up to the order of its owners. -/
lemma NameSettled.perm {owners owners' : List (ToolOwner τ)} {route route' : Option (Route τ)}
    {quarantine quarantine' : Option (List String)} (h : NameSettled owners route quarantine)
    (h' : NameSettled owners' route' quarantine') (hperm : owners.Perm owners') :
    route' = route ∧ Option.Rel List.Perm quarantine quarantine' := by
  cases h with
  | unknown =>
    obtain rfl := hperm.nil_eq
    cases h'
    exact ⟨rfl, .none⟩
  | routed owner =>
    obtain rfl := List.singleton_perm.mp hperm
    cases h'
    exact ⟨rfl, .none⟩
  | quarantined owner other owners =>
    have hlength := hperm.length_eq
    cases h' with
    | unknown => simp at hlength
    | routed => simp at hlength
    | quarantined => exact ⟨rfl, .some (hperm.map ToolOwner.mcpName)⟩

/-- The routes of a catalog.  A name with one definition is routed to the server that gave it, a
name with more than one is quarantined with its owners, no other name is in a table, and the
order of the answers shows only in the order of these owners. -/
theorem catalogRoutes_exact (rt : PyRuntime) (bindings : List (String × BindingOutcome τ))
    (discovery discovery' : List (String × MCPDiscoveryOutcome))
    (hbindings : ∀ e ∈ discovery, e.1 ∈ keys bindings) (hperm : discovery.Perm discovery') :
    ∃ tables tables', catalogRoutes rt bindings discovery = .ok tables ∧
      catalogRoutes rt bindings discovery' = .ok tables' ∧
      ∀ name,
        (∀ owner, itemsOf name (offers rt bindings discovery) = [owner] →
          get? tables.routes name = some (makeRoute owner) ∧
            get? tables.quarantined name = none) ∧
        (1 < (itemsOf name (offers rt bindings discovery)).length →
          get? tables.routes name = none ∧ get? tables.quarantined name =
            some ((itemsOf name (offers rt bindings discovery)).map ToolOwner.mcpName)) ∧
        (itemsOf name (offers rt bindings discovery) = [] →
          get? tables.routes name = none ∧ get? tables.quarantined name = none) ∧
        get? tables'.routes name = get? tables.routes name ∧
        Option.Rel List.Perm (get? tables.quarantined name) (get? tables'.quarantined name) := by
  obtain ⟨tables, htables⟩ := exists_catalogRoutes rt hbindings
  have hbindings' : ∀ e ∈ discovery', e.1 ∈ keys bindings :=
    fun e he => hbindings e (hperm.mem_iff.mpr he)
  obtain ⟨tables', htables'⟩ := exists_catalogRoutes rt hbindings'
  refine ⟨tables, tables', htables, htables', fun name => ?_⟩
  have hsettled := settled_catalogRoutes htables name
  have hsettled' := settled_catalogRoutes htables' name
  have hsame := hsettled.perm hsettled' (itemsOf_perm (offers_perm hperm))
  refine ⟨?_, ?_, ?_, hsame⟩
  · intro owner howner
    rw [howner] at hsettled
    generalize get? tables.routes name = route, get? tables.quarantined name = quarantine
      at hsettled
    cases hsettled
    exact ⟨rfl, rfl⟩
  · intro hmany
    generalize itemsOf name (offers rt bindings discovery) = owners,
      get? tables.routes name = route, get? tables.quarantined name = quarantine
      at hsettled hmany ⊢
    cases hsettled with
    | unknown => simp at hmany
    | routed => simp at hmany
    | quarantined => exact ⟨rfl, rfl⟩
  · intro hnone
    rw [hnone] at hsettled
    generalize get? tables.routes name = route, get? tables.quarantined name = quarantine
      at hsettled
    cases hsettled
    exact ⟨rfl, rfl⟩

/-- The answer of a server that lists these names. -/
def answerWith (name : String) (names : List String) : MCPDiscoveryOutcome :=
  .protocolResult (.successWithTools ((name :: names).map fun name => [("name", .str name)])
    (List.cons_ne_nil _ _))

/-- Three answers that share a name, and one that is alone. -/
theorem catalogRoutes_exact_three :
    ∃ tables tables',
      catalogRoutes .ascii [("a", .bound 1), ("b", .bound 2), ("c", .disabled)]
        [("a", answerWith "t" ["u"]), ("b", answerWith "t" []), ("c", .disabled)] = .ok tables ∧
      catalogRoutes .ascii [("a", .bound 1), ("b", .bound 2), ("c", .disabled)]
        [("b", answerWith "t" []), ("a", answerWith "t" ["u"]), ("c", .disabled)] = .ok tables' ∧
      get? tables.quarantined "t" = some ["a", "b"] ∧ get? tables.routes "t" = none ∧
      (get? tables.routes "u").map Route.mcpName = some "a" ∧
      Option.Rel List.Perm (get? tables.quarantined "t") (get? tables'.quarantined "t") := by
  obtain ⟨tables, tables', htables, htables', hexact⟩ := catalogRoutes_exact .ascii
    [("a", .bound 1), ("b", .bound 2), ("c", .disabled)]
    [("a", answerWith "t" ["u"]), ("b", answerWith "t" []), ("c", .disabled)]
    [("b", answerWith "t" []), ("a", answerWith "t" ["u"]), ("c", .disabled)]
    (by decide) (List.Perm.swap ..)
  obtain ⟨-, hmany, -, -, hperm⟩ := hexact "t"
  obtain ⟨hone, -⟩ := hexact "u"
  obtain ⟨hroutes, hquarantined⟩ := hmany (by decide +kernel)
  obtain ⟨hrouted, -⟩ := hone ⟨"a", 1, [("name", .str "u")]⟩ rfl
  refine ⟨tables, tables', htables, htables', ?_, hroutes, ?_, hperm⟩
  · rw [hquarantined]
    decide +kernel
  · rw [hrouted]
    rfl

/-- One server that lists a name twice loses the name, and the order of two answers shows in the
owners of a quarantined name. -/
theorem listed_twice_not_routed :
    (∃ tables,
      catalogRoutes .ascii [("a", .bound 1)] [("a", answerWith "t" ["t"])] = .ok tables ∧
      (∀ name owner, (name, owner) ∈ offers .ascii [("a", .bound 1)]
        [("a", answerWith "t" ["t"])] → name = "t" ∧ owner.mcpName = "a") ∧
      get? tables.routes "t" = none ∧ get? tables.quarantined "t" = some ["a", "a"]) ∧
    (catalogRoutes .ascii [("a", .bound 1), ("b", .bound 2)]
        [("a", answerWith "t" []), ("b", answerWith "t" [])]).map RoutingTables.quarantined =
      .ok [("t", ["a", "b"])] ∧
    (catalogRoutes .ascii [("a", .bound 1), ("b", .bound 2)]
        [("b", answerWith "t" []), ("a", answerWith "t" [])]).map RoutingTables.quarantined =
      .ok [("t", ["b", "a"])] := by
  refine ⟨⟨⟨[], [("t", ["a", "a"])]⟩, rfl, ?_, rfl, rfl⟩, rfl, rfl⟩
  intro name owner hmem
  obtain ⟨-, hname, -, tools, nonempty, htool, hdiscovery⟩ := mem_offers.mp hmem
  obtain ⟨hmcp, houtcome⟩ := Prod.mk.inj (List.mem_singleton.mp hdiscovery)
  obtain rfl : tools = [[("name", .str "t")], [("name", .str "t")]] := by
    injection houtcome with houtcome
    injection houtcome
  have hdefinition : owner.definition = [("name", .str "t")] := by simpa using htool
  rw [hdefinition] at hname
  exact ⟨hname.symm.trans (by decide +kernel), hmcp⟩

end Trion.Mcp
