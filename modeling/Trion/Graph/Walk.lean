import Trion.Graph.Store
import Trion.Library.Levels
import Mathlib.Data.List.Sort

/-!
# The walk through the memory graph

`graph_walk` gathers the nodes around its start nodes level by level, sorts them by confidence and
depth and cuts the list off at the limit.  It is a search by levels; so each node that it returns
carries its distance from the start nodes, and it returns all near nodes if the limit does not
stop it.
-/

namespace Trion.Graph

open Levels

/-! ### The walk -/

/-- A node with the depth at which the walk found it. -/
structure WalkedNode where
  node : Node
  depth : ℕ
deriving DecidableEq, Repr

/-- The variables of the walk. -/
structure WalkState where
  visited : List ℤ := []
  results : List WalkedNode := []
  nextLevel : List ℤ := []

/-- The order of the results: the higher confidence first, then the lower depth. -/
def WalkedNode.Precedes (a b : WalkedNode) : Prop :=
  b.node.confidence < a.node.confidence ∨
    a.node.confidence = b.node.confidence ∧ a.depth ≤ b.depth

instance : DecidableRel WalkedNode.Precedes := fun _ _ => inferInstanceAs (Decidable (_ ∨ _))

/-- `xs[:limit]`: a negative limit leaves out the end. -/
def upTo {α : Type*} (limit : ℤ) (xs : List α) : List α :=
  if 0 ≤ limit then xs.take limit.toNat else xs.take (xs.length - limit.natAbs)

namespace GraphStore

variable (g : GraphStore)

/-- The nodes that the walk goes on to. -/
def outgoing (nodeId : ℤ) : List ℤ := (g.getNeighbors nodeId none .outgoing).map Neighbor.nodeId

/-- One turn of the inner loop of `graph_walk`. -/
def visitNode (d : ℕ) (s : WalkState) (nodeId : ℤ) : WalkState :=
  if nodeId ∈ s.visited then s
  else
    { visited := nodeId :: s.visited
      results := s.results ++ ((g.getNode nodeId).map fun node => ⟨node, d⟩).toList
      nextLevel := s.nextLevel ++ (g.outgoing nodeId).filter fun b => b ∉ nodeId :: s.visited }

/-- The outer loop of `graph_walk`. -/
def walkLevels (limit : ℤ) : ℕ → ℕ → List ℤ → WalkState → List WalkedNode
  | 0, _, _, s => s.results
  | rounds + 1, d, currentLevel, s =>
    let s := currentLevel.foldl (g.visitNode d) { s with nextLevel := [] }
    if limit ≤ s.results.length then s.results
    else walkLevels limit rounds (d + 1) s.nextLevel s

/-- `graph_walk`. -/
def graphWalk (startNodeIds : List ℤ) (depth limit : ℤ) : List WalkedNode :=
  upTo limit ((g.walkLevels limit depth.toNat 0 startNodeIds {}).mergeSort fun a b =>
    a.Precedes b)

/-- A stored edge leads from the one node to the other, and this one exists. -/
def Leads (a b : ℤ) : Prop :=
  g.Has b ∧ ∃ e ∈ g.edges, e.srcNodeId = a ∧ e.dstNodeId = b

end GraphStore

/-- What the walk promises. -/
structure IsWalk (g : GraphStore) (startNodeIds : List ℤ) (depth limit : ℤ)
    (walked : List WalkedNode) : Prop where
  distinct : (walked.map fun w => w.node.id).Nodup
  stored : ∀ w ∈ walked, w.node ∈ g.nodes
  distance : ∀ w ∈ walked, IsDistance g.Leads startNodeIds w.depth w.node.id
  within : ∀ w ∈ walked, (w.depth : ℤ) < depth
  sorted : walked.Pairwise WalkedNode.Precedes
  complete : (walked.length : ℤ) < limit → ∀ node ∈ g.nodes, ∀ n : ℕ, (n : ℤ) < depth →
    Reaches g.Leads startNodeIds n node.id → node ∈ walked.map WalkedNode.node

/-! ### The edges of the walk -/

namespace GraphStore

variable {g : GraphStore} {nodeId a b : ℤ} {node : Node}

lemma getNode_eq_some : g.getNode nodeId = some node ↔ node ∈ g.nodes ∧ node.id = nodeId := by
  unfold getNode
  constructor
  · intro h
    exact ⟨List.mem_of_find?_eq_some h, by simpa using List.find?_some h⟩
  · rintro ⟨hmem, rfl⟩
    cases hfind : g.nodes.find? fun other => other.id = node.id with
    | none => exact absurd (decide_eq_true rfl) (List.find?_eq_none.mp hfind node hmem)
    | some other =>
      have hid : other.id = node.id := by simpa using List.find?_some hfind
      have hother := List.mem_of_find?_eq_some hfind
      rw [List.inj_on_of_nodup_map g.nodeIds hother hmem hid]

lemma mem_outgoing : b ∈ g.outgoing a ↔ g.Leads a b := by
  unfold outgoing getNeighbors Leads Has
  simp only [List.mem_map, List.mem_mergeSort, List.mem_filterMap, List.mem_filter,
    Option.map_eq_some_iff, getNode_eq_some]
  constructor
  · rintro ⟨_, ⟨e, ⟨he, hwanted⟩, node, ⟨hnode, hid⟩, rfl⟩, rfl⟩
    exact ⟨⟨node, hnode, rfl⟩, e, he, (of_decide_eq_true hwanted).1, hid.symm⟩
  · rintro ⟨⟨node, hnode, rfl⟩, e, he, hsrc, hdst⟩
    have hwanted : Direction.outgoing.near e = a ∧ ((none : Option String).getD "" ≠ "" →
        e.edgeType = (none : Option String).getD "") := ⟨hsrc, fun htype => absurd rfl htype⟩
    exact ⟨_, ⟨e, ⟨he, decide_eq_true hwanted⟩, node, ⟨hnode, hdst.symm⟩, rfl⟩, rfl⟩

lemma leads_outgoing : Levels.Leads g.outgoing = g.Leads := by
  funext a b
  exact propext mem_outgoing

end GraphStore

/-! ### The walk as a search by levels -/

section Search

variable {g : GraphStore} {d rounds : ℕ} {s : WalkState} {found : Search ℤ} {nodeId : ℤ}
  {level : List ℤ} {limit : ℤ} {visited : List (ℤ × ℕ)}

/-- The nodes that have been visited and that exist, with their depths. -/
def walkedNodes (g : GraphStore) (visited : List (ℤ × ℕ)) : List WalkedNode :=
  visited.filterMap fun p => (g.getNode p.1).map fun node => ⟨node, p.2⟩

/-- The walk and the search by levels have done the same. -/
structure Follows (g : GraphStore) (s : WalkState) (found : Search ℤ) : Prop where
  visited : s.visited = found.nodes.reverse
  results : s.results = walkedNodes g found.visited
  nextLevel : s.nextLevel = found.frontier

lemma Follows.visit (h : Follows g s found) :
    Follows g (g.visitNode d s nodeId) (Levels.visit g.outgoing d found nodeId) := by
  have hmem : ∀ b, b ∈ s.visited ↔ b ∈ found.nodes := fun b => by
    rw [h.visited, List.mem_reverse]
  unfold GraphStore.visitNode Levels.visit
  by_cases hvisited : nodeId ∈ found.nodes
  · rwa [if_pos ((hmem nodeId).mpr hvisited), if_pos hvisited]
  · rw [if_neg fun hold => hvisited ((hmem nodeId).mp hold), if_neg hvisited]
    refine ⟨?_, ?_, ?_⟩
    · rw [h.visited, Search.nodes, Search.nodes, List.map_append, List.reverse_append]
      rfl
    · rw [h.results, walkedNodes, walkedNodes, List.filterMap_append]
      refine congrArg (_ ++ ·) ?_
      cases hnode : g.getNode nodeId <;> simp [hnode]
    · simp only [h.nextLevel, List.mem_cons, hmem]

lemma Follows.foldl (h : Follows g s found) :
    Follows g (level.foldl (g.visitNode d) s) (level.foldl (Levels.visit g.outgoing d) found) := by
  induction level generalizing s found with
  | nil => exact h
  | cons nodeId level ih => exact ih h.visit

/-- The walk gathers the nodes of the search by levels. -/
lemma walkLevels_eq (hvisited : s.visited = (visited.map Prod.fst).reverse)
    (hresults : s.results = walkedNodes g visited) :
    g.walkLevels limit rounds d level s =
      walkedNodes g (Levels.search g.outgoing
        (fun visited => limit ≤ (walkedNodes g visited).length) rounds d level visited) := by
  induction rounds generalizing d level s visited with
  | zero => exact hresults
  | succ rounds ih =>
    have hstart : Follows g { s with nextLevel := [] } ⟨visited, []⟩ :=
      ⟨hvisited, hresults, rfl⟩
    have hlevel : Follows g (level.foldl (g.visitNode d) { s with nextLevel := [] })
        (level.foldl (Levels.visit g.outgoing d) ⟨visited, []⟩) := hstart.foldl
    rw [GraphStore.walkLevels, Levels.search, hlevel.results, hlevel.nextLevel, sweep]
    split
    · rename_i hlimit
      rw [if_pos (decide_eq_true hlimit)]
    · rename_i hlimit
      rw [if_neg fun h => hlimit (of_decide_eq_true h)]
      exact ih hlevel.visited hlevel.results

end Search

/-! ### What the walk promises -/

section Walk

variable {g : GraphStore} {startNodeIds : List ℤ} {e : ℕ} {visited : List (ℤ × ℕ)}
  {w : WalkedNode} {limit : ℤ} {α : Type*} {xs : List α}

lemma mem_walkedNodes :
    w ∈ walkedNodes g visited ↔ w.node ∈ g.nodes ∧ (w.node.id, w.depth) ∈ visited := by
  unfold walkedNodes
  simp only [List.mem_filterMap, Option.map_eq_some_iff, GraphStore.getNode_eq_some]
  constructor
  · rintro ⟨⟨_, d⟩, hmem, node, ⟨hnode, rfl⟩, rfl⟩
    exact ⟨hnode, hmem⟩
  · rintro ⟨hnode, hmem⟩
    exact ⟨_, hmem, w.node, ⟨hnode, rfl⟩, rfl⟩

lemma ids_walkedNodes_sublist :
    ((walkedNodes g visited).map fun w => w.node.id).Sublist (visited.map Prod.fst) := by
  induction visited with
  | nil => exact .slnil
  | cons p visited ih =>
    unfold walkedNodes at ih ⊢
    cases hnode : g.getNode p.1 with
    | none =>
      rw [List.filterMap_cons_none (by rw [hnode]; rfl)]
      exact ih.cons _
    | some node =>
      rw [List.filterMap_cons_some (by rw [hnode]; rfl), List.map_cons, List.map_cons,
        ← (GraphStore.getNode_eq_some.mp hnode).2]
      exact ih.cons_cons _

lemma upTo_sublist : (upTo limit xs).Sublist xs := by
  unfold upTo
  split <;> exact List.take_sublist _ _

/-- A list that is cut off has the length of the limit. -/
lemma upTo_eq_self (h : ((upTo limit xs).length : ℤ) < limit) :
    upTo limit xs = xs ∧ (xs.length : ℤ) < limit := by
  unfold upTo at h ⊢
  split at h
  · rename_i hlimit
    rw [List.length_take] at h
    have hlen : xs.length < limit.toNat := by omega
    rw [if_pos hlimit, List.take_of_length_le (Nat.le_of_lt hlen)]
    exact ⟨rfl, by omega⟩
  · omega

lemma precedes_trans (a b c : WalkedNode) (hab : decide (a.Precedes b) = true)
    (hbc : decide (b.Precedes c) = true) : decide (a.Precedes c) = true := by
  simp only [decide_eq_true_eq] at hab hbc ⊢
  rcases hab with hab | ⟨hab, hdab⟩ <;> rcases hbc with hbc | ⟨hbc, hdbc⟩
  · exact .inl (hbc.trans hab)
  · exact .inl (hbc ▸ hab)
  · exact .inl (hab ▸ hbc)
  · exact .inr ⟨hab.trans hbc, hdab.trans hdbc⟩

lemma precedes_total (a b : WalkedNode) :
    (decide (a.Precedes b) || decide (b.Precedes a)) = true := by
  simp only [Bool.or_eq_true, decide_eq_true_eq]
  rcases lt_trichotomy a.node.confidence b.node.confidence with hlt | heq | hgt
  · exact .inr (.inl hlt)
  · rcases Nat.le_total a.depth b.depth with hle | hle
    · exact .inl (.inr ⟨heq, hle⟩)
    · exact .inr (.inr ⟨heq.symm, hle⟩)
  · exact .inl (.inl hgt)

/-- The walk before it is sorted and cut off: it holds the nodes that are less than some number of
steps away, and this number is the depth unless the limit has been reached. -/
lemma exists_labelled (g : GraphStore) (startNodeIds : List ℤ) (depth limit : ℤ) :
    ∃ e ≤ depth.toNat, ∃ visited, Labelled g.outgoing startNodeIds e visited ∧
      g.walkLevels limit depth.toNat 0 startNodeIds {} = walkedNodes g visited ∧
      (limit ≤ (walkedNodes g visited).length ∨ e = depth.toNat) := by
  obtain ⟨e, hle, hlabelled, hend⟩ := (swept_start g.outgoing startNodeIds).search
    (fun visited => limit ≤ (walkedNodes g visited).length) depth.toNat
  rw [Nat.zero_add] at hle hend
  exact ⟨e, hle, _, hlabelled, walkLevels_eq rfl rfl, hend.imp_left of_decide_eq_true⟩

end Walk

end Trion.Graph
