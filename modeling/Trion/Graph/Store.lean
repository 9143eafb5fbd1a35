import Mathlib.Data.Rat.Defs
import Mathlib.Data.List.Nodup
import Mathlib.Algebra.Order.Ring.Rat

/-!
# The store of the memory graph

`GraphStore` keeps the nodes and the edges of the memory graph in two tables.  The identifiers of
the rows are primary keys, and the identifiers of the edges are handed out upwards.  An edge names
its nodes by their identifiers; the database does not check that these nodes exist.
-/

namespace Trion.Graph

/-! ### The tables -/

/-- A row of `graph_nodes`. -/
structure Node where
  id : ℤ
  sourceType : String
  sourceId : Option ℤ
  content : String
  embedding : Option (List ℚ)
  conversationId : Option String
  createdAt : String
  confidence : ℚ
deriving DecidableEq, Repr

/-- A row of `graph_edges`. -/
structure Edge where
  id : ℤ
  srcNodeId : ℤ
  dstNodeId : ℤ
  edgeType : String
  weight : ℚ
  createdAt : String
deriving DecidableEq, Repr

/-- The edge leads from the one node to the other and has the type. -/
def Edge.Joins (e : Edge) (src dst : ℤ) (edgeType : String) : Prop :=
  e.srcNodeId = src ∧ e.dstNodeId = dst ∧ e.edgeType = edgeType

instance (e : Edge) (src dst : ℤ) (edgeType : String) : Decidable (e.Joins src dst edgeType) :=
  inferInstanceAs (Decidable (_ ∧ _))

/-- The edge starts or ends at the node. -/
def Edge.Touches (e : Edge) (nodeId : ℤ) : Prop := e.srcNodeId = nodeId ∨ e.dstNodeId = nodeId

instance (e : Edge) (nodeId : ℤ) : Decidable (e.Touches nodeId) :=
  inferInstanceAs (Decidable (_ ∨ _))

/-- The row with the identifier gets a new weight. -/
def Edge.weighted (edgeId : ℤ) (weight : ℚ) (e : Edge) : Edge :=
  { e with weight := if e.id = edgeId then weight else e.weight }

/-- The two tables, with their primary keys. -/
structure GraphStore where
  nodes : List Node
  edges : List Edge
  lastEdgeId : ℤ
  nodeIds : (nodes.map Node.id).Nodup
  edgeIds : (edges.map Edge.id).Nodup
  edgeIds_le : ∀ e ∈ edges, e.id ≤ lastEdgeId

namespace GraphStore

variable (g : GraphStore)

/-- There is a node with the identifier. -/
def Has (nodeId : ℤ) : Prop := ∃ node ∈ g.nodes, node.id = nodeId

instance (nodeId : ℤ) : Decidable (g.Has nodeId) :=
  inferInstanceAs (Decidable (∃ node ∈ g.nodes, node.id = nodeId))

/-- There is such an edge. -/
def HasEdge (src dst : ℤ) (edgeType : String) : Prop := ∃ e ∈ g.edges, e.Joins src dst edgeType

instance (src dst : ℤ) (edgeType : String) : Decidable (g.HasEdge src dst edgeType) :=
  inferInstanceAs (Decidable (∃ e ∈ g.edges, e.Joins src dst edgeType))

/-- `get_node`. -/
def getNode (nodeId : ℤ) : Option Node := g.nodes.find? fun node => node.id = nodeId

/-! ### Edges -/

/-- `UPDATE graph_edges SET weight = ? WHERE id = ?`. -/
def setWeight (edgeId : ℤ) (weight : ℚ) : GraphStore :=
  { g with
    edges := g.edges.map (Edge.weighted edgeId weight)
    edgeIds := by
      rw [List.map_map]
      exact g.edgeIds
    edgeIds_le := by
      intro e he
      obtain ⟨old, hold, rfl⟩ := List.mem_map.mp he
      exact g.edgeIds_le old hold }

/-- `INSERT INTO graph_edges`. -/
def insertEdge (src dst : ℤ) (edgeType : String) (weight : ℚ) (now : String) : GraphStore :=
  { g with
    edges := g.edges ++ [⟨g.lastEdgeId + 1, src, dst, edgeType, weight, now⟩]
    lastEdgeId := g.lastEdgeId + 1
    edgeIds := by
      rw [List.map_append, List.nodup_append]
      refine ⟨g.edgeIds, List.nodup_singleton _, ?_⟩
      rintro _ hmem _ hnew rfl
      obtain ⟨e, he, heq⟩ := List.mem_map.mp hmem
      have hle := g.edgeIds_le e he
      rw [heq, List.mem_singleton.mp hnew] at hle
      exact absurd hle (by simp)
    edgeIds_le := by
      intro e he
      rcases List.mem_append.mp he with hold | hnew
      · exact (g.edgeIds_le e hold).trans (by simp)
      · rw [List.mem_singleton.mp hnew] }

/-- `add_edge`: the weight of an edge that exists grows up to one. -/
def addEdge (src dst : ℤ) (edgeType : String) (weight : ℚ) (now : String) : ℤ × GraphStore :=
  match g.edges.find? fun e => e.Joins src dst edgeType with
  | some existing => (existing.id, g.setWeight existing.id (min (existing.weight + weight) 1))
  | none => (g.lastEdgeId + 1, g.insertEdge src dst edgeType weight now)

/-- What `get_edges` tells of an edge. -/
structure EdgeRecord where
  source : ℤ
  target : ℤ
  type : String
  weight : ℚ
  createdAt : String
deriving DecidableEq, Repr

/-- `get_edges`. -/
def getEdges (nodeId : ℤ) : List EdgeRecord :=
  (g.edges.filter fun e => e.Touches nodeId).map fun e =>
    ⟨e.srcNodeId, e.dstNodeId, e.edgeType, e.weight, e.createdAt⟩

/-- `delete_node`: the node goes with all its edges. -/
def deleteNode (nodeId : ℤ) : GraphStore :=
  { g with
    nodes := g.nodes.filter fun node => node.id ≠ nodeId
    edges := g.edges.filter fun e => ¬e.Touches nodeId
    nodeIds := g.nodeIds.sublist (List.filter_sublist.map _)
    edgeIds := g.edgeIds.sublist (List.filter_sublist.map _)
    edgeIds_le := fun e he => g.edgeIds_le e (List.mem_of_mem_filter he) }

/-! ### Neighbours -/

inductive Direction where
  | outgoing
  | incoming
deriving DecidableEq, Repr

/-- The end of an edge at which its neighbour is. -/
def Direction.far (direction : Direction) (e : Edge) : ℤ :=
  match direction with
  | .outgoing => e.dstNodeId
  | .incoming => e.srcNodeId

/-- The end of an edge at which the node is whose neighbours are asked for. -/
def Direction.near (direction : Direction) (e : Edge) : ℤ :=
  match direction with
  | .outgoing => e.srcNodeId
  | .incoming => e.dstNodeId

/-- A row of `get_neighbors`. -/
structure Neighbor where
  edgeId : ℤ
  nodeId : ℤ
  edgeType : String
  weight : ℚ
  content : String
  sourceType : String
deriving DecidableEq, Repr

/-- `get_neighbors`: an edge whose far end does not exist has no row, and an empty type is no
type. -/
def getNeighbors (nodeId : ℤ) (edgeType : Option String) (direction : Direction) :
    List Neighbor :=
  let edges := g.edges.filter fun e =>
    direction.near e = nodeId ∧ (edgeType.getD "" ≠ "" → e.edgeType = edgeType.getD "")
  let rows := edges.filterMap fun e =>
    (g.getNode (direction.far e)).map fun node =>
      ⟨e.id, node.id, e.edgeType, e.weight, node.content, node.sourceType⟩
  rows.mergeSort fun a b => b.weight ≤ a.weight

end GraphStore

end Trion.Graph
