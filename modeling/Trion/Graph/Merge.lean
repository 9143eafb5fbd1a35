import Trion.Graph.Store

/-!
# Merging nodes of the memory graph

`graph_merge_nodes` copies the edges of every listed node to the first one and deletes the node.
The first node keeps its edges, and no edge from it to itself is created, only if it is not listed
again and no edge joins two listed nodes.
-/

namespace Trion.Graph

namespace GraphStore

/-! ### The merge -/

variable (primaryId : ℤ) (clock : ℤ → String)

/-- An edge of a listed node is copied to the first node. -/
def copyEdge (nodeId : ℤ) (g : GraphStore) (edge : EdgeRecord) : GraphStore :=
  let now := clock (g.lastEdgeId + 1)
  if edge.source = nodeId then (g.addEdge primaryId edge.target edge.type edge.weight now).2
  else if edge.target = nodeId then (g.addEdge edge.source primaryId edge.type edge.weight now).2
  else g

/-- One turn of the loop of `graph_merge_nodes`. -/
def mergeNode (g : GraphStore) (nodeId : ℤ) : GraphStore :=
  ((g.getEdges nodeId).foldl (copyEdge primaryId clock nodeId) g).deleteNode nodeId

/-- What `graph_merge_nodes` answers. -/
structure MergeAnswer where
  merged : ℕ
  primaryNode : ℤ
  deletedNodes : List ℤ
deriving DecidableEq, Repr

/-- `graph_merge_nodes`. -/
def graphMergeNodes (g : GraphStore) (clock : ℤ → String) (nodeIds : List ℤ) :
    Except String MergeAnswer × GraphStore :=
  match nodeIds with
  | primaryId :: nodeId :: rest =>
    (.ok ⟨(nodeId :: rest).length, primaryId, nodeId :: rest⟩,
      (nodeId :: rest).foldl (mergeNode primaryId clock) g)
  | _ => (.error "Need at least 2 nodes to merge", g)

/-- The edge is stored, perhaps with another weight. -/
def Stored (g : GraphStore) (e : Edge) : Prop :=
  ∃ old ∈ g.edges, old.id = e.id ∧ old.Joins e.srcNodeId e.dstNodeId e.edgeType

/-- What a merge has to do with the listed nodes, of which the first is to stay. -/
structure Merges (g : GraphStore) (primaryId : ℤ) (nodeIds : List ℤ) (after : GraphStore) :
    Prop where
  keeps : after.Has primaryId
  gone : ∀ nodeId ∈ nodeIds, nodeId ≠ primaryId → ¬after.Has nodeId
  outgoing : ∀ e ∈ g.edges, e.srcNodeId ∈ primaryId :: nodeIds →
    e.dstNodeId ∉ primaryId :: nodeIds → after.HasEdge primaryId e.dstNodeId e.edgeType
  incoming : ∀ e ∈ g.edges, e.dstNodeId ∈ primaryId :: nodeIds →
    e.srcNodeId ∉ primaryId :: nodeIds → after.HasEdge e.srcNodeId primaryId e.edgeType
  noLoop : ∀ e ∈ after.edges, e.srcNodeId = primaryId → e.dstNodeId = primaryId → g.Stored e
  unchanged : ∀ e : Edge, e.srcNodeId ∉ primaryId :: nodeIds →
    e.dstNodeId ∉ primaryId :: nodeIds → (e ∈ after.edges ↔ e ∈ g.edges)

/-! ### One edge -/

section Edge

variable {g : GraphStore} {src dst a b : ℤ} {edgeType t : String} {weight : ℚ} {now : String}
  {e : Edge} {nodeId : ℤ}

/-- What `add_edge` does: an edge that exists gets another weight, and one that does not is
inserted. -/
lemma addEdge_cases (g : GraphStore) (src dst : ℤ) (edgeType : String) (weight : ℚ)
    (now : String) :
    (∃ existing ∈ g.edges, existing.Joins src dst edgeType ∧
      (g.addEdge src dst edgeType weight now).2 =
        g.setWeight existing.id (min (existing.weight + weight) 1)) ∨
    ¬g.HasEdge src dst edgeType ∧
      (g.addEdge src dst edgeType weight now).2 = g.insertEdge src dst edgeType weight now := by
  unfold addEdge
  cases hfind : g.edges.find? fun e => e.Joins src dst edgeType with
  | some existing =>
    refine .inl ⟨existing, List.mem_of_find?_eq_some hfind, ?_, rfl⟩
    simpa using List.find?_some hfind
  | none =>
    refine .inr ⟨?_, rfl⟩
    rintro ⟨e, he, hjoins⟩
    exact List.find?_eq_none.mp hfind e he (decide_eq_true hjoins)

lemma nodes_addEdge : (g.addEdge src dst edgeType weight now).2.nodes = g.nodes := by
  rcases addEdge_cases g src dst edgeType weight now with ⟨_, -, -, heq⟩ | ⟨-, heq⟩ <;>
    rw [heq] <;> rfl

lemma hasEdge_addEdge :
    (g.addEdge src dst edgeType weight now).2.HasEdge a b t ↔
      g.HasEdge a b t ∨ src = a ∧ dst = b ∧ edgeType = t := by
  rcases addEdge_cases g src dst edgeType weight now with
    ⟨existing, hmem, hjoins, heq⟩ | ⟨-, heq⟩
  · rw [heq]
    constructor
    · rintro ⟨e, he, hends⟩
      obtain ⟨old, hold, rfl⟩ := List.mem_map.mp he
      exact .inl ⟨old, hold, hends⟩
    · rintro (⟨e, he, hends⟩ | ⟨rfl, rfl, rfl⟩)
      · exact ⟨_, List.mem_map_of_mem he, hends⟩
      · exact ⟨_, List.mem_map_of_mem hmem, hjoins⟩
  · rw [heq]
    constructor
    · rintro ⟨e, he, hends⟩
      rcases List.mem_append.mp he with hold | hnew
      · exact .inl ⟨e, hold, hends⟩
      · rw [List.mem_singleton.mp hnew] at hends
        exact .inr hends
    · rintro (⟨e, he, hends⟩ | hends)
      · exact ⟨e, List.mem_append_left _ he, hends⟩
      · exact ⟨_, List.mem_append_right _ (List.mem_singleton_self _), hends⟩

/-- The other edges stay as they are. -/
lemma mem_edges_addEdge (h : ¬e.Joins src dst edgeType) :
    e ∈ (g.addEdge src dst edgeType weight now).2.edges ↔ e ∈ g.edges := by
  rcases addEdge_cases g src dst edgeType weight now with
    ⟨existing, hmem, hjoins, heq⟩ | ⟨-, heq⟩
  · have hother : ∀ old ∈ g.edges, ¬old.Joins src dst edgeType →
        old.weighted existing.id (min (existing.weight + weight) 1) = old := by
      intro old hold hends
      have hid : old.id ≠ existing.id := fun hid =>
        hends (List.inj_on_of_nodup_map g.edgeIds hold hmem hid ▸ hjoins)
      rw [Edge.weighted, if_neg hid]
    rw [heq]
    constructor
    · intro he
      obtain ⟨old, hold, rfl⟩ := List.mem_map.mp he
      rwa [hother old hold h]
    · intro he
      exact List.mem_map.mpr ⟨e, he, hother e he h⟩
  · rw [heq]
    refine ⟨fun he => (List.mem_append.mp he).resolve_right fun hnew => h ?_,
      fun he => List.mem_append_left _ he⟩
    rw [List.mem_singleton.mp hnew]
    exact ⟨rfl, rfl, rfl⟩

lemma stored_of_mem (he : e ∈ g.edges) : g.Stored e := ⟨e, he, rfl, rfl, rfl, rfl⟩

/-- Only an edge that did not exist is created. -/
lemma stored_of_mem_addEdge (he : e ∈ (g.addEdge src dst edgeType weight now).2.edges) :
    g.Stored e ∨ ¬g.HasEdge e.srcNodeId e.dstNodeId e.edgeType := by
  rcases addEdge_cases g src dst edgeType weight now with ⟨_, -, -, heq⟩ | ⟨hnone, heq⟩
  · rw [heq] at he
    obtain ⟨old, hold, rfl⟩ := List.mem_map.mp he
    exact .inl ⟨old, hold, rfl, rfl, rfl, rfl⟩
  · rw [heq] at he
    rcases List.mem_append.mp he with hold | hnew
    · exact .inl (stored_of_mem hold)
    · rw [List.mem_singleton.mp hnew]
      exact .inr hnone

lemma hasEdge_deleteNode :
    (g.deleteNode nodeId).HasEdge a b t ↔ g.HasEdge a b t ∧ a ≠ nodeId ∧ b ≠ nodeId := by
  constructor
  · rintro ⟨e, he, hends⟩
    obtain ⟨hold, htouches⟩ := List.mem_filter.mp he
    have hout : ¬e.Touches nodeId := of_decide_eq_true htouches
    rw [Edge.Touches, hends.1, hends.2.1, not_or] at hout
    exact ⟨⟨e, hold, hends⟩, hout⟩
  · rintro ⟨⟨e, he, hends⟩, ha, hb⟩
    refine ⟨e, List.mem_filter.mpr ⟨he, decide_eq_true ?_⟩, hends⟩
    rw [Edge.Touches, hends.1, hends.2.1, not_or]
    exact ⟨ha, hb⟩

lemma has_deleteNode : (g.deleteNode nodeId).Has a ↔ g.Has a ∧ a ≠ nodeId := by
  constructor
  · rintro ⟨node, hnode, rfl⟩
    obtain ⟨hold, hne⟩ := List.mem_filter.mp hnode
    exact ⟨⟨node, hold, rfl⟩, of_decide_eq_true hne⟩
  · rintro ⟨⟨node, hnode, rfl⟩, hne⟩
    exact ⟨node, List.mem_filter.mpr ⟨hnode, decide_eq_true hne⟩, rfl⟩

lemma mem_getEdges {edge : EdgeRecord} :
    edge ∈ g.getEdges nodeId ↔ ∃ e ∈ g.edges, e.Touches nodeId ∧
      ⟨e.srcNodeId, e.dstNodeId, e.edgeType, e.weight, e.createdAt⟩ = edge := by
  simp [getEdges, and_assoc]

end Edge

/-! ### One node -/

section Node

variable {primaryId nodeId a b : ℤ} {clock : ℤ → String} {g : GraphStore} {t : String}
  {edge : EdgeRecord} {edges : List EdgeRecord} {e : Edge}

/-- The copy of the edge joins the two nodes and has the type. -/
def CopyJoins (primaryId nodeId : ℤ) (edge : EdgeRecord) (a b : ℤ) (t : String) : Prop :=
  edge.type = t ∧ (edge.source = nodeId ∧ primaryId = a ∧ edge.target = b ∨
    edge.source ≠ nodeId ∧ edge.target = nodeId ∧ edge.source = a ∧ primaryId = b)

lemma hasEdge_copyEdge :
    (copyEdge primaryId clock nodeId g edge).HasEdge a b t ↔
      g.HasEdge a b t ∨ CopyJoins primaryId nodeId edge a b t := by
  unfold copyEdge CopyJoins
  by_cases hsource : edge.source = nodeId
  · rw [if_pos hsource, hasEdge_addEdge]
    simp only [hsource, true_and, ne_eq, not_true_eq_false, false_and, or_false]
    tauto
  · rw [if_neg hsource]
    by_cases htarget : edge.target = nodeId
    · rw [if_pos htarget, hasEdge_addEdge]
      simp only [hsource, htarget, false_and, ne_eq, not_false_eq_true, true_and, false_or]
      tauto
    · rw [if_neg htarget]
      simp [hsource, htarget]

lemma hasEdge_copies :
    (edges.foldl (copyEdge primaryId clock nodeId) g).HasEdge a b t ↔
      g.HasEdge a b t ∨ ∃ edge ∈ edges, CopyJoins primaryId nodeId edge a b t := by
  induction edges generalizing g with
  | nil => simp
  | cons edge edges ih =>
    rw [List.foldl_cons, ih, hasEdge_copyEdge, or_assoc, List.exists_mem_cons_iff]

lemma nodes_copies : (edges.foldl (copyEdge primaryId clock nodeId) g).nodes = g.nodes := by
  induction edges generalizing g with
  | nil => rfl
  | cons edge edges ih =>
    rw [List.foldl_cons, ih]
    unfold copyEdge
    dsimp only
    split
    · exact nodes_addEdge
    · split
      · exact nodes_addEdge
      · rfl

/-- Edges away from the first node stay as they are. -/
lemma mem_edges_copies (hsrc : e.srcNodeId ≠ primaryId) (hdst : e.dstNodeId ≠ primaryId) :
    e ∈ (edges.foldl (copyEdge primaryId clock nodeId) g).edges ↔ e ∈ g.edges := by
  induction edges generalizing g with
  | nil => rfl
  | cons edge edges ih =>
    rw [List.foldl_cons, ih]
    unfold copyEdge
    dsimp only
    split
    · exact mem_edges_addEdge fun hjoins => hsrc hjoins.1
    · split
      · exact mem_edges_addEdge fun hjoins => hdst hjoins.2.1
      · rfl

lemma stored_of_mem_copyEdge (he : e ∈ (copyEdge primaryId clock nodeId g edge).edges) :
    g.Stored e ∨ ¬g.HasEdge e.srcNodeId e.dstNodeId e.edgeType := by
  unfold copyEdge at he
  dsimp only at he
  split at he
  · exact stored_of_mem_addEdge he
  · split at he
    · exact stored_of_mem_addEdge he
    · exact .inl (stored_of_mem he)

lemma stored_of_mem_copies
    (he : e ∈ (edges.foldl (copyEdge primaryId clock nodeId) g).edges) :
    g.Stored e ∨ ¬g.HasEdge e.srcNodeId e.dstNodeId e.edgeType := by
  induction edges generalizing g with
  | nil => exact .inl (stored_of_mem he)
  | cons edge edges ih =>
    rcases ih he with ⟨middle, hmiddle, hid, hsrc, hdst, htype⟩ | hnone
    · have hends : ∀ old : Edge, old.Joins middle.srcNodeId middle.dstNodeId middle.edgeType →
          old.Joins e.srcNodeId e.dstNodeId e.edgeType := by
        rw [hsrc, hdst, htype]
        exact fun _ => id
      rcases stored_of_mem_copyEdge hmiddle with ⟨old, hold, hold_id, hjoins⟩ | hnone
      · exact .inl ⟨old, hold, hold_id.trans hid, hends old hjoins⟩
      · rw [← hsrc, ← hdst, ← htype]
        exact .inr hnone
    · exact .inr fun hold => hnone (hasEdge_copyEdge.mpr (.inl hold))

/-- The edges after a node has been merged: its edges have gone over to the first node. -/
lemma hasEdge_mergeNode :
    (mergeNode primaryId clock g nodeId).HasEdge a b t ↔
      (g.HasEdge a b t ∨ primaryId = a ∧ g.HasEdge nodeId b t ∨
        primaryId = b ∧ g.HasEdge a nodeId t) ∧ a ≠ nodeId ∧ b ≠ nodeId := by
  rw [mergeNode, hasEdge_deleteNode, hasEdge_copies]
  refine and_congr_left fun ⟨ha, hb⟩ => or_congr_right ⟨?_, ?_⟩
  · rintro ⟨edge, hedge, rfl, ⟨hsource, rfl, rfl⟩ | ⟨-, htarget, rfl, rfl⟩⟩
    · obtain ⟨e, he, -, rfl⟩ := mem_getEdges.mp hedge
      exact .inl ⟨rfl, e, he, hsource, rfl, rfl⟩
    · obtain ⟨e, he, -, rfl⟩ := mem_getEdges.mp hedge
      exact .inr ⟨rfl, e, he, rfl, htarget, rfl⟩
  · rintro (⟨rfl, e, he, hsrc, rfl, rfl⟩ | ⟨rfl, e, he, rfl, hdst, rfl⟩)
    · exact ⟨_, mem_getEdges.mpr ⟨e, he, .inl hsrc, rfl⟩, rfl, .inl ⟨hsrc, rfl, rfl⟩⟩
    · exact ⟨_, mem_getEdges.mpr ⟨e, he, .inr hdst, rfl⟩, rfl, .inr ⟨ha, hdst, rfl, rfl⟩⟩

lemma has_mergeNode : (mergeNode primaryId clock g nodeId).Has a ↔ g.Has a ∧ a ≠ nodeId := by
  rw [mergeNode, has_deleteNode, Has, nodes_copies]
  rfl

lemma mem_edges_mergeNode (hsrc : e.srcNodeId ≠ primaryId) (hdst : e.dstNodeId ≠ primaryId)
    (hout : ¬e.Touches nodeId) :
    e ∈ (mergeNode primaryId clock g nodeId).edges ↔ e ∈ g.edges := by
  rw [mergeNode, deleteNode, List.mem_filter, mem_edges_copies hsrc hdst]
  exact and_iff_left (decide_eq_true hout)

lemma stored_of_mem_mergeNode (he : e ∈ (mergeNode primaryId clock g nodeId).edges) :
    g.Stored e ∨ ¬g.HasEdge e.srcNodeId e.dstNodeId e.edgeType :=
  stored_of_mem_copies (List.mem_of_mem_filter he)

end Node

/-! ### All nodes -/

section Nodes

variable {primaryId a b : ℤ} {nodeIds : List ℤ} {clock : ℤ → String} {g : GraphStore} {t : String}
  {e : Edge}

lemma has_merge :
    (nodeIds.foldl (mergeNode primaryId clock) g).Has a ↔ g.Has a ∧ a ∉ nodeIds := by
  induction nodeIds generalizing g with
  | nil => simp
  | cons nodeId nodeIds ih =>
    rw [List.foldl_cons, ih, has_mergeNode, List.mem_cons, not_or, and_assoc]

lemma mem_edges_merge (hsrc : e.srcNodeId ∉ primaryId :: nodeIds)
    (hdst : e.dstNodeId ∉ primaryId :: nodeIds) :
    e ∈ (nodeIds.foldl (mergeNode primaryId clock) g).edges ↔ e ∈ g.edges := by
  induction nodeIds generalizing g with
  | nil => rfl
  | cons nodeId nodeIds ih =>
    simp only [List.mem_cons, not_or] at hsrc hdst ih
    rw [List.foldl_cons, ih ⟨hsrc.1, hsrc.2.2⟩ ⟨hdst.1, hdst.2.2⟩,
      mem_edges_mergeNode hsrc.1 hdst.1 fun htouches => htouches.elim hsrc.2.1 hdst.2.1]

lemma outgoing_merge (hout : primaryId ∉ nodeIds) (ha : a ∈ primaryId :: nodeIds)
    (hb : b ∉ primaryId :: nodeIds) (h : g.HasEdge a b t) :
    (nodeIds.foldl (mergeNode primaryId clock) g).HasEdge primaryId b t := by
  induction nodeIds generalizing g a with
  | nil =>
    rw [List.mem_singleton.mp ha] at h
    exact h
  | cons nodeId nodeIds ih =>
    simp only [List.mem_cons, not_or] at hout hb ih
    by_cases hnode : a = nodeId
    · rw [hnode] at h
      exact ih hout.2 (.inl rfl) ⟨hb.1, hb.2.2⟩
        (hasEdge_mergeNode.mpr ⟨.inr (.inl ⟨rfl, h⟩), hout.1, hb.2.1⟩)
    · simp only [List.mem_cons, hnode, false_or] at ha
      exact ih hout.2 ha ⟨hb.1, hb.2.2⟩ (hasEdge_mergeNode.mpr ⟨.inl h, hnode, hb.2.1⟩)

lemma incoming_merge (hout : primaryId ∉ nodeIds) (hb : b ∈ primaryId :: nodeIds)
    (ha : a ∉ primaryId :: nodeIds) (h : g.HasEdge a b t) :
    (nodeIds.foldl (mergeNode primaryId clock) g).HasEdge a primaryId t := by
  induction nodeIds generalizing g b with
  | nil =>
    rw [List.mem_singleton.mp hb] at h
    exact h
  | cons nodeId nodeIds ih =>
    simp only [List.mem_cons, not_or] at hout ha ih
    by_cases hnode : b = nodeId
    · rw [hnode] at h
      exact ih hout.2 (.inl rfl) ⟨ha.1, ha.2.2⟩
        (hasEdge_mergeNode.mpr ⟨.inr (.inr ⟨rfl, h⟩), ha.2.1, hout.1⟩)
    · simp only [List.mem_cons, hnode, false_or] at hb
      exact ih hout.2 hb ⟨ha.1, ha.2.2⟩ (hasEdge_mergeNode.mpr ⟨.inl h, ha.2.1, hnode⟩)

/-- The edges from the first node to itself come from edges between listed nodes. -/
lemma loop_merge (hout : primaryId ∉ nodeIds) :
    (nodeIds.foldl (mergeNode primaryId clock) g).HasEdge primaryId primaryId t ↔
      g.HasEdge primaryId primaryId t ∨ ∃ a ∈ primaryId :: nodeIds, ∃ b ∈ primaryId :: nodeIds,
        a ≠ b ∧ g.HasEdge a b t := by
  induction nodeIds generalizing g with
  | nil => simp
  | cons nodeId nodeIds ih =>
    rw [List.mem_cons, not_or] at hout
    rw [List.foldl_cons, ih hout.2]
    constructor
    · rintro (hloop | ⟨a, ha, b, hb, hab, hedge⟩)
      · rcases (hasEdge_mergeNode.mp hloop).1 with hold | ⟨-, hold⟩ | ⟨-, hold⟩
        · exact .inl hold
        · exact .inr ⟨nodeId, by simp, primaryId, by simp, Ne.symm hout.1, hold⟩
        · exact .inr ⟨primaryId, by simp, nodeId, by simp, hout.1, hold⟩
      · have hlisted : ∀ {c}, c ∈ primaryId :: nodeIds → c ∈ primaryId :: nodeId :: nodeIds :=
          fun hc => (List.mem_cons.mp hc).elim (fun h => h ▸ List.mem_cons_self)
            fun h => List.mem_cons_of_mem _ (List.mem_cons_of_mem _ h)
        obtain ⟨hold | ⟨-, hold⟩ | ⟨-, hold⟩, hane, hbne⟩ := hasEdge_mergeNode.mp hedge
        · exact .inr ⟨a, hlisted ha, b, hlisted hb, hab, hold⟩
        · exact .inr ⟨nodeId, by simp, b, hlisted hb, Ne.symm hbne, hold⟩
        · exact .inr ⟨a, hlisted ha, nodeId, by simp, hane, hold⟩
    · have hrest : ∀ {c}, c ∈ primaryId :: nodeId :: nodeIds → c ≠ nodeId →
          c ∈ primaryId :: nodeIds := by
        intro c hc hne
        simp only [List.mem_cons] at hc ⊢
        exact hc.imp_right fun h => h.resolve_left hne
      rintro (hloop | ⟨a, ha, b, hb, hab, hedge⟩)
      · exact .inl (hasEdge_mergeNode.mpr ⟨.inl hloop, hout.1, hout.1⟩)
      · by_cases hane : a = nodeId
        · -- the edge goes over to one from the first node
          subst hane
          by_cases hbp : b = primaryId
          · subst hbp
            exact .inl (hasEdge_mergeNode.mpr ⟨.inr (.inl ⟨rfl, hedge⟩), hout.1, hout.1⟩)
          · exact .inr ⟨primaryId, List.mem_cons_self, b, hrest hb (Ne.symm hab), Ne.symm hbp,
              hasEdge_mergeNode.mpr ⟨.inr (.inl ⟨rfl, hedge⟩), hout.1, Ne.symm hab⟩⟩
        · by_cases hbne : b = nodeId
          · -- the edge goes over to one to the first node
            subst hbne
            by_cases hap : a = primaryId
            · subst hap
              exact .inl (hasEdge_mergeNode.mpr ⟨.inr (.inr ⟨rfl, hedge⟩), hout.1, hout.1⟩)
            · exact .inr ⟨a, hrest ha hane, primaryId, List.mem_cons_self, hap,
                hasEdge_mergeNode.mpr ⟨.inr (.inr ⟨rfl, hedge⟩), hane, hout.1⟩⟩
          · exact .inr ⟨a, hrest ha hane, b, hrest hb hbne, hab,
              hasEdge_mergeNode.mpr ⟨.inl hedge, hane, hbne⟩⟩

/-- An edge from the first node to itself is created only if there was none. -/
lemma stored_of_mem_merge (hout : primaryId ∉ nodeIds)
    (he : e ∈ (nodeIds.foldl (mergeNode primaryId clock) g).edges)
    (hsrc : e.srcNodeId = primaryId) (hdst : e.dstNodeId = primaryId) :
    g.Stored e ∨ ¬g.HasEdge primaryId primaryId e.edgeType := by
  induction nodeIds generalizing g with
  | nil => exact .inl (stored_of_mem he)
  | cons nodeId nodeIds ih =>
    rw [List.mem_cons, not_or] at hout
    rcases ih hout.2 he with ⟨middle, hmiddle, hid, hsrc', hdst', htype⟩ | hnone
    · rw [hsrc] at hsrc'
      rw [hdst] at hdst'
      rcases stored_of_mem_mergeNode hmiddle with ⟨old, hold, hold_id, hends⟩ | hnone
      · rw [hsrc', hdst', htype] at hends
        exact .inl ⟨old, hold, hold_id.trans hid, by rwa [hsrc, hdst]⟩
      · rw [hsrc', hdst', htype] at hnone
        exact .inr hnone
    · exact .inr fun hold => hnone (hasEdge_mergeNode.mpr ⟨.inl hold, hout.1, hout.1⟩)

/-- The merge does what it has to do exactly if the first node is not listed again, and every type
of an edge between two listed nodes has an edge from the first node to itself already. -/
theorem merges_iff (g : GraphStore) (clock : ℤ → String) (primaryId : ℤ) (nodeIds : List ℤ)
    (hlisted : nodeIds ≠ []) (hexist : ∀ nodeId ∈ primaryId :: nodeIds, g.Has nodeId) :
    g.Merges primaryId nodeIds (g.graphMergeNodes clock (primaryId :: nodeIds)).2 ↔
      primaryId ∉ nodeIds ∧ ∀ e ∈ g.edges, e.srcNodeId ∈ primaryId :: nodeIds →
        e.dstNodeId ∈ primaryId :: nodeIds → e.srcNodeId ≠ e.dstNodeId →
          g.HasEdge primaryId primaryId e.edgeType := by
  have hafter : (g.graphMergeNodes clock (primaryId :: nodeIds)).2 =
      nodeIds.foldl (mergeNode primaryId clock) g := by
    cases nodeIds with
    | nil => exact absurd rfl hlisted
    | cons nodeId nodeIds => rfl
  rw [hafter]
  constructor
  · intro h
    have hout : primaryId ∉ nodeIds := (has_merge.mp h.keeps).2
    refine ⟨hout, fun e he hsrc hdst hne => ?_⟩
    have hloop : (nodeIds.foldl (mergeNode primaryId clock) g).HasEdge primaryId primaryId
        e.edgeType :=
      (loop_merge hout).mpr (.inr ⟨_, hsrc, _, hdst, hne, e, he, rfl, rfl, rfl⟩)
    obtain ⟨loop, hmem, hends⟩ := hloop
    obtain ⟨old, hold, -, hjoins⟩ := h.noLoop loop hmem hends.1 hends.2.1
    rw [hends.1, hends.2.1, hends.2.2] at hjoins
    exact ⟨old, hold, hjoins⟩
  · rintro ⟨hout, hloops⟩
    refine ⟨has_merge.mpr ⟨hexist _ List.mem_cons_self, hout⟩,
      fun nodeId hmem _ hhas => (has_merge.mp hhas).2 hmem,
      fun e he hsrc hdst => outgoing_merge hout hsrc hdst ⟨e, he, rfl, rfl, rfl⟩,
      fun e he hdst hsrc => incoming_merge hout hdst hsrc ⟨e, he, rfl, rfl, rfl⟩,
      fun e he hsrc hdst => ?_, fun e hsrc hdst => mem_edges_merge hsrc hdst⟩
    have hold : g.HasEdge primaryId primaryId e.edgeType := by
      rcases (loop_merge hout).mp ⟨e, he, hsrc, hdst, rfl⟩ with
        hold | ⟨a, ha, b, hb, hab, f, hf, rfl, rfl, htype⟩
      · exact hold
      · exact htype ▸ hloops f hf ha hb hab
    exact (stored_of_mem_merge hout he hsrc hdst).resolve_right (not_not_intro hold)

end Nodes

/-! ### Two graphs -/

/-- A node of the examples. -/
def factNode (id : ℤ) : Node :=
  ⟨id, "fact", none, "Tee", none, none, "2026-01-01 12:00:00", 1 / 2⟩

/-- Two equal facts and a third one to which the second leads. -/
def apartFacts : GraphStore :=
  ⟨[factNode 1, factNode 2, factNode 3], [⟨1, 2, 3, "semantic", 1, "2026-01-01 12:00:00"⟩], 1,
    by decide, by decide, by decide⟩

/-- Two equal facts that a semantic edge joins. -/
def joinedFacts : GraphStore :=
  ⟨[factNode 1, factNode 2], [⟨1, 2, 1, "semantic", 1, "2026-01-01 12:00:00"⟩], 1,
    by decide, by decide, by decide⟩

theorem merges_iff_apartFacts :
    apartFacts.Merges 1 [2]
      (apartFacts.graphMergeNodes (fun _ => "2026-01-02 12:00:00") [1, 2]).2 :=
  (merges_iff apartFacts _ 1 [2] (by decide) (by decide)).mpr ⟨by decide, by decide⟩

/-- The edge between the two facts becomes one from the first to itself. -/
theorem not_merges_joinedFacts :
    ¬∀ (g : GraphStore) (clock : ℤ → String) (primaryId : ℤ) (nodeIds : List ℤ), nodeIds ≠ [] →
      (∀ nodeId ∈ primaryId :: nodeIds, g.Has nodeId) →
        g.Merges primaryId nodeIds (g.graphMergeNodes clock (primaryId :: nodeIds)).2 := by
  intro h
  have hmerges := h joinedFacts (fun _ => "2026-01-02 12:00:00") 1 [2] (by decide) (by decide)
  obtain ⟨old, hold, -, hjoins⟩ := hmerges.noLoop
    ⟨2, 1, 1, "semantic", 1, "2026-01-02 12:00:00"⟩ (by decide) rfl rfl
  have hnone : ∀ e ∈ joinedFacts.edges, ¬e.Joins 1 1 "semantic" := by decide
  exact hnone old hold hjoins

end GraphStore

end Trion.Graph
