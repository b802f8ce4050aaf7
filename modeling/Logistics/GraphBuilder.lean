import Mathlib.Algebra.Order.Ring.Rat
import Mathlib.Data.Fintype.EquivFin

namespace Logistics.GraphBuilder

open List Function Option

structure MapEdge where
  target : String
  connectionType : String
  baseWeight : ℚ
  connectionConditions : List String
deriving DecidableEq

structure MapNode where
  nodeId : String
  nodeType : String
  connections : List MapEdge
deriving DecidableEq

def tenths (k : Nat) : ℚ := mkRat (Int.ofNat k) 10

def conditionBase : ℚ := tenths 10

def blockedCost : ℚ := tenths 0

def noConnection : ℚ := tenths 0

def typeModifiers : List (String × ℚ) :=
  [("road", tenths 10), ("rail", tenths 7), ("trail", tenths 13), ("tunnel", tenths 11), ("bridge", tenths 14),
    ("waterway", tenths 9), ("drone", tenths 12), ("manual", tenths 16)]

def modDefault : ℚ := tenths 10

def conditionModifiers : List (String × ℚ) :=
  [("infected_activity", tenths 3), ("weather_rain", tenths 2), ("foggy_visibility", tenths 1),
    ("cleared", -tenths 2), ("reinforced", -tenths 3)]

def calculateEdgeCost (edge : MapEdge) : ℚ :=
  if edge.connectionType = "blocked" then blockedCost
  else
    let typeMod := (typeModifiers.lookup edge.connectionType).getD modDefault
    let sumConditions := edge.connectionConditions.foldl
      (fun sum condition =>
        match conditionModifiers.lookup condition with
        | some modifier => sum + modifier
        | none => sum) (tenths 0)
    edge.baseWeight * typeMod * (conditionBase + sumConditions)

structure GraphData where
  size : Nat
  nodeToIndex : String → Option (Fin size)
  indexToNodeId : Fin size → String
  nodeIdToType : String → Option String
  adjMatrix : Fin size → Fin size → ℚ

section Build

variable (nodes : List MapNode)

def nodeToIndex : String → Option (Fin nodes.length) :=
  (finRange nodes.length).foldl
    (fun index i => update index (nodes.get i).nodeId (some i)) fun _ => none

def nodeIdToType : String → Option String :=
  nodes.foldl (fun types node => update types node.nodeId (some node.nodeType)) fun _ => none

abbrev CostMatrix (n : Nat) := Fin n → Fin n → ℚ

def setEntry {n : Nat} (adj : CostMatrix n) (row column : Fin n) (cost : ℚ) : CostMatrix n :=
  update adj row (update (adj row) column cost)

/-- One connection of the node with index `source`: unknown targets and costs that are not
positive are skipped. -/
def addConnection {n : Nat} (index : String → Option (Fin n)) (source : Fin n) (adj : CostMatrix n)
    (conn : MapEdge) : CostMatrix n :=
  match index conn.target with
  | none => adj
  | some target =>
    if noConnection < calculateEdgeCost conn then setEntry adj source target (calculateEdgeCost conn) else adj

def addNode {n : Nat} (index : String → Option (Fin n)) (adj : CostMatrix n) (node : MapNode) : CostMatrix n :=
  match index node.nodeId with
  | none => adj
  | some source => node.connections.foldl (addConnection index source) adj

def buildAdjacencyMatrix : GraphData where
  size := nodes.length
  nodeToIndex := nodeToIndex nodes
  indexToNodeId i := (nodes.get i).nodeId
  nodeIdToType := nodeIdToType nodes
  adjMatrix := nodes.foldl (addNode (nodeToIndex nodes)) fun _ _ => noConnection

end Build

theorem exists_relabelling {α β : Type} {l : List α} {l' : List β} (f : α → β) (h : (l.map f).Perm l')
    (hnodup : l'.Nodup) : ∃ e : Fin l.length ≃ Fin l'.length, ∀ i, l'.get (e i) = f (l.get i) := by
  have hindex (i : Fin l.length) : ∃ j : Fin l'.length, l'.get j = f (l.get i) :=
    mem_iff_get.mp (h.mem_iff.mp (mem_map_of_mem (get_mem l i)))
  choose e he using hindex
  have hinjective : Function.Injective e := by
    intro i j hij
    have hmap : (l.map f).Nodup := h.nodup_iff.mpr hnodup
    have heq : f (l.get i) = f (l.get j) := by rw [← he, ← he, hij]
    have hinj := nodup_iff_injective_get.mp hmap
    have hget (k : Fin l.length) : (l.map f).get (k.cast (length_map f).symm) = f (l.get k) := by simp
    have hcast := hinj ((hget i).trans (heq.trans (hget j).symm))
    exact Fin.cast_injective _ hcast
  have hcard : Fintype.card (Fin l.length) = Fintype.card (Fin l'.length) := by
    rw [Fintype.card_fin, Fintype.card_fin, ← h.length_eq, length_map]
  exact ⟨Equiv.ofBijective e ((Fintype.bijective_iff_injective_and_card e).mpr ⟨hinjective, hcard⟩), he⟩

section Keys

variable {ι κ β : Type} [DecidableEq κ] {key : ι → κ} {l : List ι} {i : ι}

theorem find?_of_not_mem {k : κ} (h : k ∉ l.map key) : l.find? (fun j => key j = k) = none := by
  rw [find?_eq_none]
  intro j hj hjk
  exact h (of_decide_eq_true hjk ▸ mem_map_of_mem hj)

theorem find?_of_mem (hnodup : (l.map key).Nodup) (hi : i ∈ l) : l.find? (fun j => key j = key i) = some i := by
  induction l with
  | nil => exact absurd hi not_mem_nil
  | cons j l ih =>
    obtain ⟨hj, hl⟩ := nodup_cons.mp hnodup
    rcases mem_cons.mp hi with rfl | hi
    · exact find?_cons_of_pos (by simp)
    · have hne : key j ≠ key i := fun heq => hj (heq ▸ mem_map_of_mem hi)
      rw [find?_cons_of_neg (by simpa using hne), ih hl hi]

theorem foldl_update (value : ι → β) (hnodup : (l.map key).Nodup) (table : κ → Option β) (k : κ) :
    l.foldl (fun table i => update table (key i) (some (value i))) table k =
      ((l.find? fun i => key i = k).map value).or (table k) := by
  induction l generalizing table with
  | nil => rfl
  | cons i l ih =>
    obtain ⟨hi, hl⟩ := nodup_cons.mp hnodup
    rw [foldl_cons, ih hl, update_apply]
    by_cases hk : key i = k
    · rw [find?_of_not_mem (hk ▸ hi), find?_cons_of_pos (by simpa using hk), if_pos hk.symm]
      rfl
    · rw [find?_cons_of_neg (by simpa using hk), if_neg (fun heq => hk heq.symm)]

end Keys

theorem noConnection_eq : noConnection = 0 := Rat.zero_mkRat 10

def edgeCost (target : String) (cost : ℚ) (connections : List MapEdge) : ℚ :=
  connections.foldl (fun cost conn =>
    if conn.target = target ∧ noConnection < calculateEdgeCost conn then calculateEdgeCost conn else cost) cost

theorem setEntry_apply {n : Nat} (adj : CostMatrix n) (source target row column : Fin n) (cost : ℚ) :
    setEntry adj source target cost row column = if row = source ∧ column = target then cost else adj row column := by
  rw [setEntry, update_apply]
  by_cases hrow : row = source
  · rw [if_pos hrow, update_apply, hrow]
    simp only [true_and]
  · rw [if_neg hrow, if_neg fun h => hrow h.1]

theorem edgeCost_nonneg {target : String} {cost : ℚ} (hcost : 0 ≤ cost) (connections : List MapEdge) :
    0 ≤ edgeCost target cost connections := by
  induction connections generalizing cost with
  | nil => exact hcost
  | cons conn connections ih =>
    rw [edgeCost, foldl_cons]
    apply ih
    split
    next h => exact (noConnection_eq ▸ h.2).le
    next => exact hcost

section Ids

variable {nodes : List MapNode} (hids : (nodes.map MapNode.nodeId).Nodup)

include hids

theorem nodup_finRange_ids : ((finRange nodes.length).map fun i => (nodes.get i).nodeId).Nodup := by
  have hmap : (finRange nodes.length).map (fun i => (nodes.get i).nodeId) = nodes.map MapNode.nodeId := by
    rw [← map_get_finRange nodes, List.map_map, map_get_finRange]
    rfl
  rwa [hmap]

theorem nodeToIndex_eq_some {id : String} {i : Fin nodes.length} :
    nodeToIndex nodes id = some i ↔ (nodes.get i).nodeId = id := by
  rw [nodeToIndex, foldl_update (fun i => i) (nodup_finRange_ids hids), or_none, Option.map_id']
  constructor
  · intro h
    simpa using find?_some h
  · rintro rfl
    exact find?_of_mem (nodup_finRange_ids hids) (mem_finRange i)

theorem nodeIdToType_get {node : MapNode} (hnode : node ∈ nodes) :
    nodeIdToType nodes node.nodeId = some node.nodeType := by
  rw [nodeIdToType, foldl_update MapNode.nodeType hids, find?_of_mem hids hnode]
  rfl

theorem addConnection_apply (adj : CostMatrix nodes.length)
    (source row column : Fin nodes.length) (conn : MapEdge) : addConnection (nodeToIndex nodes)
    source adj conn row column = if row = source ∧ conn.target = (nodes.get column).nodeId ∧
    noConnection < calculateEdgeCost conn then calculateEdgeCost conn else adj row column := by
  have hindex : nodeToIndex nodes conn.target = some column ↔ (nodes.get column).nodeId = conn.target :=
    nodeToIndex_eq_some hids
  rw [addConnection]
  cases htarget : nodeToIndex nodes conn.target with
  | none =>
    rw [htarget] at hindex
    exact (if_neg fun h => absurd (hindex.mpr h.2.1.symm) (some_ne_none _).symm).symm
  | some target =>
    rw [htarget, some_inj] at hindex
    by_cases hcost : noConnection < calculateEdgeCost conn
    · simp only [hcost, if_true, and_true, setEntry_apply, eq_comm (a := column), hindex, eq_comm (a := conn.target)]
    · simp only [hcost, if_false, and_false]

theorem foldl_addConnection (source : Fin nodes.length)
    (connections : List MapEdge) (adj : CostMatrix nodes.length) (row column : Fin nodes.length) :
    connections.foldl (addConnection (nodeToIndex nodes) source) adj row column =
      if row = source then edgeCost (nodes.get column).nodeId (adj row column) connections else adj row column := by
  induction connections generalizing adj with
  | nil => exact (ite_self _).symm
  | cons conn connections ih =>
    rw [foldl_cons, ih, addConnection_apply hids, edgeCost, edgeCost, foldl_cons]
    by_cases hrow : row = source
    · simp only [hrow, true_and, if_true]
    · simp only [hrow, false_and, if_false]

theorem addNode_apply (adj : CostMatrix nodes.length) (node : MapNode)
    (row column : Fin nodes.length) : addNode (nodeToIndex nodes) adj node row column = if node.nodeId =
    (nodes.get row).nodeId then edgeCost (nodes.get column).nodeId (adj row column)
    node.connections else adj row column := by
  have hindex : nodeToIndex nodes node.nodeId = some row ↔ (nodes.get row).nodeId = node.nodeId :=
    nodeToIndex_eq_some hids
  rw [addNode]
  cases hsource : nodeToIndex nodes node.nodeId with
  | none =>
    rw [hsource] at hindex
    exact (if_neg fun h => absurd (hindex.mpr h.symm) (some_ne_none _).symm).symm
  | some source =>
    rw [hsource, some_inj] at hindex
    simp only [foldl_addConnection hids, eq_comm (a := row), hindex, eq_comm (a := node.nodeId)]

theorem foldl_addNode (rest : List MapNode)
    (hrest : (rest.map MapNode.nodeId).Nodup) (adj : CostMatrix nodes.length) (row column : Fin nodes.length) :
    rest.foldl (addNode (nodeToIndex nodes)) adj row column =
      ((rest.find? fun node => node.nodeId = (nodes.get row).nodeId).elim (adj row column)
        fun node => edgeCost (nodes.get column).nodeId (adj row column) node.connections) := by
  induction rest generalizing adj with
  | nil => rfl
  | cons node rest ih =>
    obtain ⟨hnode, hrest⟩ := nodup_cons.mp hrest
    rw [foldl_cons, ih hrest, addNode_apply hids]
    by_cases hrow : node.nodeId = (nodes.get row).nodeId
    · rw [find?_of_not_mem (hrow ▸ hnode), find?_cons_of_pos (by simpa using hrow), if_pos hrow]
      rfl
    · rw [find?_cons_of_neg (by simpa using hrow), if_neg hrow]

theorem adjMatrix_get (row column : Fin nodes.length) : (buildAdjacencyMatrix nodes).adjMatrix row column =
      edgeCost (nodes.get column).nodeId noConnection (nodes.get row).connections := by
  refine (foldl_addNode hids nodes hids _ row column).trans ?_
  rw [find?_of_mem hids (get_mem nodes row)]
  rfl

theorem adjMatrix_nonneg (row column : Fin nodes.length) : 0 ≤ (buildAdjacencyMatrix nodes).adjMatrix row column := by
  rw [adjMatrix_get hids]
  exact edgeCost_nonneg noConnection_eq.ge _

theorem indexToNodeId_injective : Function.Injective (buildAdjacencyMatrix nodes).indexToNodeId := by
  intro i j hij
  have hi := (nodeToIndex_eq_some hids).mpr hij
  exact some.inj (hi.symm.trans ((nodeToIndex_eq_some hids).mpr rfl))

end Ids

structure Relabelled (graph graph' : GraphData) (e : Fin graph.size ≃ Fin graph'.size) : Prop where
  nodeToIndex : ∀ id, graph'.nodeToIndex id = (graph.nodeToIndex id).map e
  indexToNodeId : ∀ i, graph'.indexToNodeId (e i) = graph.indexToNodeId i
  nodeIdToType : ∀ i, graph'.nodeIdToType (graph.indexToNodeId i) = graph.nodeIdToType (graph.indexToNodeId i)
  adjMatrix : ∀ i j, graph'.adjMatrix (e i) (e j) = graph.adjMatrix i j

theorem relabelled_of_perm {nodes nodes' : List MapNode} (hperm : nodes.Perm nodes')
    (hids : (nodes.map MapNode.nodeId).Nodup)
    : ∃ e, Relabelled (buildAdjacencyMatrix nodes) (buildAdjacencyMatrix nodes') e := by
  have hids' : (nodes'.map MapNode.nodeId).Nodup := (hperm.map _).nodup_iff.mp hids
  have hmap : (nodes.map id).Perm nodes' := by rwa [List.map_id]
  obtain ⟨e, he⟩ := exists_relabelling id hmap (Nodup.of_map _ hids')
  have hcost (i j : Fin nodes.length) : edgeCost (nodes'.get (e j)).nodeId noConnection (nodes'.get (e i)).connections =
      edgeCost (nodes.get j).nodeId noConnection (nodes.get i).connections := by
    rw [he, he]
    rfl
  refine ⟨e, ?_, ?_, ?_, ?_⟩
  · intro id
    ext j
    obtain ⟨i, rfl⟩ := e.surjective j
    have hsome : (nodeToIndex nodes id).map e = some (e i) ↔ nodeToIndex nodes id = some i := by simp
    refine (nodeToIndex_eq_some hids').trans ?_
    rw [he]
    exact (nodeToIndex_eq_some hids).symm.trans hsome.symm
  · intro i
    exact congrArg MapNode.nodeId (he i)
  · intro i
    have hi := get_mem nodes i
    exact (nodeIdToType_get hids' (hperm.mem_iff.mp hi)).trans (nodeIdToType_get hids hi).symm
  · intro i j
    exact (adjMatrix_get hids' (e i) (e j)).trans ((hcost i j).trans (adjMatrix_get hids i j).symm)

end Logistics.GraphBuilder
