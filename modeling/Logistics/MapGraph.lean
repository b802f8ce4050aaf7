import Logistics.GraphBuilder
import Logistics.JsonText

namespace Logistics.GraphBuilder

open JsonText List

abbrev Value := Doc ℚ

def extractString (obj : Value) (key : String) : String :=
  match obj.item key with
  | some (.string value) => value
  | _ => ""

def extractBool (obj : Value) (key : String) (defVal : Bool) : Bool :=
  match obj.item key with
  | some (.bool value) => value
  | _ => defVal

def extractDouble (obj : Value) (key : String) (defVal : ℚ) : ℚ :=
  match obj.item key with
  | some (.number value) => value
  | _ => defVal

def extractStringArray : Option Value → List String
  | some (.array items) => items.filterMap fun
      | .string value => some value
      | _ => none
  | _ => []

def parseEdge : Value → Option MapEdge
  | .object fields =>
    let edge : Value := .object fields
    some ⟨extractString edge "to", extractString edge "connection_type", extractDouble edge "base_weight" (tenths 10),
      extractStringArray (edge.item "connection_conditions")⟩
  | _ => none

/-- An element of the uploaded array; none is one that is discarded. The name, the
description, the place and the tags of a node are read by nothing. -/
def parseNode : Value → Option MapNode
  | .object fields =>
    let node : Value := .object fields
    let nodeType := extractString node "node_type"
    if (nodeType ≠ "fulfillment_center" ∧ nodeType ≠ "market") ∨ extractBool node "is_active" false = false ∨
        extractBool node "is_secure" false = false then none
    else
      some ⟨extractString node "node_id", nodeType,
        match node.item "connections" with
        | some (.array items) => items.filterMap parseEdge
        | _ => []⟩
  | _ => none

structure MapParseResult where
  nodes : List MapNode
  totalReceived : Nat
  totalDiscarded : Nat
deriving DecidableEq

def takeNode (result : MapParseResult) (item : Value) : MapParseResult :=
  match parseNode item with
  | none => { result with totalDiscarded := result.totalDiscarded + 1 }
  | some node => { result with nodes := result.nodes ++ [node] }

def parseMapJson (parse : String → Option Value) (jsonBody : String) : Except String MapParseResult :=
  match parse jsonBody with
  | none => .error "Invalid JSON format"
  | some (.array items) => .ok (items.foldl takeNode ⟨[], items.length, 0⟩)
  | some _ => .error "Expected a JSON array of map nodes"

variable {nodes : List MapNode}

theorem nodes_foldl_takeNode (items : List Value) (result : MapParseResult) :
    (items.foldl takeNode result).nodes = result.nodes ++ items.filterMap parseNode := by
  induction items generalizing result with
  | nil => exact (append_nil _).symm
  | cons item items ih =>
    rw [foldl_cons, ih, takeNode]
    cases hnode : parseNode item with
    | none => rw [filterMap_cons_none hnode]
    | some node => rw [filterMap_cons_some hnode, append_assoc, singleton_append]

/-- The vertices of the graph and the ids of the nodes name each other, and an id has the
type of its node. -/
structure VerticesMatch (nodes : List MapNode) : Prop where
  vertex : ∀ i, (buildAdjacencyMatrix nodes).nodeToIndex ((buildAdjacencyMatrix nodes).indexToNodeId i) = some i
  name : ∀ id, id ∈ nodes.map MapNode.nodeId ↔ ∃ i, (buildAdjacencyMatrix nodes).nodeToIndex id = some i
  found : ∀ id i, (buildAdjacencyMatrix nodes).nodeToIndex id = some i →
    (buildAdjacencyMatrix nodes).indexToNodeId i = id
  type : ∀ node ∈ nodes, (buildAdjacencyMatrix nodes).nodeIdToType node.nodeId = some node.nodeType

theorem verticesMatch_iff : VerticesMatch nodes ↔ (nodes.map MapNode.nodeId).Nodup := by
  constructor
  · intro h
    rw [nodup_iff_injective_get]
    intro i j hij
    have hget (k : Fin (nodes.map MapNode.nodeId).length) : (nodes.map MapNode.nodeId).get k =
        (buildAdjacencyMatrix nodes).indexToNodeId (k.cast (length_map _)) := by
      simp [buildAdjacencyMatrix]
    rw [hget, hget] at hij
    have hi := h.vertex (i.cast (length_map _))
    rw [hij, h.vertex] at hi
    exact Fin.cast_injective _ (Option.some.inj hi).symm
  · intro hids
    refine ⟨fun i => (nodeToIndex_eq_some hids).mpr rfl, fun id => ?_, fun id i h => (nodeToIndex_eq_some hids).mp h,
      fun node hnode => nodeIdToType_get hids hnode⟩
    rw [mem_map]
    constructor
    · rintro ⟨node, hnode, rfl⟩
      obtain ⟨i, rfl⟩ := mem_iff_get.mp hnode
      exact ⟨i, (nodeToIndex_eq_some hids).mpr rfl⟩
    · rintro ⟨i, hi⟩
      exact ⟨nodes.get i, get_mem nodes i, (nodeToIndex_eq_some hids).mp hi⟩

theorem nodes_of_parseMapJson {parse : String → Option Value} {jsonBody : String} {result : MapParseResult}
    (h : parseMapJson parse jsonBody = .ok result) :
    ∃ items, parse jsonBody = some (.array items) ∧ result.nodes = items.filterMap parseNode := by
  rw [parseMapJson] at h
  cases hparse : parse jsonBody with
  | none => rw [hparse] at h; cases h
  | some root =>
    rw [hparse] at h
    cases root with
    | array items =>
      cases h
      exact ⟨items, rfl, (nodes_foldl_takeNode items _).trans (nil_append _)⟩
    | _ => cases h

/-- The graph of an accepted map has one vertex for each id exactly when no two of the
elements that are kept carry one id, where a missing id counts as the empty one. -/
theorem map_vertices_match_iff (parse : String → Option Value) (jsonBody : String) (result : MapParseResult)
    (h : parseMapJson parse jsonBody = .ok result) : ∃ items, parse jsonBody = some (.array items) ∧
      (VerticesMatch result.nodes ↔ ((items.filterMap parseNode).map MapNode.nodeId).Nodup) := by
  obtain ⟨items, hparse, hnodes⟩ := nodes_of_parseMapJson h
  refine ⟨items, hparse, ?_⟩
  rw [hnodes]
  exact verticesMatch_iff

def centerFields : List (String × Value) :=
  [("node_type", .string "fulfillment_center"), ("is_active", .bool true), ("is_secure", .bool true)]

def centerText : String := "\x7b\"node_type\":\"fulfillment_center\",\"is_active\":true,\"is_secure\":true\x7d"

def namedText (id : String) : String :=
  "\x7b\"node_id\":\"" ++ id ++ "\",\"node_type\":\"fulfillment_center\",\"is_active\":true,\"is_secure\":true\x7d"

def readCenters (text : String) : Option Value :=
  if text = "[" ++ namedText "a" ++ "," ++ namedText "b" ++ "]" then
    some (.array [.object (("node_id", .string "a") :: centerFields), .object (("node_id", .string "b") :: centerFields)])
  else if text = "[" ++ centerText ++ "," ++ centerText ++ "]" then
    some (.array [.object centerFields, .object centerFields])
  else none

def namelessCenter : MapNode := ⟨"", "fulfillment_center", []⟩

theorem named_centers_match : VerticesMatch [⟨"a", "fulfillment_center", []⟩, ⟨"b", "fulfillment_center", []⟩] := by
  obtain ⟨items, hparse, hiff⟩ := map_vertices_match_iff readCenters ("[" ++ namedText "a" ++ "," ++ namedText "b" ++ "]")
    ⟨[⟨"a", "fulfillment_center", []⟩, ⟨"b", "fulfillment_center", []⟩], 2, 0⟩ (by decide +kernel)
  rw [readCenters, if_pos rfl] at hparse
  cases hparse
  exact hiff.mpr (by decide +kernel)

/-- Two centers without an id are both accepted, and the first one is the vertex of no id. -/
theorem nameless_centers_unmatched :
    parseMapJson readCenters ("[" ++ centerText ++ "," ++ centerText ++ "]") =
      .ok ⟨[namelessCenter, namelessCenter], 2, 0⟩ ∧ ¬ VerticesMatch [namelessCenter, namelessCenter] := by
  refine ⟨by decide +kernel, fun h => ?_⟩
  exact absurd (verticesMatch_iff.mp h) (by decide)

section Costs

def connectionCost (conn : MapEdge) : ℚ :=
  conn.baseWeight * (typeModifiers.lookup conn.connectionType).getD modDefault *
    (1 + (conn.connectionConditions.filterMap fun condition => conditionModifiers.lookup condition).sum)

def Usable (target : String) (conn : MapEdge) : Prop :=
  conn.target = target ∧ conn.connectionType ≠ "blocked" ∧ 0 < connectionCost conn

instance (target : String) : DecidablePred (Usable target) :=
  fun _ => inferInstanceAs (Decidable (_ ∧ _ ∧ _))

theorem foldl_modifiers (conditions : List String) (sum : ℚ) :
    conditions.foldl (fun sum condition =>
      match conditionModifiers.lookup condition with
      | some modifier => sum + modifier
      | none => sum) sum = sum + (conditions.filterMap fun condition => conditionModifiers.lookup condition).sum := by
  induction conditions generalizing sum with
  | nil => exact (add_zero sum).symm
  | cons condition conditions ih =>
    rw [foldl_cons, ih]
    cases hlookup : conditionModifiers.lookup condition with
    | none => rw [filterMap_cons, hlookup]
    | some modifier => rw [filterMap_cons, hlookup, sum_cons, add_assoc]

theorem calculateEdgeCost_eq (conn : MapEdge) :
    calculateEdgeCost conn = if conn.connectionType = "blocked" then 0 else connectionCost conn := by
  have hbase : conditionBase = 1 := by decide
  by_cases hblocked : conn.connectionType = "blocked"
  · rw [calculateEdgeCost, if_pos hblocked, if_pos hblocked]
    exact noConnection_eq
  · have hsum := foldl_modifiers conn.connectionConditions noConnection
    rw [noConnection_eq, zero_add] at hsum
    rw [calculateEdgeCost, if_neg hblocked, if_neg hblocked, connectionCost, ← hsum]
    rfl

theorem positive_cost_iff (conn : MapEdge) :
    noConnection < calculateEdgeCost conn ↔ conn.connectionType ≠ "blocked" ∧ 0 < connectionCost conn := by
  rw [noConnection_eq, calculateEdgeCost_eq]
  by_cases hblocked : conn.connectionType = "blocked"
  · simp [hblocked]
  · simp [hblocked]

theorem edgeCost_eq_getLast? (target : String) (connections : List MapEdge) (cost : ℚ) :
    edgeCost target cost connections =
      ((connections.filter (Usable target)).getLast?.map connectionCost).getD cost := by
  induction connections generalizing cost with
  | nil => rfl
  | cons conn connections ih =>
    have hstep : edgeCost target cost (conn :: connections) =
        edgeCost target (if Usable target conn then connectionCost conn else cost) connections := by
      have husable : (conn.target = target ∧ noConnection < calculateEdgeCost conn) ↔ Usable target conn :=
        and_congr_right fun _ => positive_cost_iff conn
      rw [edgeCost, foldl_cons, ← edgeCost]
      by_cases h : Usable target conn
      · rw [if_pos h, if_pos (husable.mpr h), calculateEdgeCost_eq, if_neg h.2.1]
      · rw [if_neg h, if_neg fun hcost => h (husable.mp hcost)]
    rw [hstep, ih]
    by_cases h : Usable target conn
    · rw [if_pos h, filter_cons_of_pos (by simpa using h), getLast?_cons]
      cases (connections.filter (Usable target)).getLast? <;> rfl
    · rw [if_neg h, filter_cons_of_neg (by simpa using h)]

/-- An entry of the matrix is the cost of the last usable connection of its row to its
column. -/
theorem adjMatrix_last_usable (nodes : List MapNode) (hids : (nodes.map MapNode.nodeId).Nodup)
    (i j : Fin nodes.length) : (buildAdjacencyMatrix nodes).adjMatrix i j =
        (((nodes.get i).connections.filter (Usable (nodes.get j).nodeId)).getLast?.map connectionCost).getD 0 ∧
      0 ≤ (buildAdjacencyMatrix nodes).adjMatrix i j := by
  refine ⟨?_, adjMatrix_nonneg hids i j⟩
  rw [adjMatrix_get hids, edgeCost_eq_getLast?, noConnection_eq]

def road (target : String) (weight : ℚ) (conditions : List String) : MapEdge := ⟨target, "road", weight, conditions⟩

def loopNode : MapNode :=
  ⟨"a", "market", [road "a" (tenths 10) ["weather_rain"], road "b" (tenths 50) [], road "a" (tenths 20) ["cleared"]]⟩

theorem loop_cost :
    (buildAdjacencyMatrix [loopNode]).adjMatrix ⟨0, Nat.zero_lt_one⟩ ⟨0, Nat.zero_lt_one⟩ = tenths 16 := by
  refine (adjMatrix_last_usable [loopNode] (nodup_singleton _) _ _).1.trans ?_
  decide +kernel

end Costs

end Logistics.GraphBuilder
