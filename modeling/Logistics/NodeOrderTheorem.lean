import Logistics.CircuitCycles
import Logistics.FlowTheorem
import Logistics.GraphBuilder

namespace Logistics.FulfillmentApi

open GraphBuilder

def fulfillmentCenterNodeType : String := "fulfillment_center"

def maxFulfillmentCircuitNodes : Nat := 20

def isGraphLoaded (graph : GraphData) : Bool := graph.size != 0

def collectNodeIndicesByType (graph : GraphData) (nodeType : String) : List (Fin graph.size) :=
  (List.finRange graph.size).filter fun index =>
    graph.nodeIdToType (graph.indexToNodeId index) = some nodeType

def buildBinarySubgraph (graph : GraphData) (selected : List (Fin graph.size)) : CostMatrix selected.length :=
  fun row column =>
    if tenths 0 < graph.adjMatrix (selected.get row) (selected.get column) then tenths 10 else tenths 0

structure FlowResponse where
  source : String
  sink : String
  nodeCount : Nat
  maxFlow : ℚ
deriving DecidableEq

def fulfillmentFlow (graph : GraphData) (source sink : String) : Except String FlowResponse :=
  if isGraphLoaded graph then
    match graph.nodeToIndex source, graph.nodeToIndex sink with
    | none, _ => .error ("Source node not found in graph: " ++ source)
    | _, none => .error ("Sink node not found in graph: " ++ sink)
    | some s, some t => .ok ⟨source, sink, graph.size, FlowSolver.fordFulkerson graph.adjMatrix s.val t.val⟩
  else .error "No map data loaded. Call /map first."

structure CircuitResponse where
  hasCircuit : Bool
  nodeCount : Nat
  circuits : List (List String)
deriving DecidableEq

def startIndex (ids : List String) (start : String) : Except String Int :=
  if start = "" then .ok (-1)
  else if start ∈ ids then .ok (ids.idxOf start)
  else .error ("Start node is not a secure active fulfillment center: " ++ start)

def fulfillmentCircuit (graph : GraphData) (start : String) : Except String CircuitResponse :=
  if isGraphLoaded graph then
    let selected := collectNodeIndicesByType graph fulfillmentCenterNodeType
    if maxFulfillmentCircuitNodes < selected.length then
      .error ("Fulfillment-center subgraph exceeds the supported limit of " ++
        toString maxFulfillmentCircuitNodes ++ " nodes")
    else do
      let index ← startIndex (selected.map graph.indexToNodeId) start
      let result ← CircuitSolver.findHamiltonianCircuits (buildBinarySubgraph graph selected) index
      return {
        hasCircuit := result.hasCircuit
        nodeCount := selected.length
        circuits := result.circuits.map fun circuit => circuit.map fun i => graph.indexToNodeId (selected.get i) }
  else .error "No map data loaded. Call /map first."

end Logistics.FulfillmentApi

namespace Logistics.FulfillmentApi

open GraphBuilder

variable {graph graph' : GraphData} {e : Fin graph.size ≃ Fin graph'.size}

theorem isGraphLoaded_eq (e : Fin graph.size ≃ Fin graph'.size) : isGraphLoaded graph' = isGraphLoaded graph := by
  have hsize : graph.size = graph'.size := Fin.equiv_iff_eq.mp ⟨e⟩
  rw [isGraphLoaded, isGraphLoaded, hsize]

theorem maxFlow_eq (h : Relabelled graph graph' e) (hadj : ∀ i j, 0 ≤ graph.adjMatrix i j) (s t : Fin graph.size) :
    FlowSolver.fordFulkerson graph'.adjMatrix (e s).val (e t).val =
      FlowSolver.fordFulkerson graph.adjMatrix s.val t.val := by
  by_cases hst : s = t
  · subst hst
    rw [FlowSolver.fordFulkerson_self, FlowSolver.fordFulkerson_self]
  · have hadj' (i j : Fin graph'.size) : 0 ≤ graph'.adjMatrix i j := by
      rw [← e.apply_symm_apply i, ← e.apply_symm_apply j, h.adjMatrix]
      exact hadj _ _
    have hmax := (FlowSolver.isMaximum_fordFulkerson hadj hst).relabel e h.adjMatrix
    exact (FlowSolver.isMaximum_fordFulkerson hadj' fun heq => hst (e.injective heq)).unique hmax

theorem fulfillmentFlow_eq (h : Relabelled graph graph' e) (hadj : ∀ i j, 0 ≤ graph.adjMatrix i j)
    (source sink : String) : fulfillmentFlow graph' source sink = fulfillmentFlow graph source sink := by
  have hsize : graph.size = graph'.size := Fin.equiv_iff_eq.mp ⟨e⟩
  rw [fulfillmentFlow, fulfillmentFlow, isGraphLoaded_eq e, h.nodeToIndex, h.nodeToIndex]
  cases graph.nodeToIndex source with
  | none => rfl
  | some s =>
    cases graph.nodeToIndex sink with
    | none => rfl
    | some t => simp only [Option.map_some, maxFlow_eq h hadj, hsize]

theorem selected_perm (h : Relabelled graph graph' e) (nodeType : String) :
    ((collectNodeIndicesByType graph nodeType).map e).Perm (collectNodeIndicesByType graph' nodeType) := by
  refine (List.perm_ext_iff_of_nodup ?_ ?_).mpr fun j => ?_
  · exact ((List.nodup_finRange _).filter _).map e.injective
  · exact (List.nodup_finRange _).filter _
  · obtain ⟨i, rfl⟩ := e.surjective j
    simp [collectNodeIndicesByType, h.indexToNodeId, h.nodeIdToType]

theorem buildBinarySubgraph_pos {selected : List (Fin graph.size)} (i j : Fin selected.length) :
    0 < buildBinarySubgraph graph selected i j ↔ 0 < graph.adjMatrix (selected.get i) (selected.get j) := by
  have hzero : tenths 0 = 0 := noConnection_eq
  have hone : (0 : ℚ) < tenths 10 := by decide +kernel
  rw [buildBinarySubgraph, hzero]
  split
  next h => simp only [h, hone]
  next h => simp only [h, lt_irrefl]

section Tours

variable (graph) in
def center (i : Fin (collectNodeIndicesByType graph fulfillmentCenterNodeType).length) : String :=
  graph.indexToNodeId ((collectNodeIndicesByType graph fulfillmentCenterNodeType).get i)

def Tour (graph : GraphData) (start : String) (ids : List String) : Prop :=
  2 ≤ (collectNodeIndicesByType graph fulfillmentCenterNodeType).length ∧
    ∃ s circuit, center graph s = start ∧ ids = circuit.map (center graph) ∧ CircuitSolver.IsHamiltonian
      (buildBinarySubgraph graph (collectNodeIndicesByType graph fulfillmentCenterNodeType)) s circuit

theorem center_injective (hinj : Function.Injective graph.indexToNodeId) : Function.Injective (center graph) := by
  intro i j hij
  have hnodup : (collectNodeIndicesByType graph fulfillmentCenterNodeType).Nodup :=
    (List.nodup_finRange _).filter _
  exact List.nodup_iff_injective_get.mp hnodup (hinj hij)

theorem Tour.relabel (h : Relabelled graph graph' e) {start : String} {ids : List String}
    (htour : Tour graph start ids) : Tour graph' start ids := by
  have hperm := selected_perm h fulfillmentCenterNodeType
  obtain ⟨hsize, s, circuit, rfl, rfl, hcircuit⟩ := htour
  obtain ⟨f, hf⟩ := exists_relabelling e hperm ((List.nodup_finRange _).filter _)
  have hcenter (i) : center graph' (f i) = center graph i := by
    rw [center, hf, h.indexToNodeId]
    rfl
  refine ⟨?_, f s, circuit.map f, hcenter s, ?_, ?_⟩
  · rw [← hperm.length_eq, List.length_map]
    exact hsize
  · rw [List.map_map]
    exact List.map_congr_left fun i _ => (hcenter i).symm
  · refine hcircuit.relabel f fun u v => ?_
    rw [buildBinarySubgraph_pos, buildBinarySubgraph_pos, hf, hf, h.adjMatrix]

end Tours

/-- The circuits that are reported are the tours from the start, and without a start all
tours up to rotation. -/
def Answers (graph : GraphData) (start : String) (circuits : List (List String)) : Prop :=
  if start = "" then
    (∀ ids ∈ circuits, ∃ s, Tour graph s ids) ∧
      ∀ s ids, Tour graph s ids → ∃ found ∈ circuits, found.dropLast ~r ids.dropLast
  else ∀ ids, ids ∈ circuits ↔ Tour graph start ids

variable {start : String} {index : Int} {ids : List String}

theorem startIndex_cases (h : startIndex ids start = .ok index) :
    (start = "" ∧ index = -1) ∨ (start ≠ "" ∧ ∃ i : Fin ids.length, index = i.val ∧ ids.get i = start) := by
  rw [startIndex] at h
  by_cases hempty : start = ""
  · rw [if_pos hempty] at h
    exact .inl ⟨hempty, (Except.ok.inj h).symm⟩
  · rw [if_neg hempty] at h
    by_cases hmem : start ∈ ids
    · rw [if_pos hmem] at h
      refine .inr ⟨hempty, ⟨ids.idxOf start, List.idxOf_lt_length_of_mem hmem⟩, (Except.ok.inj h).symm, ?_⟩
      exact List.getElem_idxOf _
    · rw [if_neg hmem] at h
      cases h

theorem search_answers (hinj : Function.Injective graph.indexToNodeId)
    (hindex : startIndex ((collectNodeIndicesByType graph fulfillmentCenterNodeType).map graph.indexToNodeId) start =
      .ok index) : ∃ circuits, CircuitSolver.findHamiltonianCircuits
        (buildBinarySubgraph graph (collectNodeIndicesByType graph fulfillmentCenterNodeType)) index =
          .ok ⟨!circuits.isEmpty, circuits⟩ ∧
      Answers graph start (circuits.map fun circuit => circuit.map (center graph)) := by
  by_cases hn : 2 ≤ (collectNodeIndicesByType graph fulfillmentCenterNodeType).length
  · obtain ⟨rfl, rfl⟩ | ⟨hne, i, rfl, hi⟩ := startIndex_cases hindex
    · obtain ⟨circuits, hfound, hsound, hcomplete⟩ := CircuitSolver.circuits_any hn (buildBinarySubgraph graph _)
        (CircuitSolver.decided _)
      refine ⟨circuits, hfound, ?_⟩
      constructor
      · intro ids hids
        obtain ⟨circuit, hcircuit, rfl⟩ := List.mem_map.mp hids
        obtain ⟨s, hs⟩ := hsound circuit hcircuit
        exact ⟨_, hn, s, circuit, rfl, rfl, hs⟩
      · rintro _ _ ⟨-, s, circuit, rfl, rfl, hcircuit⟩
        obtain ⟨found, hmem, hrotated⟩ := hcomplete s circuit hcircuit
        refine ⟨_, List.mem_map_of_mem hmem, ?_⟩
        rw [← List.map_dropLast, ← List.map_dropLast]
        exact hrotated.map (center graph)
    · obtain ⟨s, hs⟩ : ∃ s : Fin (collectNodeIndicesByType graph fulfillmentCenterNodeType).length, s.val = i.val :=
        ⟨⟨i.val, by simpa using i.isLt⟩, rfl⟩
      have hcenter : center graph s = start := by
        rw [← hi, center]
        simp [hs]
      obtain ⟨circuits, hfound, -, hmem⟩ := CircuitSolver.circuits_from hn (buildBinarySubgraph graph _) s
      simp only [CircuitSolver.found_iff hn (CircuitSolver.decided _ s)] at hmem
      refine ⟨circuits, hs ▸ hfound, ?_⟩
      rw [Answers, if_neg hne]
      intro ids
      constructor
      · intro hids
        obtain ⟨circuit, hcircuit, rfl⟩ := List.mem_map.mp hids
        exact ⟨hn, s, circuit, hcenter, rfl, (hmem circuit).mp hcircuit⟩
      · rintro ⟨-, t, circuit, ht, rfl, hcircuit⟩
        obtain rfl := center_injective hinj (ht.trans hcenter.symm)
        exact List.mem_map_of_mem ((hmem circuit).mpr hcircuit)
  · refine ⟨[], by rw [CircuitSolver.findHamiltonianCircuits, if_pos (by omega)]; rfl, ?_⟩
    rw [Answers]
    split
    next => exact ⟨fun ids h => absurd h List.not_mem_nil, fun s ids h => absurd h.1 hn⟩
    next => exact fun ids => ⟨fun h => absurd h List.not_mem_nil, fun h => absurd h.1 hn⟩

theorem fulfillmentCircuit_ok (hinj : Function.Injective graph.indexToNodeId) (hloaded : isGraphLoaded graph = true)
    (hsize : ¬ maxFulfillmentCircuitNodes < (collectNodeIndicesByType graph fulfillmentCenterNodeType).length)
    (hindex : startIndex ((collectNodeIndicesByType graph fulfillmentCenterNodeType).map graph.indexToNodeId) start =
      .ok index) : ∃ circuits, fulfillmentCircuit graph start =
        .ok ⟨!circuits.isEmpty, (collectNodeIndicesByType graph fulfillmentCenterNodeType).length, circuits⟩ ∧
      Answers graph start circuits := by
  obtain ⟨circuits, hfound, hanswers⟩ := search_answers hinj hindex
  refine ⟨_, ?_, hanswers⟩
  rw [fulfillmentCircuit, if_pos hloaded, if_neg hsize, hindex]
  change (CircuitSolver.findHamiltonianCircuits _ index >>= fun result => _) = _
  rw [hfound, List.isEmpty_map]
  rfl

def cyclic (circuits : List (List String)) : Set (Cycle String) :=
  { γ | ∃ ids ∈ circuits, (ids.dropLast : Cycle String) = γ }

/-- The same answer: the same error, or the same circuits, as cyclic sequences if there is
no start and otherwise as sequences. -/
def SameAnswer (start : String) : Except String CircuitResponse → Except String CircuitResponse → Prop
  | .ok response, .ok response' =>
    response.hasCircuit = response'.hasCircuit ∧ response.nodeCount = response'.nodeCount ∧
      (start = "" → cyclic response.circuits = cyclic response'.circuits) ∧
      (start ≠ "" → ∀ ids, ids ∈ response.circuits ↔ ids ∈ response'.circuits)
  | .error message, .error message' => message = message'
  | _, _ => False

variable {circuits : List (List String)}

theorem Answers.ne_nil_iff (h : Answers graph start circuits) :
    circuits ≠ [] ↔ ∃ s ids, Tour graph s ids ∧ (start = "" ∨ s = start) := by
  rw [Answers] at h
  by_cases hempty : start = ""
  · rw [if_pos hempty] at h
    constructor
    · intro hne
      obtain ⟨ids, hids⟩ := List.exists_mem_of_ne_nil circuits hne
      obtain ⟨s, hs⟩ := h.1 ids hids
      exact ⟨s, ids, hs, .inl hempty⟩
    · rintro ⟨s, ids, hs, -⟩
      obtain ⟨found, hfound, -⟩ := h.2 s ids hs
      exact List.ne_nil_of_mem hfound
  · rw [if_neg hempty] at h
    constructor
    · intro hne
      obtain ⟨ids, hids⟩ := List.exists_mem_of_ne_nil circuits hne
      exact ⟨start, ids, (h ids).mp hids, .inr rfl⟩
    · rintro ⟨s, ids, hs, hstart | rfl⟩
      · exact absurd hstart hempty
      · exact List.ne_nil_of_mem ((h ids).mpr hs)

variable {circuits' : List (List String)}

theorem Answers.cyclic_subset (h : Answers graph "" circuits) (h' : Answers graph' "" circuits')
    (htour : ∀ s ids, Tour graph s ids → Tour graph' s ids) : cyclic circuits ⊆ cyclic circuits' := by
  rintro _ ⟨ids, hids, rfl⟩
  obtain ⟨s, hs⟩ := h.1 ids hids
  obtain ⟨found, hfound, hrotated⟩ := h'.2 s ids (htour s ids hs)
  exact ⟨found, hfound, Cycle.coe_eq_coe.mpr hrotated⟩

theorem Answers.sameAnswer (h : Answers graph start circuits)
    (h' : Answers graph' start circuits') (htour : ∀ s ids, Tour graph s ids ↔ Tour graph' s ids) (count : Nat) :
    SameAnswer start (.ok ⟨!circuits.isEmpty, count, circuits⟩) (.ok ⟨!circuits'.isEmpty, count, circuits'⟩) := by
  have hnil : circuits ≠ [] ↔ circuits' ≠ [] := by
    rw [h.ne_nil_iff, h'.ne_nil_iff]
    simp only [htour]
  refine ⟨?_, rfl, ?_, ?_⟩
  · rw [Bool.eq_iff_iff]
    simpa using hnil
  · rintro rfl
    exact (h.cyclic_subset h' fun s ids => (htour s ids).mp).antisymm
      (h'.cyclic_subset h fun s ids => (htour s ids).mpr)
  · intro hne ids
    rw [Answers, if_neg hne] at h h'
    exact (h ids).trans ((htour start ids).trans (h' ids).symm)

theorem startIndex_perm {ids' : List String} (h : ids.Perm ids') (start : String) :
    (∃ i i', startIndex ids start = .ok i ∧ startIndex ids' start = .ok i') ∨
      ∃ message, startIndex ids start = .error message ∧ startIndex ids' start = .error message := by
  by_cases hempty : start = ""
  · rw [startIndex, startIndex, if_pos hempty, if_pos hempty]
    exact .inl ⟨_, _, rfl, rfl⟩
  · by_cases hmem : start ∈ ids
    · rw [startIndex, startIndex, if_neg hempty, if_neg hempty, if_pos hmem, if_pos (h.mem_iff.mp hmem)]
      exact .inl ⟨_, _, rfl, rfl⟩
    · rw [startIndex, startIndex, if_neg hempty, if_neg hempty, if_neg hmem, if_neg (mt h.mem_iff.mpr hmem)]
      exact .inr ⟨_, rfl, rfl⟩

theorem sameAnswer_of_relabelled (h : Relabelled graph graph' e) (hinj : Function.Injective graph.indexToNodeId)
    (hinj' : Function.Injective graph'.indexToNodeId) (htour : ∀ s ids, Tour graph s ids ↔ Tour graph' s ids)
    (start : String) : SameAnswer start (fulfillmentCircuit graph start) (fulfillmentCircuit graph' start) := by
  have hperm := selected_perm h fulfillmentCenterNodeType
  have hlength : (collectNodeIndicesByType graph fulfillmentCenterNodeType).length =
      (collectNodeIndicesByType graph' fulfillmentCenterNodeType).length := by
    rw [← hperm.length_eq, List.length_map]
  have hids : ((collectNodeIndicesByType graph fulfillmentCenterNodeType).map graph.indexToNodeId).Perm
      ((collectNodeIndicesByType graph' fulfillmentCenterNodeType).map graph'.indexToNodeId) := by
    have hmap := hperm.map graph'.indexToNodeId
    rw [List.map_map] at hmap
    rwa [List.map_congr_left fun i _ => (h.indexToNodeId i).symm]
  by_cases hloaded : isGraphLoaded graph = true
  · have hloaded' : isGraphLoaded graph' = true := (isGraphLoaded_eq e).trans hloaded
    by_cases hsize : maxFulfillmentCircuitNodes < (collectNodeIndicesByType graph fulfillmentCenterNodeType).length
    · rw [fulfillmentCircuit, fulfillmentCircuit, if_pos hloaded, if_pos hloaded', if_pos hsize,
        if_pos (hlength ▸ hsize)]
      rfl
    · obtain ⟨i, i', hi, hi'⟩ | ⟨message, hi, hi'⟩ := startIndex_perm hids start
      · obtain ⟨circuits, hfound, hanswers⟩ := fulfillmentCircuit_ok hinj hloaded hsize hi
        obtain ⟨circuits', hfound', hanswers'⟩ := fulfillmentCircuit_ok hinj' hloaded' (hlength ▸ hsize) hi'
        rw [hfound, hfound', hlength]
        exact hanswers.sameAnswer hanswers' htour _
      · rw [fulfillmentCircuit, fulfillmentCircuit, if_pos hloaded, if_pos hloaded', if_neg hsize,
          if_neg (hlength ▸ hsize), hi, hi']
        rfl
  · rw [fulfillmentCircuit, fulfillmentCircuit, if_neg hloaded, if_neg ((isGraphLoaded_eq e).symm ▸ hloaded)]
    rfl

/-- The answers do not depend on the order of the nodes of the map. -/
theorem answers_ignore_node_order {nodes nodes' : List MapNode} (hperm : nodes.Perm nodes')
    (hids : (nodes.map MapNode.nodeId).Nodup) :
    (∀ source sink, fulfillmentFlow (buildAdjacencyMatrix nodes) source sink =
      fulfillmentFlow (buildAdjacencyMatrix nodes') source sink) ∧
    ∀ start, SameAnswer start (fulfillmentCircuit (buildAdjacencyMatrix nodes) start)
      (fulfillmentCircuit (buildAdjacencyMatrix nodes') start) := by
  have hids' : (nodes'.map MapNode.nodeId).Nodup := (hperm.map _).nodup_iff.mp hids
  obtain ⟨e, he⟩ := relabelled_of_perm hperm hids
  obtain ⟨e', he'⟩ := relabelled_of_perm hperm.symm hids'
  constructor
  · intro source sink
    exact (fulfillmentFlow_eq he (adjMatrix_nonneg hids) source sink).symm
  · exact sameAnswer_of_relabelled he (indexToNodeId_injective hids) (indexToNodeId_injective hids')
      fun s ids => ⟨Tour.relabel he, Tour.relabel he'⟩

def north : MapNode := ⟨"north", "fulfillment_center", [⟨"south", "road", tenths 20, []⟩]⟩

def south : MapNode := ⟨"south", "fulfillment_center", [⟨"north", "rail", tenths 30, ["cleared"]⟩]⟩

theorem north_south_order :
    fulfillmentFlow (buildAdjacencyMatrix [south, north]) "north" "south" = .ok ⟨"north", "south", 2, tenths 20⟩ ∧
      SameAnswer "" (fulfillmentCircuit (buildAdjacencyMatrix [north, south]) "")
        (fulfillmentCircuit (buildAdjacencyMatrix [south, north]) "") := by
  have horder := answers_ignore_node_order (List.Perm.swap south north []) (by decide)
  have hflow : fulfillmentFlow (buildAdjacencyMatrix [north, south]) "north" "south" =
      .ok ⟨"north", "south", 2, tenths 20⟩ := by decide +kernel
  exact ⟨(horder.1 "north" "south").symm.trans hflow, horder.2 ""⟩

end Logistics.FulfillmentApi
